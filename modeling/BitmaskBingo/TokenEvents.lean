/-
  BitmaskBingo.TokenEvents

  The functions of the token with the events they emit: the internal
  functions of `ERC20` and `Ownable` emit last, after their checks and writes.
  An allowance that is spent is announced by an `Approval`, unless it is
  unlimited.
-/

import BitmaskBingo.Bank
import BitmaskBingo.Lib.Logging

namespace BitmaskBingo
namespace BingoToken

open Lib

inductive Event where
  | Transfer (from_ to_ : Address) (value : Uint256)
  | Approval (owner spender : Address) (value : Uint256)
  | OwnershipTransferred (previousOwner newOwner : Address)
deriving Repr, DecidableEq

namespace Emitting

-- ============================================================================
-- The functions that emit
-- ============================================================================

/-- Changed, and announced by an event. -/
def announce (t : Logged BingoToken Event) (e : Event) (x : Except Revert BingoToken) :
    Except Revert (Logged BingoToken Event) := do
  let state ← x
  return ⟨state, t.log ++ [e]⟩

section Functions

variable (t : Logged BingoToken Event)

def _transfer (from_ to_ : Address) (amount : Uint256) :
    Except Revert (Logged BingoToken Event) :=
  announce t (.Transfer from_ to_ amount) (t.state._transfer from_ to_ amount)

def _mint (account : Address) (amount : Uint256) : Except Revert (Logged BingoToken Event) :=
  announce t (.Transfer 0 account amount) (t.state._mint account amount)

def _approve (owner spender : Address) (amount : Uint256) :
    Except Revert (Logged BingoToken Event) :=
  announce t (.Approval owner spender amount) (t.state._approve owner spender amount)

def _spendAllowance (owner spender : Address) (amount : Uint256) :
    Except Revert (Logged BingoToken Event) := do
  let currentAllowance := t.state.allowance owner spender
  if currentAllowance ≠ maxUint256 then
    require (currentAllowance ≥ amount) "ERC20: insufficient allowance"
    _approve t owner spender (currentAllowance - amount)
  else
    return t

def _transferOwnership (newOwner : Address) : Except Revert (Logged BingoToken Event) :=
  let oldOwner := t.state.owner
  announce t (.OwnershipTransferred oldOwner newOwner) (.ok { t.state with owner := newOwner })

variable (sender : Address)

def transferFrom (from_ to_ : Address) (amount : Uint256) :
    Except Revert (Logged BingoToken Event) := do
  let t ← _spendAllowance t from_ sender amount
  _transfer t from_ to_ amount

def increaseAllowance (spender : Address) (addedValue : Uint256) :
    Except Revert (Logged BingoToken Event) := do
  let newAllowance ← checkedAdd (t.state.allowance sender spender) addedValue
  _approve t sender spender newAllowance

def decreaseAllowance (spender : Address) (subtractedValue : Uint256) :
    Except Revert (Logged BingoToken Event) := do
  let currentAllowance := t.state.allowance sender spender
  require (currentAllowance ≥ subtractedValue) "ERC20: decreased allowance below zero"
  _approve t sender spender (currentAllowance - subtractedValue)

def transferOwnership (newOwner : Address) : Except Revert (Logged BingoToken Event) := do
  t.state.onlyOwner sender
  require (newOwner ≠ 0) "Ownable: new owner is the zero address"
  _transferOwnership t newOwner

def renounceOwnership : Except Revert (Logged BingoToken Event) := do
  t.state.onlyOwner sender
  _transferOwnership t 0

def mint (to_ : Address) (amount : Uint256) : Except Revert (Logged BingoToken Event) := do
  t.state.onlyOwner sender
  let newSupply ← checkedAdd t.state.supply amount
  require (newSupply ≤ maxSupply) "Token supply is exhausted"
  let supply ← checkedAdd t.state.supply amount
  _mint ⟨{ t.state with supply }, t.log⟩ to_ amount

def call : Call → Except Revert (Logged BingoToken Event)
  | .mint to_ amount => mint t sender to_ amount
  | .transfer to_ amount => _transfer t sender to_ amount
  | .approve spender amount => _approve t sender spender amount
  | .increaseAllowance spender addedValue => increaseAllowance t sender spender addedValue
  | .decreaseAllowance spender subtractedValue =>
      decreaseAllowance t sender spender subtractedValue
  | .transferFrom from_ to_ amount => transferFrom t sender from_ to_ amount
  | .transferOwnership newOwner => transferOwnership t sender newOwner
  | .renounceOwnership => renounceOwnership t sender

end Functions

end Emitting

-- ============================================================================
-- What is emitted
-- ============================================================================

/-- The event of an allowance that is spent. -/
def spendEvents (t : BingoToken) (owner spender : Address) (amount : Uint256) : List Event :=
  if t.allowances owner spender = maxUint256 then []
  else [.Approval owner spender (t.allowances owner spender - amount)]

/-- The events of a call that succeeds. -/
def events (t : BingoToken) (sender : Address) : Call → List Event
  | .mint to_ amount => [.Transfer 0 to_ amount]
  | .transfer to_ amount => [.Transfer sender to_ amount]
  | .approve spender amount => [.Approval sender spender amount]
  | .increaseAllowance spender addedValue =>
      [.Approval sender spender (t.allowances sender spender + addedValue)]
  | .decreaseAllowance spender subtractedValue =>
      [.Approval sender spender (t.allowances sender spender - subtractedValue)]
  | .transferFrom from_ to_ amount =>
      t.spendEvents from_ sender amount ++ [.Transfer from_ to_ amount]
  | .transferOwnership newOwner => [.OwnershipTransferred t.owner newOwner]
  | .renounceOwnership => [.OwnershipTransferred t.owner 0]

namespace Emitting

variable {t t' : Logged BingoToken Event} {sender : Address}

theorem announce_iff {e : Event} {x : Except Revert BingoToken} :
    announce t e x = .ok t' ↔ x = .ok t'.state ∧ t'.log = t.log ++ [e] := by
  obtain ⟨u, log⟩ := t'
  cases x with
  | error r => simp [announce, bind, Except.bind]
  | ok v => simp [announce, bind, Except.bind, pure, Except.pure, eq_comm]

/-- A check, and then a change that is announced. -/
theorem require_announce_iff {c : Prop} [Decidable c] {m : String} {e : Event}
    {x : Except Revert BingoToken} :
    (require c m >>= fun _ => announce t e x) = .ok t' ↔
      (require c m >>= fun _ => x) = .ok t'.state ∧ t'.log = t.log ++ [e] := by
  rw [require_bind, require_bind, announce_iff, and_assoc]

theorem _spendAllowance_iff {owner spender : Address} {amount : Uint256} :
    _spendAllowance t owner spender amount = .ok t' ↔
      t.state._spendAllowance owner spender amount = .ok t'.state ∧
        t'.log = t.log ++ t.state.spendEvents owner spender amount := by
  by_cases hmax : t.state.allowance owner spender = maxUint256
  · obtain ⟨u, log⟩ := t
    obtain ⟨u', log'⟩ := t'
    have hmax' : u.allowances owner spender = maxUint256 := hmax
    simp [_spendAllowance, BingoToken._spendAllowance, hmax, spendEvents, hmax', pure, Except.pure,
      eq_comm]
  · have hmax' : ¬ t.state.allowances owner spender = maxUint256 := hmax
    rw [_spendAllowance, BingoToken._spendAllowance, if_pos hmax, if_pos hmax, spendEvents,
      if_neg hmax']
    exact require_announce_iff

theorem transferFrom_iff {from_ to_ : Address} {amount : Uint256} :
    transferFrom t sender from_ to_ amount = .ok t' ↔
      t.state.transferFrom sender from_ to_ amount = .ok t'.state ∧
        t'.log = t.log ++ events t.state sender (.transferFrom from_ to_ amount) := by
  rw [transferFrom, BingoToken.transferFrom, bind_eq_ok, bind_eq_ok]
  refine ⟨?_, ?_⟩
  · rintro ⟨t₁, hspend, hmove⟩
    obtain ⟨hspend, hlog⟩ := _spendAllowance_iff.mp hspend
    obtain ⟨hmove, hlog'⟩ := announce_iff.mp hmove
    exact ⟨⟨t₁.state, hspend, hmove⟩, by rw [hlog', hlog, List.append_assoc]; rfl⟩
  · rintro ⟨⟨u, hspend, hmove⟩, hlog⟩
    refine ⟨⟨u, t.log ++ t.state.spendEvents from_ sender amount⟩,
      _spendAllowance_iff.mpr ⟨hspend, rfl⟩, announce_iff.mpr ⟨hmove, ?_⟩⟩
    rw [hlog, List.append_assoc]
    rfl

/-- A call does what it does without its events, and appends them. -/
theorem call_iff (c : Call) :
    call t sender c = .ok t' ↔
      t.state.call sender c = .ok t'.state ∧ t'.log = t.log ++ events t.state sender c := by
  cases c with
  | transfer to_ amount => exact announce_iff
  | approve spender amount => exact announce_iff
  | transferFrom from_ to_ amount => exact transferFrom_iff
  | mint to_ amount =>
      simp only [call, mint, BingoToken.call, BingoToken.mint, onlyOwner, require_bind,
        checkedAdd_bind, _mint, announce_iff, and_assoc, events]
  | increaseAllowance spender addedValue =>
      simp only [call, increaseAllowance, BingoToken.call, BingoToken.increaseAllowance, allowance,
        checkedAdd_bind, _approve, announce_iff, and_assoc, events]
  | decreaseAllowance spender subtractedValue => exact require_announce_iff
  | transferOwnership newOwner =>
      simp only [call, transferOwnership, BingoToken.call, BingoToken.transferOwnership, onlyOwner,
        require_bind, _transferOwnership, announce_iff, and_assoc, events, pure, Except.pure]
  | renounceOwnership =>
      simp only [call, renounceOwnership, BingoToken.call, BingoToken.renounceOwnership, onlyOwner,
        require_bind, _transferOwnership, announce_iff, and_assoc, events, pure, Except.pure]

end Emitting
end BingoToken

end BitmaskBingo
