/-
  BitmaskBingo.Supply

  The supply of the token over any service of calls, by any senders.  The two
  supply counters and the holdings agree and stay below the cap, so that the
  arithmetic the token leaves unchecked never wraps.

  To say the latter, the functions with an `unchecked` block are written once
  more over the arithmetic of that block: with wrapping arithmetic they are
  the functions of the token, with checked arithmetic a sum or difference that
  wraps would panic.
-/

import BitmaskBingo.Bank
import BitmaskBingo.Lib.Refinement

namespace BitmaskBingo
namespace BingoToken

open Lib

variable {t t' : BingoToken} {sender : Address}

-- ============================================================================
-- The arithmetic of the unchecked blocks
-- ============================================================================

/-- Addition and subtraction in an `unchecked` block. -/
structure Arith where
  add : Uint256 → Uint256 → Except Revert Uint256
  sub : Uint256 → Uint256 → Except Revert Uint256

namespace Arith

/-- What the compiler emits for the block: results are taken modulo `2 ^ 256`. -/
def wrapping : Arith where
  add a b := .ok (a + b)
  sub a b := .ok (a - b)

/-- What it would emit without the keyword. -/
def checked : Arith where
  add := checkedAdd
  sub := checkedSub

variable (ar : Arith)

def _transfer (t : BingoToken) (from_ to_ : Address) (amount : Uint256) :
    Except Revert BingoToken := do
  require (from_ ≠ 0) "ERC20: transfer from the zero address"
  require (to_ ≠ 0) "ERC20: transfer to the zero address"
  let fromBalance := t.balances from_
  require (fromBalance ≥ amount) "ERC20: transfer amount exceeds balance"
  let t := t.setBalance from_ (← ar.sub fromBalance amount)
  return t.setBalance to_ (← ar.add (t.balances to_) amount)

def _mint (t : BingoToken) (account : Address) (amount : Uint256) :
    Except Revert BingoToken := do
  require (account ≠ 0) "ERC20: mint to the zero address"
  let totalSupply ← checkedAdd t.totalSupply amount
  let t := { t with totalSupply }
  return t.setBalance account (← ar.add (t.balances account) amount)

def _spendAllowance (t : BingoToken) (owner spender : Address) (amount : Uint256) :
    Except Revert BingoToken := do
  let currentAllowance := t.allowance owner spender
  if currentAllowance ≠ maxUint256 then
    require (currentAllowance ≥ amount) "ERC20: insufficient allowance"
    t._approve owner spender (← ar.sub currentAllowance amount)
  else
    return t

def decreaseAllowance (t : BingoToken) (sender spender : Address) (subtractedValue : Uint256) :
    Except Revert BingoToken := do
  let currentAllowance := t.allowance sender spender
  require (currentAllowance ≥ subtractedValue) "ERC20: decreased allowance below zero"
  t._approve sender spender (← ar.sub currentAllowance subtractedValue)

def mint (t : BingoToken) (sender to_ : Address) (amount : Uint256) :
    Except Revert BingoToken := do
  t.onlyOwner sender
  let newSupply ← checkedAdd t.supply amount
  require (newSupply ≤ maxSupply) "Token supply is exhausted"
  let supply ← checkedAdd t.supply amount
  ar._mint { t with supply } to_ amount

def transferFrom (t : BingoToken) (sender from_ to_ : Address) (amount : Uint256) :
    Except Revert BingoToken := do
  let t ← ar._spendAllowance t from_ sender amount
  ar._transfer t from_ to_ amount

/-- The external functions over the given arithmetic; those that are not listed
    have no `unchecked` block. -/
def call (t : BingoToken) (sender : Address) : Call → Except Revert BingoToken
  | .mint to_ amount => ar.mint t sender to_ amount
  | .transfer to_ amount => ar._transfer t sender to_ amount
  | .decreaseAllowance spender subtractedValue =>
      ar.decreaseAllowance t sender spender subtractedValue
  | .transferFrom from_ to_ amount => ar.transferFrom t sender from_ to_ amount
  | c => t.call sender c

/-- With wrapping arithmetic they are the functions of the token. -/
theorem wrapping_call (t : BingoToken) (sender : Address) (c : Call) :
    wrapping.call t sender c = t.call sender c := by
  cases c <;> rfl

end Arith

/-- No `unchecked` operation of the call wraps: checked arithmetic gives the
    same result. -/
def NoWrap (t : BingoToken) (sender : Address) (c : Call) : Prop :=
  Arith.checked.call t sender c = t.call sender c

-- ============================================================================
-- Balanced books leave no room to wrap
-- ============================================================================

/-- A difference guarded by its own check does not wrap. -/
theorem require_checkedSub {α : Type} {a b : Uint256} {m : String}
    {f : Uint256 → Except Revert α} :
    (require (a ≥ b) m >>= fun _ => checkedSub a b >>= f)
      = (require (a ≥ b) m >>= fun _ => Except.ok (a - b) >>= f) := by
  by_cases h : b ≤ a
  · rw [checkedSub_ok (BitVec.le_def.mp h)]
  · have hrefuse : require (a ≥ b) m = .error (.error m) := if_neg h
    rw [hrefuse]
    rfl

theorem checked_spendAllowance (t : BingoToken) (owner spender : Address) (amount : Uint256) :
    Arith.checked._spendAllowance t owner spender amount
      = Arith.wrapping._spendAllowance t owner spender amount := by
  simp only [Arith._spendAllowance]
  split
  · exact require_checkedSub
  · rfl

theorem checked_decreaseAllowance (t : BingoToken) (sender spender : Address)
    (subtractedValue : Uint256) :
    Arith.checked.decreaseAllowance t sender spender subtractedValue
      = Arith.wrapping.decreaseAllowance t sender spender subtractedValue :=
  require_checkedSub

namespace Balanced

variable (h : t.Balanced)

include h

/-- The debit makes room for the credit, a self-transfer included. -/
theorem checked_transfer (from_ to_ : Address) (amount : Uint256) :
    Arith.checked._transfer t from_ to_ amount = Arith.wrapping._transfer t from_ to_ amount := by
  by_cases hfunds : amount ≤ t.balances from_
  · have hsub : checkedSub (t.balances from_) amount = .ok (t.balances from_ - amount) :=
      checkedSub_ok (BitVec.le_def.mp hfunds)
    have hadd : checkedAdd ((t.setBalance from_ (t.balances from_ - amount)).balances to_) amount
        = .ok ((t.setBalance from_ (t.balances from_ - amount)).balances to_ + amount) := by
      apply checkedAdd_ok
      have hdebit : Ledger.total (t.setBalance from_ (t.balances from_ - amount)).balances
          + amount.toNat = Ledger.total t.balances := Ledger.total_debit (BitVec.le_def.mp hfunds)
      have hle := Ledger.le_total (t.setBalance from_ (t.balances from_ - amount)).balances to_
      have hfits := h.total_fits
      omega
    simp only [Arith._transfer, Arith.checked, Arith.wrapping, hsub]
    show (require _ _ >>= fun _ => require _ _ >>= fun _ => require _ _ >>= fun _ =>
      checkedAdd _ _ >>= _) = _
    rw [hadd]
    rfl
  · have hrefuse : ∀ m, require (t.balances from_ ≥ amount) m = .error (.error m) :=
      fun _ => if_neg hfunds
    simp only [Arith._transfer, hrefuse]
    rfl

/-- A mint that both supply checks let through is credited without wrapping. -/
theorem checked_mint (sender to_ : Address) (amount : Uint256) :
    Arith.checked.mint t sender to_ amount = Arith.wrapping.mint t sender to_ amount := by
  by_cases hfits : t.totalSupply.toNat + amount.toNat < 2 ^ 256
  · have hadd : checkedAdd (t.balances to_) amount = .ok (t.balances to_ + amount) := by
      apply checkedAdd_ok
      have hle := Ledger.le_total t.balances to_
      rw [h.total, ← h.minted] at hle
      omega
    simp only [Arith.mint, Arith._mint, Arith.checked, Arith.wrapping, hadd]
  · have hrefuse : checkedAdd t.totalSupply amount = .error arithmeticPanic :=
      checkedAdd_error hfits
    simp only [Arith.mint, Arith._mint, hrefuse]
    rfl

/-- An allowance is spent from balanced books. -/
theorem spent (owner spender : Address) (amount : Uint256) :
    (t.spent owner spender amount).Balanced := by
  rw [BingoToken.spent]
  split
  · exact h
  · exact ⟨h.total, h.minted, h.cap⟩

theorem checked_transferFrom (sender from_ to_ : Address) (amount : Uint256) :
    Arith.checked.transferFrom t sender from_ to_ amount
      = Arith.wrapping.transferFrom t sender from_ to_ amount := by
  rw [Arith.transferFrom, Arith.transferFrom, checked_spendAllowance]
  cases hspend : Arith.wrapping._spendAllowance t from_ sender amount with
  | error e => rfl
  | ok t₁ =>
      have hcode : t._spendAllowance from_ sender amount = .ok t₁ := hspend
      obtain ⟨-, rfl⟩ := _spendAllowance_iff.mp hcode
      exact (h.spent from_ sender amount).checked_transfer from_ to_ amount

theorem noWrap (sender : Address) (c : Call) : NoWrap t sender c := by
  rw [NoWrap, ← Arith.wrapping_call]
  cases c with
  | mint to_ amount => exact h.checked_mint sender to_ amount
  | transfer to_ amount => exact h.checked_transfer sender to_ amount
  | decreaseAllowance spender subtractedValue =>
      exact checked_decreaseAllowance t sender spender subtractedValue
  | transferFrom from_ to_ amount =>
      exact h.checked_transferFrom sender from_ to_ amount
  | _ => rfl

end Balanced

-- ============================================================================
-- Every service of calls
-- ============================================================================

/-- Answer a call, of whichever sender. -/
def answer (t : BingoToken) (x : Address × Call) : Except Revert (BingoToken × Unit) :=
  match t.call x.1 x.2 with
  | .error e => .error e
  | .ok t' => .ok (t', ())

/-- The token after the calls, in their order.  A call that reverts changes
    nothing. -/
def after (t : BingoToken) (calls : List (Address × Call)) : BingoToken := (serve answer t calls).2

theorem answer_eq_ok {x : Address × Call} {r : Unit} (h : t.answer x = .ok (t', r)) :
    t.call x.1 x.2 = .ok t' := by
  rw [answer] at h
  split at h
  · cases h
  · rename_i hcall
    rw [hcall, (Prod.mk.inj (Except.ok.inj h)).1]

theorem after_balanced (h : t.Balanced) (calls : List (Address × Call)) :
    (t.after calls).Balanced :=
  serve_invariant h fun _ x _ _ hinv hx => hinv.call ((call_iff x.2).mp (answer_eq_ok hx))

/-- A call that is refused leaves the token as it was. -/
theorem after_refused {c : Call} {r : Revert} (h : t.call sender c = .error r) :
    t.after [(sender, c)] = t := by
  have hanswer : t.answer (sender, c) = .error r := by
    rw [answer]
    simp only [h]
  rw [after, serve_cons_error hanswer]
  rfl

/-- A mint beyond the cap is refused. -/
theorem mint_error (sender to_ : Address) {amount : Uint256}
    (hover : maxSupply.toNat < t.supply.toNat + amount.toNat) :
    ∃ r, t.call sender (.mint to_ amount) = .error r := by
  cases hcall : t.call sender (.mint to_ amount) with
  | error r => exact ⟨r, rfl⟩
  | ok t' =>
      cases (call_iff _).mp hcall with
      | mint howner hto hcap hfit => exact absurd hcap (Nat.not_le_of_lt hover)

/-- Both counters count the tokens that are held, they stay below the cap, no
    unchecked operation wraps, and a mint beyond the cap is refused. -/
structure SupplySound (t : BingoToken) : Prop where
  counters : t.supply = t.totalSupply
  holdings : ∑ a, (t.balances a).toNat = t.totalSupply.toNat
  capped : t.totalSupply.toNat ≤ 2 ^ 64 - 1
  no_wrap : ∀ sender c, NoWrap t sender c
  over_cap : ∀ sender to_ amount, 2 ^ 64 - 1 < t.supply.toNat + amount.toNat →
    (∃ r, t.call sender (.mint to_ amount) = .error r) ∧
      t.after [(sender, .mint to_ amount)] = t

/-- **Token supply.** -/
theorem token_supply (deployer : Address) (calls : List (Address × Call)) :
    ((deployed deployer).after calls).SupplySound := by
  have h := after_balanced (deployed_balanced deployer) calls
  refine ⟨h.minted.symm, ?_, ?_, h.noWrap, ?_⟩
  · rw [h.minted]
    exact h.total
  · rw [h.minted]
    exact Nat.le_sub_one_of_lt h.cap
  · intro sender to_ amount hover
    obtain ⟨r, hr⟩ := mint_error sender to_ hover
    exact ⟨⟨r, hr⟩, after_refused hr⟩

theorem token_supply_sample :
    ((deployed 1).after [(1, .mint 2 (2 ^ 64 - 2)), (2, .transfer 2 7)]).supply = 2 ^ 64 - 2 ∧
    ((deployed 1).after [(1, .mint 2 (2 ^ 64 - 2)), (2, .transfer 2 7)]).after [(1, .mint 3 2)]
      = (deployed 1).after [(1, .mint 2 (2 ^ 64 - 2)), (2, .transfer 2 7)] :=
  ⟨by decide +kernel,
    ((token_supply 1 [(1, .mint 2 (2 ^ 64 - 2)), (2, .transfer 2 7)]).over_cap 1 3 2
      (by decide +kernel)).2⟩

end BingoToken
end BitmaskBingo
