/-
  BitmaskBingo.Bank

  `BingoToken` as the token of the game.  `BingoToken.Effect` says once what a
  successful call of the token does; `BingoToken.Sound` is the invariant of
  the ledger: the holdings add up to the supply, the supply stays below the
  cap of `2 ^ 64 - 1`, and the game contract has granted no allowance, as long
  as it sends no call of its own.
-/

import BitmaskBingo.BingoToken
import BitmaskBingo.World

namespace BitmaskBingo

open Lib

attribute [ext] BingoToken

namespace BingoToken

variable {t t' : BingoToken} {sender : Address}

-- ============================================================================
-- The internal functions
-- ============================================================================

theorem setAllowance_allowances (t : BingoToken) (o s o' s' : Address) (x : Uint256) :
    (t.setAllowance o s x).allowances o' s'
      = if o' = o ∧ s' = s then x else t.allowances o' s' := by
  simp only [setAllowance, Function.update_apply]
  by_cases ho : o' = o
  · subst ho
    by_cases hs : s' = s <;> simp [hs]
  · simp [ho]

theorem _transfer_iff {from_ to_ : Address} {amount : Uint256} :
    t._transfer from_ to_ amount = .ok t' ↔
      from_ ≠ 0 ∧ to_ ≠ 0 ∧ amount ≤ t.balances from_ ∧
        { t with balances := Ledger.transfer t.balances from_ to_ amount } = t' := by
  simp only [_transfer, require_bind, pure, Except.pure, Except.ok.injEq]
  rfl

theorem _mint_iff {account : Address} {amount : Uint256} :
    t._mint account amount = .ok t' ↔
      account ≠ 0 ∧ t.totalSupply.toNat + amount.toNat < 2 ^ 256 ∧
        { t with
          totalSupply := t.totalSupply + amount
          balances := Ledger.credit t.balances account amount } = t' := by
  simp only [_mint, require_bind, checkedAdd_bind, pure, Except.pure, Except.ok.injEq]
  rfl

theorem _approve_iff {owner spender : Address} {amount : Uint256} :
    t._approve owner spender amount = .ok t' ↔
      owner ≠ 0 ∧ spender ≠ 0 ∧ t.setAllowance owner spender amount = t' := by
  simp only [_approve, require_bind, pure, Except.pure, Except.ok.injEq]

/-- The token after an allowance was spent; an unlimited one stays. -/
def spent (t : BingoToken) (owner spender : Address) (amount : Uint256) : BingoToken :=
  if t.allowances owner spender = maxUint256 then t
  else t.setAllowance owner spender (t.allowances owner spender - amount)

@[simp] theorem spent_balances (t : BingoToken) (o s : Address) (x : Uint256) :
    (t.spent o s x).balances = t.balances := by
  rw [spent]
  split <;> rfl

@[simp] theorem spent_totalSupply (t : BingoToken) (o s : Address) (x : Uint256) :
    (t.spent o s x).totalSupply = t.totalSupply := by
  rw [spent]
  split <;> rfl

@[simp] theorem spent_owner (t : BingoToken) (o s : Address) (x : Uint256) :
    (t.spent o s x).owner = t.owner := by
  rw [spent]
  split <;> rfl

@[simp] theorem spent_supply (t : BingoToken) (o s : Address) (x : Uint256) :
    (t.spent o s x).supply = t.supply := by
  rw [spent]
  split <;> rfl

/-- An allowance is spent where it was granted, unless it is unlimited. -/
theorem spent_allowances (t : BingoToken) (o s : Address) (x : Uint256) (o' s' : Address) :
    (t.spent o s x).allowances o' s'
      = if (o' = o ∧ s' = s) ∧ t.allowances o s ≠ maxUint256 then t.allowances o s - x
        else t.allowances o' s' := by
  rw [spent]
  by_cases hmax : t.allowances o s = maxUint256
  · rw [if_pos hmax, if_neg fun hc => hc.2 hmax]
  · rw [if_neg hmax, setAllowance_allowances]
    simp only [ne_eq, hmax, not_false_eq_true, and_true]

/-- Whether an allowance covers an amount. -/
def Covers (t : BingoToken) (owner spender : Address) (amount : Uint256) : Prop :=
  t.allowances owner spender = maxUint256 ∨
    (amount ≤ t.allowances owner spender ∧ owner ≠ 0 ∧ spender ≠ 0)

theorem _spendAllowance_iff {owner spender : Address} {amount : Uint256} :
    t._spendAllowance owner spender amount = .ok t' ↔
      t.Covers owner spender amount ∧ t.spent owner spender amount = t' := by
  by_cases hmax : t.allowances owner spender = maxUint256
  · simp [_spendAllowance, allowance, hmax, Covers, spent, pure, Except.pure]
  · have hmax' : t.allowance owner spender ≠ maxUint256 := hmax
    rw [_spendAllowance, if_pos hmax', Covers, spent, if_neg hmax]
    refine ⟨?_, ?_⟩
    · intro h
      obtain ⟨hle, h⟩ := require_bind.mp h
      obtain ⟨howner, hspender, rfl⟩ := _approve_iff.mp h
      exact ⟨Or.inr ⟨hle, howner, hspender⟩, rfl⟩
    · rintro ⟨hcovers, rfl⟩
      obtain ⟨hle, howner, hspender⟩ := hcovers.resolve_left hmax
      exact require_bind.mpr ⟨hle, _approve_iff.mpr ⟨howner, hspender, rfl⟩⟩

-- ============================================================================
-- The external functions
-- ============================================================================

/-- What a successful call leaves. -/
inductive Effect (t : BingoToken) (sender : Address) : Call → BingoToken → Prop where
  | mint {to_ : Address} {amount : Uint256}
      (howner : t.owner = sender) (hto : to_ ≠ 0)
      (hcap : t.supply.toNat + amount.toNat ≤ maxSupply.toNat)
      (hfit : t.totalSupply.toNat + amount.toNat < 2 ^ 256) :
      Effect t sender (.mint to_ amount)
        { t with
          supply := t.supply + amount
          totalSupply := t.totalSupply + amount
          balances := Ledger.credit t.balances to_ amount }
  | transfer {to_ : Address} {amount : Uint256}
      (hfrom : sender ≠ 0) (hto : to_ ≠ 0) (hfunds : amount ≤ t.balances sender) :
      Effect t sender (.transfer to_ amount)
        { t with balances := Ledger.transfer t.balances sender to_ amount }
  | approve {spender : Address} {amount : Uint256}
      (howner : sender ≠ 0) (hspender : spender ≠ 0) :
      Effect t sender (.approve spender amount) (t.setAllowance sender spender amount)
  | increaseAllowance {spender : Address} {addedValue : Uint256}
      (howner : sender ≠ 0) (hspender : spender ≠ 0)
      (hfit : (t.allowances sender spender).toNat + addedValue.toNat < 2 ^ 256) :
      Effect t sender (.increaseAllowance spender addedValue)
        (t.setAllowance sender spender (t.allowances sender spender + addedValue))
  | decreaseAllowance {spender : Address} {subtractedValue : Uint256}
      (howner : sender ≠ 0) (hspender : spender ≠ 0)
      (hle : subtractedValue ≤ t.allowances sender spender) :
      Effect t sender (.decreaseAllowance spender subtractedValue)
        (t.setAllowance sender spender (t.allowances sender spender - subtractedValue))
  | transferFrom {from_ to_ : Address} {amount : Uint256}
      (hcovers : t.Covers from_ sender amount)
      (hfrom : from_ ≠ 0) (hto : to_ ≠ 0) (hfunds : amount ≤ t.balances from_) :
      Effect t sender (.transferFrom from_ to_ amount)
        { t.spent from_ sender amount with
          balances := Ledger.transfer t.balances from_ to_ amount }
  | transferOwnership {newOwner : Address} (howner : t.owner = sender) (hnew : newOwner ≠ 0) :
      Effect t sender (.transferOwnership newOwner) { t with owner := newOwner }
  | renounceOwnership (howner : t.owner = sender) :
      Effect t sender .renounceOwnership { t with owner := 0 }

/-- `transferFrom` spends the allowance and grants none. -/
theorem Effect.transferFrom_allowances {from_ to_ : Address} {amount : Uint256}
    (he : Effect t sender (.transferFrom from_ to_ amount) t') :
    t'.allowances = (t.spent from_ sender amount).allowances := by
  cases he with
  | transferFrom => rfl

/-- `transferFrom` is covered by the allowance. -/
theorem Effect.covers {from_ to_ : Address} {amount : Uint256}
    (he : Effect t sender (.transferFrom from_ to_ amount) t') : t.Covers from_ sender amount := by
  cases he with
  | transferFrom hcovers => exact hcovers

/-- `transferFrom` moves tokens that are there. -/
theorem Effect.funds {from_ to_ : Address} {amount : Uint256}
    (he : Effect t sender (.transferFrom from_ to_ amount) t') : amount ≤ t.balances from_ := by
  cases he with
  | transferFrom hcovers hfrom hto hfunds => exact hfunds

theorem mint_iff {to_ : Address} {amount : Uint256} :
    t.mint sender to_ amount = .ok t' ↔ Effect t sender (.mint to_ amount) t' := by
  simp only [mint, onlyOwner, require_bind, checkedAdd_bind, _mint_iff]
  refine ⟨?_, ?_⟩
  · rintro ⟨howner, hfit, hcap, -, hto, hfit', rfl⟩
    rw [BitVec.le_def, BitVec.toNat_add, Nat.mod_eq_of_lt hfit] at hcap
    exact .mint howner hto hcap hfit'
  · intro h
    cases h with
    | mint howner hto hcap hfit =>
        have hsmall : t.supply.toNat + amount.toNat < 2 ^ 256 :=
          Nat.lt_of_le_of_lt hcap (by decide)
        refine ⟨howner, hsmall, ?_, hsmall, hto, hfit, rfl⟩
        rw [BitVec.le_def, BitVec.toNat_add, Nat.mod_eq_of_lt hsmall]
        exact hcap

theorem transferFrom_iff {from_ to_ : Address} {amount : Uint256} :
    t.transferFrom sender from_ to_ amount = .ok t' ↔
      Effect t sender (.transferFrom from_ to_ amount) t' := by
  rw [transferFrom, bind_eq_ok]
  simp only [_spendAllowance_iff, _transfer_iff]
  refine ⟨?_, ?_⟩
  · rintro ⟨_, ⟨hcovers, rfl⟩, hfrom, hto, hfunds, rfl⟩
    rw [spent_balances] at hfunds ⊢
    exact .transferFrom hcovers hfrom hto hfunds
  · intro h
    cases h with
    | transferFrom hcovers hfrom hto hfunds =>
        exact ⟨_, ⟨hcovers, rfl⟩, hfrom, hto, by rwa [spent_balances], by rw [spent_balances]⟩

/-- A call of the token succeeds exactly with its effect. -/
theorem call_iff (c : Call) : t.call sender c = .ok t' ↔ Effect t sender c t' := by
  cases c with
  | mint to_ amount => exact mint_iff
  | transferFrom from_ to_ amount => exact transferFrom_iff
  | transfer to_ amount =>
      show t._transfer sender to_ amount = .ok t' ↔ _
      rw [_transfer_iff]
      refine ⟨?_, ?_⟩
      · rintro ⟨hfrom, hto, hfunds, rfl⟩
        exact .transfer hfrom hto hfunds
      · intro h
        cases h with
        | transfer hfrom hto hfunds => exact ⟨hfrom, hto, hfunds, rfl⟩
  | approve spender amount =>
      show t._approve sender spender amount = .ok t' ↔ _
      rw [_approve_iff]
      refine ⟨?_, ?_⟩
      · rintro ⟨howner, hspender, rfl⟩
        exact .approve howner hspender
      · intro h
        cases h with
        | approve howner hspender => exact ⟨howner, hspender, rfl⟩
  | increaseAllowance spender addedValue =>
      show t.increaseAllowance sender spender addedValue = .ok t' ↔ _
      simp only [increaseAllowance, allowance, checkedAdd_bind, _approve_iff]
      refine ⟨?_, ?_⟩
      · rintro ⟨hfit, howner, hspender, rfl⟩
        exact .increaseAllowance howner hspender hfit
      · intro h
        cases h with
        | increaseAllowance howner hspender hfit => exact ⟨hfit, howner, hspender, rfl⟩
  | decreaseAllowance spender subtractedValue =>
      show t.decreaseAllowance sender spender subtractedValue = .ok t' ↔ _
      refine ⟨?_, ?_⟩
      · intro h
        obtain ⟨hle, h⟩ := require_bind.mp h
        obtain ⟨howner, hspender, rfl⟩ := _approve_iff.mp h
        exact .decreaseAllowance howner hspender hle
      · intro h
        cases h with
        | decreaseAllowance howner hspender hle =>
            exact require_bind.mpr ⟨hle, _approve_iff.mpr ⟨howner, hspender, rfl⟩⟩
  | transferOwnership newOwner =>
      show t.transferOwnership sender newOwner = .ok t' ↔ _
      simp only [transferOwnership, onlyOwner, require_bind, pure, Except.pure, Except.ok.injEq]
      refine ⟨?_, ?_⟩
      · rintro ⟨howner, hnew, rfl⟩
        exact .transferOwnership howner hnew
      · intro h
        cases h with
        | transferOwnership howner hnew => exact ⟨howner, hnew, rfl⟩
  | renounceOwnership =>
      show t.renounceOwnership sender = .ok t' ↔ _
      simp only [renounceOwnership, onlyOwner, require_bind, pure, Except.pure, Except.ok.injEq]
      refine ⟨?_, ?_⟩
      · rintro ⟨howner, rfl⟩
        exact .renounceOwnership howner
      · intro h
        cases h with
        | renounceOwnership howner => exact ⟨howner, rfl⟩

-- ============================================================================
-- The ledger of the token
-- ============================================================================

/-- The books of the token balance: the holdings add up to both counters, and
    the supply stays below the cap. -/
structure Balanced (t : BingoToken) : Prop where
  total : Ledger.total t.balances = t.supply.toNat
  minted : t.totalSupply = t.supply
  cap : t.supply.toNat < 2 ^ 64

theorem deployed_balanced (deployer : Address) : (deployed deployer).Balanced where
  total := Ledger.total_zero
  minted := rfl
  cap := Nat.two_pow_pos 64

namespace Balanced

variable (h : t.Balanced)

include h

theorem total_lt : Ledger.total t.balances < 2 ^ 64 := h.total ▸ h.cap

theorem total_fits : Ledger.total t.balances < 2 ^ 256 := Nat.lt_trans h.total_lt (by decide)

/-- What moving held tokens does to each account. -/
theorem transfer_balances {from_ : Address} (to_ : Address) {amount : Uint256}
    (ha : amount ≤ t.balances from_) (a : Address) :
    (Ledger.transfer t.balances from_ to_ amount a).toNat + (if a = from_ then amount.toNat else 0)
      = (t.balances a).toNat + if a = to_ then amount.toNat else 0 :=
  Ledger.toNat_transfer (BitVec.le_def.mp ha) h.total_fits a

/-- A mint below the cap fits into each account. -/
theorem mint_fits {amount : Uint256} (hcap : t.supply.toNat + amount.toNat ≤ maxSupply.toNat) :
    Ledger.total t.balances + amount.toNat < 2 ^ 256 := by
  rw [h.total]
  exact Nat.lt_of_le_of_lt hcap (by decide)

/-- A transfer of held tokens keeps the books balanced. -/
theorem of_transfer {u : BingoToken} {from_ to_ : Address} {amount : Uint256}
    (ha : amount ≤ t.balances from_) (htotal : u.totalSupply = t.totalSupply)
    (hsupply : u.supply = t.supply) :
    Balanced { u with balances := Ledger.transfer t.balances from_ to_ amount } where
  total := by
    show Ledger.total (Ledger.transfer t.balances from_ to_ amount) = u.supply.toNat
    rw [Ledger.total_transfer (BitVec.le_def.mp ha) h.total_fits, hsupply, h.total]
  minted := by
    show u.totalSupply = u.supply
    rw [htotal, hsupply, h.minted]
  cap := by
    show u.supply.toNat < 2 ^ 64
    rw [hsupply]
    exact h.cap

/-- A mint below the cap credits what both counters grow by. -/
theorem of_mint {to_ : Address} {amount : Uint256}
    (hcap : t.supply.toNat + amount.toNat ≤ maxSupply.toNat) :
    Balanced { t with
      supply := t.supply + amount
      totalSupply := t.totalSupply + amount
      balances := Ledger.credit t.balances to_ amount } := by
  have hsum : t.supply.toNat + amount.toNat < 2 ^ 64 :=
    Nat.lt_succ_of_le hcap
  have hadd : (t.supply + amount).toNat = t.supply.toNat + amount.toNat := by
    rw [BitVec.toNat_add]
    exact Nat.mod_eq_of_lt (Nat.lt_trans hsum (by decide))
  refine ⟨?_, ?_, ?_⟩
  · show Ledger.total (Ledger.credit t.balances to_ amount) = (t.supply + amount).toNat
    rw [Ledger.total_credit (h.mint_fits hcap), h.total, hadd]
  · show t.totalSupply + amount = t.supply + amount
    rw [h.minted]
  · show (t.supply + amount).toNat < 2 ^ 64
    rw [hadd]
    exact hsum

/-- Every call keeps the books balanced. -/
theorem call {c : Call} (he : Effect t sender c t') : t'.Balanced := by
  cases he with
  | mint howner hto hcap hfit => exact h.of_mint hcap
  | transfer hfrom hto hfunds => exact h.of_transfer hfunds rfl rfl
  | transferFrom hcovers hfrom hto hfunds =>
      exact h.of_transfer hfunds (spent_totalSupply ..) (spent_supply ..)
  | _ => exact ⟨h.total, h.minted, h.cap⟩

/-- What `transferFrom` does to each account. -/
theorem transferFrom_balances {from_ to_ : Address} {amount : Uint256}
    (he : Effect t sender (.transferFrom from_ to_ amount) t') (a : Address) :
    (t'.balances a).toNat + (if a = from_ then amount.toNat else 0)
      = (t.balances a).toNat + if a = to_ then amount.toNat else 0 := by
  cases he with
  | transferFrom hcovers hfrom hto hfunds =>
      exact h.transfer_balances _ hfunds a

end Balanced

/-- The invariant of the token on which the game contract at `this` relies. -/
structure Sound (this : Address) (t : BingoToken) : Prop extends t.Balanced where
  no_allowance : ∀ spender, t.allowances this spender = 0

theorem deployed_sound (this deployer : Address) : (deployed deployer).Sound this :=
  ⟨deployed_balanced deployer, fun _ => rfl⟩

namespace Sound

variable {this : Address} (h : t.Sound this)

include h

/-- No account holds more than a `uint64`. -/
theorem balance_lt (a : Address) : (t.balances a).toNat < 2 ^ 64 :=
  Nat.lt_of_le_of_lt (Ledger.le_total _ a) h.total_lt

/-- An amount that somebody holds is below `2 ^ 64`. -/
theorem funds_lt {a : Address} {amount : Uint256} (ha : amount ≤ t.balances a) :
    amount.toNat < 2 ^ 64 :=
  Nat.lt_of_le_of_lt (BitVec.le_def.mp ha) (h.balance_lt a)

/-- An allowance set by somebody else is none of the game. -/
private theorem no_allowance_of {owner spender : Address} {amount : Uint256}
    (howner : owner ≠ this) (s : Address) :
    (t.setAllowance owner spender amount).allowances this s = 0 := by
  rw [setAllowance_allowances, if_neg fun hc => howner hc.1.symm]
  exact h.no_allowance s

/-- What the game contract has not granted can only cover nothing. -/
theorem covers_zero {spender : Address} {amount : Uint256} (hc : t.Covers this spender amount) :
    amount = 0 := by
  rw [Covers, h.no_allowance] at hc
  rcases hc with hmax | ⟨hle, -⟩
  · exact absurd hmax (by decide)
  · exact BitVec.eq_of_toNat_eq (Nat.le_zero.mp (BitVec.le_def.mp hle))

/-- Spending an allowance never grants one in the name of the game. -/
theorem spent_no_allowance {from_ spender : Address} {amount : Uint256}
    (hc : t.Covers from_ spender amount) :
    (t.spent from_ spender amount).allowances this = fun _ => 0 := by
  funext s
  rw [spent_allowances]
  split
  · rename_i hspent
    obtain ⟨⟨rfl, rfl⟩, -⟩ := hspent
    rw [h.covers_zero hc, h.no_allowance]
    rfl
  · exact h.no_allowance s

/-- `transferFrom` keeps the ledger sound, whoever sends it. -/
theorem transferFrom {from_ to_ : Address} {amount : Uint256}
    (he : Effect t sender (.transferFrom from_ to_ amount) t') : t'.Sound this := by
  have hb := h.toBalanced.call he
  cases he with
  | transferFrom hcovers hfrom hto hfunds =>
      exact ⟨hb, congrFun (h.spent_no_allowance hcovers)⟩

/-- Every call sent by somebody else keeps the ledger sound. -/
theorem call {c : Call} (hs : sender ≠ this) (he : Effect t sender c t') : t'.Sound this := by
  have hb := h.toBalanced.call he
  cases he with
  | approve => exact ⟨hb, h.no_allowance_of hs⟩
  | increaseAllowance => exact ⟨hb, h.no_allowance_of hs⟩
  | decreaseAllowance => exact ⟨hb, h.no_allowance_of hs⟩
  | transferFrom hcovers hfrom hto hfunds =>
      exact h.transferFrom (.transferFrom hcovers hfrom hto hfunds)
  | _ => exact ⟨hb, h.no_allowance⟩

end Sound

/-- The tokens that a call of the token itself brings to `this`. -/
def received (this sender : Address) : Call → Nat
  | .mint to_ amount => if to_ = this then amount.toNat else 0
  | .transfer to_ amount => if to_ = this ∧ sender ≠ this then amount.toNat else 0
  | .transferFrom from_ to_ amount => if to_ = this ∧ from_ ≠ this then amount.toNat else 0
  | _ => 0

/-- A call sent by somebody else changes the holding of `this` by what it
    brings there: nothing is ever taken. -/
theorem Sound.balance_call {this : Address} (h : t.Sound this) {c : Call} (hs : sender ≠ this)
    (he : Effect t sender c t') :
    (t'.balances this).toNat = (t.balances this).toNat + received this sender c := by
  cases he with
  | @mint to_ amount howner hto hcap hfit =>
      show (Ledger.credit t.balances to_ amount this).toNat = _
      rw [Ledger.toNat_credit (h.mint_fits hcap)]
      simp only [received, eq_comm]
  | @transfer to_ amount hfrom hto hfunds =>
      have hmove := h.transfer_balances to_ hfunds this
      rw [if_neg (Ne.symm hs)] at hmove
      simpa [received, hs, eq_comm] using hmove
  | @transferFrom from_ to_ amount hcovers hfrom hto hfunds =>
      have hmove := h.transferFrom_balances (.transferFrom hcovers hfrom hto hfunds) this
      by_cases hown : from_ = this
      · subst hown
        obtain rfl := h.covers_zero hcovers
        simpa [received] using hmove
      · rw [if_neg (Ne.symm hown)] at hmove
        simpa [received, hown, eq_comm] using hmove
  | _ => rfl

end BingoToken

-- ============================================================================
-- The token of the game
-- ============================================================================

/-- `BingoToken` as the token of the game. -/
abbrev bingoToken : Token where
  State := BingoToken
  Op := BingoToken.Call
  exec op msg t := t.call msg.sender op
  ofIERC20
    | .transferFrom from_ to_ amount => .transferFrom from_ to_ amount
    | .approve spender amount => .approve spender amount

section Charges

variable {d : Deployment} {msg : Msg} {t t' : BingoToken}

theorem callee_transferFrom_iff {from_ to_ : Address} {amount : Uint256} :
    bingoToken.callee d msg (.transferFrom from_ to_ amount) t = .ok t' ↔
      BingoToken.Effect t d.this (.transferFrom from_ to_ amount) t' :=
  BingoToken.call_iff (t := t) (.transferFrom from_ to_ amount)

theorem callee_approve_iff {spender : Address} {amount : Uint256} :
    bingoToken.callee d msg (.approve spender amount) t = .ok t' ↔
      BingoToken.Effect t d.this (.approve spender amount) t' :=
  BingoToken.call_iff (t := t) (.approve spender amount)

/-- The calls with which `claimPrize` pays. -/
def payCalls (d : Deployment) (to_ : Address) (prize : Uint256) : List IERC20 :=
  [.approve d.this prize, .transferFrom d.this to_ prize]

/-- The token after the prize was paid. -/
def paid (d : Deployment) (to_ : Address) (prize : Uint256) (t : BingoToken) : BingoToken :=
  { t with balances := Ledger.transfer t.balances d.this to_ prize }

/-- Paying succeeds exactly when the prize is there, and it uses up the
    allowance it grants. -/
theorem pay_iff {to_ : Address} {prize : Uint256} (h : t.Sound d.this)
    (hprize : prize.toNat < 2 ^ 64) :
    runCalls (bingoToken.callee d msg) (payCalls d to_ prize) t = .ok t' ↔
      to_ ≠ 0 ∧ prize ≤ t.balances d.this ∧ paid d to_ prize t = t' := by
  have hself : (t.setAllowance d.this d.this prize).allowances d.this d.this = prize := by
    rw [BingoToken.setAllowance_allowances, if_pos ⟨rfl, rfl⟩]
  have hmax : prize ≠ BingoToken.maxUint256 := by
    rintro rfl
    exact absurd hprize (by decide)
  have hspent : (t.setAllowance d.this d.this prize).spent d.this d.this prize = t := by
    rw [BingoToken.spent, hself, if_neg hmax]
    obtain ⟨b, al, ts, o, sup⟩ := t
    simp only [BingoToken.setAllowance, BingoToken.mk.injEq, true_and, and_true]
    funext x y
    have hzero := h.no_allowance y
    simp only [Function.update_apply] at hzero ⊢
    by_cases hx : x = d.this
    · subst hx
      by_cases hy : y = d.this
      · subst hy
        simpa using hzero.symm
      · simp [hy]
    · simp [hx]
  simp only [payCalls, runCalls_cons_eq_ok, runCalls_nil, Except.ok.injEq]
  refine ⟨?_, ?_⟩
  · rintro ⟨t₁, happrove, t₂, hmove, rfl⟩
    obtain ⟨⟩ := callee_approve_iff.mp happrove
    cases callee_transferFrom_iff.mp hmove with
    | transferFrom hcovers hfrom hto hfunds =>
        rw [hspent]
        exact ⟨hto, hfunds, rfl⟩
  · rintro ⟨hto, hfunds, rfl⟩
    have hcovers : (t.setAllowance d.this d.this prize).Covers d.this d.this prize :=
      Or.inr ⟨by rw [hself]; exact BitVec.le_refl _, d.this_ne_zero, d.this_ne_zero⟩
    have hmove := BingoToken.Effect.transferFrom hcovers d.this_ne_zero hto hfunds
    rw [hspent] at hmove
    exact ⟨_, callee_approve_iff.mpr (.approve d.this_ne_zero d.this_ne_zero), _,
      callee_transferFrom_iff.mpr hmove, rfl⟩

/-- Paying moves the prize from the game to the winner. -/
theorem paid_balances (to_ : Address) {prize : Uint256} (h : t.Sound d.this)
    (hfunds : prize ≤ t.balances d.this) (a : Address) :
    ((paid d to_ prize t).balances a).toNat + (if a = d.this then prize.toNat else 0)
      = (t.balances a).toNat + if a = to_ then prize.toNat else 0 := by
  exact h.transfer_balances _ hfunds a

theorem paid_sound {to_ : Address} {prize : Uint256} (h : t.Sound d.this)
    (hfunds : prize ≤ t.balances d.this) : (paid d to_ prize t).Sound d.this := by
  have hb : (paid d to_ prize t).Balanced := h.of_transfer hfunds rfl rfl
  exact ⟨hb, h.no_allowance⟩

end Charges

-- ============================================================================
-- A sample game
-- ============================================================================

namespace Sample

/-- A hash that adds the bytes up: entropy `n` deals tiles `n`, `n + 1`, ... and
    draws `n`. -/
def deployment : Deployment where
  keccak256 bytes := bytes.foldl (fun h b => h + uint256 b) 0
  this := 0xb1
  owner := 0xa0
  this_ne_zero := by decide

/-- A message in a block at this time, after a block with this hash. -/
def msg (sender : Address) (time hash : Nat) : Msg where
  sender := sender
  block := { number := 7, timestamp := BitVec.ofNat 256 time, blockhash _ := BitVec.ofNat 256 hash }

/-- The message with which player 17 claims. -/
def claim : Msg := msg 17 6300 17

/-- The game that player 17 creates with entropy 1. -/
def gameId : Bytes32 := 18

/-- Two players get their tokens, create and join, and the first one plays the
    middle row: 11, 12, centre, 14, 15. -/
def txs : List (Tx bingoToken) :=
  [ ⟨msg 0xa1 900 1, .token (.mint 17 5000)⟩,
    ⟨msg 0xa1 900 1, .token (.mint 34 5000)⟩,
    ⟨msg 17 950 1, .token (.approve 0xb1 5000)⟩,
    ⟨msg 34 950 1, .token (.approve 0xb1 5000)⟩,
    ⟨msg 17 1000 1, .game .createGame⟩,
    ⟨msg 34 2000 2, .game (.joinGame gameId)⟩,
    ⟨msg 34 5000 11, .game (.drawNumber gameId)⟩,
    ⟨msg 17 5001 12, .game (.markNumberOnCard gameId)⟩,
    ⟨msg 17 5400 12, .game (.drawNumber gameId)⟩,
    ⟨msg 17 5401 13, .game (.markNumberOnCard gameId)⟩,
    ⟨msg 17 5800 14, .game (.drawNumber gameId)⟩,
    ⟨msg 17 5801 15, .game (.markNumberOnCard gameId)⟩,
    ⟨msg 17 6200 15, .game (.drawNumber gameId)⟩,
    ⟨msg 17 6201 16, .game (.markNumberOnCard gameId)⟩,
    ⟨claim, .game (.claimPrize gameId)⟩ ]

def genesis : World bingoToken := World.initial (BingoToken.deployed 0xa1)

/-- The history and the world after the first `n` transactions. -/
def played (n : Nat) : List (Step bingoToken) × World bingoToken :=
  genesis.play deployment (txs.take n)

theorem played_run (n : Nat) : WorldRun deployment genesis (played n).1 (played n).2 :=
  World.play_run ..

end Sample

end BitmaskBingo
