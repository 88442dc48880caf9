/-
  BitmaskBingo.Custody

  The tokens of one address over a stretch of game calls.  Whatever everybody
  else does, a player's holding moves with the player's own entries and claims
  only, the allowance to the game is spent by the entries only, and the game
  itself leaves no allowance behind, not even to itself.
-/

import BitmaskBingo.Solvency

namespace BitmaskBingo

open Lib BingoToken

variable {d : Deployment} {deployer : Address} {l l₀ : List (Step bingoToken)}
  {w w' w₀ : World bingoToken} {e : Step bingoToken} {p : Address} {g : Bytes32}

-- ============================================================================
-- What an address pays and wins
-- ============================================================================

/-- The fee the step charges `p`. -/
def Step.feeOf (p : Address) (e : Step bingoToken) : Nat :=
  if e.sender = p ∧ e.deals then e.fee.toNat else 0

/-- The pot the step pays `p`. -/
def Step.prizeOf (p : Address) (e : Step bingoToken) : Nat := if e.sender = p then e.pot else 0

/-- The fees that `p` paid for its own entries. -/
def feesPaid (p : Address) (l : List (Step bingoToken)) : Nat := (l.map (Step.feeOf p)).sum

/-- The pots of the games that `p` claimed. -/
def prizesWon (p : Address) (l : List (Step bingoToken)) : Nat := (l.map (Step.prizeOf p)).sum

theorem feesPaid_concat : feesPaid p (l ++ [e]) = feesPaid p l + e.feeOf p := by simp [feesPaid]

theorem prizesWon_concat : prizesWon p (l ++ [e]) = prizesWon p l + e.prizeOf p := by
  simp [prizesWon]

theorem Step.feeOf_of_not_deals (hd : ¬ e.deals) : e.feeOf p = 0 := if_neg fun h => hd h.2

theorem Step.prizeOf_of_not_claims (hp : ∀ g, ¬ e.claims g) : e.prizeOf p = 0 := by
  rw [Step.prizeOf, Step.pot_of_not_claims hp, ite_self]

/-- An allowance of `a` became `a'` by spending `n`; an unlimited one stays. -/
def SpentBy (a a' : Uint256) (n : Nat) : Prop :=
  (a = maxUint256 → a' = maxUint256) ∧ (a ≠ maxUint256 → a'.toNat + n = a.toNat)

theorem SpentBy.refl (a : Uint256) : SpentBy a a 0 := ⟨id, fun _ => rfl⟩

theorem SpentBy.trans {a b c : Uint256} {m n : Nat} (h : SpentBy a b m) (h' : SpentBy b c n) :
    SpentBy a c (m + n) := by
  refine ⟨fun hmax => h'.1 (h.1 hmax), fun hne => ?_⟩
  have hb := h.2 hne
  -- what was spent from less than the maximum is less than the maximum
  have hbne : b ≠ maxUint256 := by
    intro hmax
    have hlt := a.isLt
    have hmaxNat : b.toNat = 2 ^ 256 - 1 := by rw [hmax]; decide
    exact hne (BitVec.eq_of_toNat_eq (by rw [← hmax]; omega))
  have hc := h'.2 hbne
  omega

/-- Spending an allowance that covers the amount. -/
theorem spent_spentBy {t : BingoToken} {owner spender : Address} {amount : Uint256}
    (h : t.Covers owner spender amount) :
    SpentBy (t.allowances owner spender) ((t.spent owner spender amount).allowances owner spender)
      amount.toNat := by
  rw [spent_allowances]
  refine ⟨fun hmax => ?_, fun hne => ?_⟩
  · rw [if_neg fun hc => hc.2 hmax]
    exact hmax
  · have hle : amount ≤ t.allowances owner spender := (h.resolve_left hne).1
    rw [if_pos ⟨⟨rfl, rfl⟩, hne⟩, BitVec.toNat_sub_of_le hle]
    exact Nat.sub_add_cancel (BitVec.le_def.mp hle)

-- ============================================================================
-- One call
-- ============================================================================

/-- A call of the game moves the tokens of `p` by its own fee and prize. -/
theorem Steps.balance_of (h : Steps d w e w') (hsound : w.token.Sound d.this)
    (hgame : e.call? ≠ none) (hp : p ≠ d.this) :
    (w'.token.balances p).toNat + e.feeOf p = (w.token.balances p).toNat + e.prizeOf p := by
  have hchange := h.token_change hsound hgame
  generalize w'.token = t' at hchange
  cases hchange with
  | charged he heff =>
      have hmove := hsound.transferFrom_balances heff p
      rw [if_neg hp] at hmove
      rw [Step.prizeOf_of_not_claims he.not_claims, Step.feeOf]
      simpa [he, eq_comm] using hmove
  | won he hfunds =>
      have hmove := paid_balances e.sender hsound hfunds p
      rw [if_neg hp, uint256_toNat_uint64] at hmove
      have hd : ¬ e.deals := fun hd => hd.not_claims _ he
      rw [Step.feeOf_of_not_deals hd, Step.prizeOf, Step.pot_of_claims he, h.1]
      simpa [eq_comm] using hmove
  | same hd hp' => rw [Step.feeOf_of_not_deals hd, Step.prizeOf_of_not_claims hp']

/-- A call of the game spends the allowance of `p` to the game on the fee it
    charges `p`. -/
theorem Steps.allowance_of (h : Steps d w e w') (hsound : w.token.Sound d.this)
    (hgame : e.call? ≠ none) (p : Address) :
    SpentBy (w.token.allowances p d.this) (w'.token.allowances p d.this) (e.feeOf p) := by
  have hchange := h.token_change hsound hgame
  generalize w'.token = t' at hchange
  cases hchange with
  | charged he heff =>
      rw [heff.transferFrom_allowances]
      by_cases hs : e.sender = p
      · subst hs
        have hfee : e.feeOf e.sender = e.fee.toNat := if_pos ⟨rfl, he⟩
        rw [hfee]
        exact spent_spentBy heff.covers
      · rw [spent_allowances, if_neg fun hc => hs hc.1.1.symm, Step.feeOf, if_neg fun hc => hs hc.1]
        exact .refl _
  | won he hfunds =>
      rw [Step.feeOf_of_not_deals fun hd => hd.not_claims _ he]
      exact .refl _
  | same hd =>
      rw [Step.feeOf_of_not_deals hd]
      exact .refl _

-- ============================================================================
-- Every stretch of calls
-- ============================================================================

/-- The account of `p` after the calls `l`, from the token `t₀` on. -/
structure Account (d : Deployment) (p : Address) (t₀ : BingoToken) (l : List (Step bingoToken))
    (t : BingoToken) : Prop where
  balance : (t.balances p).toNat + feesPaid p l = (t₀.balances p).toNat + prizesWon p l
  allowance : SpentBy (t₀.allowances p d.this) (t.allowances p d.this) (feesPaid p l)

theorem Steps.account (h : Steps d w e w') {t₀ : BingoToken} (hinv : Account d p t₀ l w.token)
    (hsound : w.token.Sound d.this) (hgame : e.call? ≠ none) (hp : p ≠ d.this) :
    Account d p t₀ (l ++ [e]) w'.token := by
  have hbalance := h.balance_of hsound hgame hp
  have hold := hinv.balance
  refine ⟨?_, ?_⟩
  · rw [feesPaid_concat, prizesWon_concat]
    omega
  · rw [feesPaid_concat]
    exact hinv.allowance.trans (h.allowance_of hsound hgame p)

theorem run_account (hrun₀ : WorldRun d (World.initial (deployed deployer)) l₀ w₀)
    (hsenders₀ : ∀ e ∈ l₀, e.sender ≠ d.this) (hrun : WorldRun d w₀ l w)
    (hsenders : ∀ e ∈ l, e.sender ≠ d.this) (hgame : ∀ e ∈ l, e.call? ≠ none)
    (hp : p ≠ d.this) : Account d p w₀.token l w.token := by
  refine hrun.invariant_of (P := fun l w => Account d p w₀.token l w.token)
    (Q := fun e => e.sender ≠ d.this ∧ e.call? ≠ none)
    (fun e he => ⟨hsenders e he, hgame e he⟩) ?_ ?_
  · exact ⟨rfl, .refl _⟩
  · intro k a e b hrun hk hinv hq hstep
    have hsound : a.token.Sound d.this := run_sound (hrun₀.append hrun)
      (List.forall_mem_append.mpr ⟨hsenders₀, fun e' he' => (hk e' he').1⟩)
    exact hstep.account hinv hsound hq.2 hp

/-- **Custody ledger.** -/
theorem custody (hrun₀ : WorldRun d (World.initial (deployed deployer)) l₀ w₀)
    (hsenders₀ : ∀ e ∈ l₀, e.sender ≠ d.this) (hrun : WorldRun d w₀ l w)
    (hsenders : ∀ e ∈ l, e.sender ≠ d.this) (hgame : ∀ e ∈ l, e.call? ≠ none)
    (hp : p ≠ d.this) :
    (w.token.balances p).toNat + feesPaid p l = (w₀.token.balances p).toNat + prizesWon p l ∧
    SpentBy (w₀.token.allowances p d.this) (w.token.allowances p d.this) (feesPaid p l) ∧
    (∀ e ∈ l, SpentBy (e.pre.token.allowances p d.this) (e.post.token.allowances p d.this)
      (e.feeOf p)) ∧
    (∀ e ∈ l, ∀ spender, e.post.token.allowances d.this spender = 0) := by
  have haccount := run_account hrun₀ hsenders₀ hrun hsenders hgame hp
  have haround : ∀ e ∈ l, ∃ a b, a.token.Sound d.this ∧ Steps d a e b := by
    intro e he
    obtain ⟨k, k', a, b, rfl, hrun₁, hstep, -⟩ := hrun.exists_step he
    have hsenders₁ := (List.forall_mem_append.mp hsenders).1
    exact ⟨a, b, run_sound (hrun₀.append hrun₁)
      (List.forall_mem_append.mpr ⟨hsenders₀, hsenders₁⟩), hstep⟩
  refine ⟨haccount.balance, haccount.allowance, fun e he => ?_, fun e he spender => ?_⟩
  · obtain ⟨a, b, hsound, hstep⟩ := haround e he
    rw [hstep.1, hstep.2.1]
    exact hstep.allowance_of hsound (hgame e he) p
  · obtain ⟨a, b, hsound, hstep⟩ := haround e he
    rw [hstep.2.1]
    exact (hstep.sound hsound (hsenders e he)).no_allowance spender

theorem custody_sample :
    ∃ l w, WorldRun Sample.deployment (Sample.played 4).2 l w ∧ l.length = 11 ∧
      feesPaid 17 l = 1000 ∧ prizesWon 17 l = 2000 ∧
      (w.token.balances 17).toNat + feesPaid 17 l
        = ((Sample.played 4).2.token.balances 17).toNat + prizesWon 17 l := by
  have hrun : WorldRun Sample.deployment (Sample.played 4).2
      ((Sample.played 4).2.play Sample.deployment (Sample.txs.drop 4)).1 _ := World.play_run ..
  exact ⟨_, _, hrun, by decide +kernel, by decide +kernel, by decide +kernel,
    (custody (Sample.played_run 4) (by decide +kernel) hrun (by decide +kernel)
      (by decide +kernel) (by decide)).1⟩

end BitmaskBingo
