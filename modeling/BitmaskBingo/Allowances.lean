/-
  BitmaskBingo.Allowances

  Who can take tokens from whom.  What is moved and what is granted is read
  off the calls of the token, those that the functions of the game make
  included.  Over any run, what a spender moves out of an account is covered
  by what the account granted that spender; and an account that sends nothing
  loses no more than it had allowed before, and none of it to the game.
-/

import BitmaskBingo.Custody

namespace BitmaskBingo

open Lib BingoToken

variable {d : Deployment} {deployer : Address} {l l₀ : List (Step bingoToken)}
  {w w' w₀ : World bingoToken} {e : Step bingoToken} {p q : Address} {g : Bytes32}

-- ============================================================================
-- What is moved and what is granted
-- ============================================================================

namespace BingoToken

/-- What a call by `sender` moves out of the account of `p` on the allowance of
    `q`. -/
def movedBy (q p sender : Address) : Call → Nat
  | .transferFrom from_ _ amount => if sender = q ∧ from_ = p then amount.toNat else 0
  | _ => 0

/-- What a call by `sender` grants `q` of the account of `p`; an `approve`
    counts in full, whatever it replaces. -/
def grantedTo (q p sender : Address) : Call → Nat
  | .approve spender amount => if sender = p ∧ spender = q then amount.toNat else 0
  | .increaseAllowance spender addedValue =>
      if sender = p ∧ spender = q then addedValue.toNat else 0
  | _ => 0

end BingoToken

/-- The calls of the token in a step, each with its sender: those the function
    of the game makes, or the one the transaction is. -/
def Step.tokenOps (d : Deployment) (e : Step bingoToken) : List (Address × BingoToken.Call) :=
  match e.tx.action with
  | .game c => (tokenCalls d e.tx.msg e.pre.game c).map fun x => (d.this, bingoToken.ofIERC20 x)
  | .token op => [(e.sender, op)]

/-- The calls take the token to where the step took it. -/
theorem Steps.tokenOps (h : Steps d w e w') :
    (e.tokenOps d).foldlM (fun t x => t.call x.1 x.2) w.token = .ok w'.token := by
  cases hact : e.tx.action with
  | game c =>
      have hc : e.call? = some c := by rw [Step.call?, hact]
      rw [Step.tokenOps, hact, h.1]
      exact List.foldlM_map.trans (h.of_call hc).2
  | token op =>
      have hcall : w.token.call e.sender op = .ok w'.token := by
        have hc : e.call? = none := by rw [Step.call?, hact]
        obtain ⟨op', hop, heff⟩ := h.token_call hc
        obtain rfl : op = op' := Action.token.inj (hact.symm.trans hop)
        exact (call_iff op).mpr heff
      rw [Step.tokenOps, hact, List.foldlM_cons, hcall]
      rfl

/-- The calls of a history are all there were. -/
theorem run_tokenOps (hrun : WorldRun d (World.initial (deployed deployer)) l w) :
    (l.flatMap (Step.tokenOps d)).foldlM (fun t x => t.call x.1 x.2) (deployed deployer)
      = .ok w.token := by
  induction hrun with
  | nil => rfl
  | snoc _ hstep ih =>
      rw [List.flatMap_append, List.foldlM_append, ih, List.flatMap_singleton]
      exact hstep.tokenOps

/-- What the step moves out of the account of `p` on the allowance of `q`. -/
def Step.movedBy (d : Deployment) (q p : Address) (e : Step bingoToken) : Nat :=
  ((e.tokenOps d).map fun x => BingoToken.movedBy q p x.1 x.2).sum

/-- What the step grants `q` of the account of `p`. -/
def Step.grantedTo (d : Deployment) (q p : Address) (e : Step bingoToken) : Nat :=
  ((e.tokenOps d).map fun x => BingoToken.grantedTo q p x.1 x.2).sum

/-- What `q` has moved out of the account of `p`. -/
def moved (d : Deployment) (q p : Address) (l : List (Step bingoToken)) : Nat :=
  (l.map (Step.movedBy d q p)).sum

/-- What `p` has granted `q`. -/
def granted (d : Deployment) (q p : Address) (l : List (Step bingoToken)) : Nat :=
  (l.map (Step.grantedTo d q p)).sum

/-- The pots that were claimed. -/
def potsPaid (l : List (Step bingoToken)) : Nat := (l.map Step.pot).sum

theorem moved_concat : moved d q p (l ++ [e]) = moved d q p l + e.movedBy d q p := by simp [moved]

theorem granted_concat : granted d q p (l ++ [e]) = granted d q p l + e.grantedTo d q p := by
  simp [granted]

-- ============================================================================
-- What the game moves and grants
-- ============================================================================

theorem Step.tokenOps_of_deals (h : e.deals) :
    e.tokenOps d = [(d.this, .transferFrom e.sender d.this e.fee)] := by
  obtain ⟨_, ⟨msg, act⟩, _, _⟩ := e
  cases act with
  | token op => exact False.elim h
  | game c =>
      cases c with
      | createGame => rfl
      | joinGame => rfl
      | _ => exact False.elim h

theorem Step.tokenOps_of_claims (h : e.claims g) :
    e.tokenOps d =
      [(d.this, .approve d.this (uint256 (e.pre.game.gameRegistry g).prizePool)),
        (d.this,
          .transferFrom d.this e.sender (uint256 (e.pre.game.gameRegistry g).prizePool))] := by
  obtain ⟨_, ⟨msg, act⟩, _, _⟩ := e
  cases act with
  | token op => cases h
  | game c =>
      cases h
      rfl

theorem Step.tokenOps_of_quiet (hgame : e.call? ≠ none) (hd : ¬ e.deals)
    (hp : ∀ g, ¬ e.claims g) : e.tokenOps d = [] := by
  obtain ⟨_, ⟨msg, act⟩, _, _⟩ := e
  cases act with
  | token op => exact absurd rfl hgame
  | game c =>
      cases c with
      | createGame => exact absurd trivial hd
      | joinGame => exact absurd trivial hd
      | claimPrize g => exact absurd rfl (hp g)
      | _ => rfl

/-- The game moves the fee out of the account that enters, and out of its own
    account the pot that is claimed. -/
theorem Step.movedBy_game (hgame : e.call? ≠ none) : e.movedBy d q p =
    if q = d.this then e.feeOf p + (if p = d.this then e.pot else 0) else 0 := by
  by_cases hd : e.deals
  · rw [Step.movedBy, Step.tokenOps_of_deals hd, Step.feeOf, Step.pot_of_not_claims hd.not_claims]
    simp [BingoToken.movedBy, hd, eq_comm, ← ite_and]
  · rw [Step.feeOf_of_not_deals hd]
    by_cases hp : ∃ g, e.claims g
    · obtain ⟨g, hp⟩ := hp
      rw [Step.movedBy, Step.tokenOps_of_claims hp, Step.pot_of_claims hp]
      simp [BingoToken.movedBy, eq_comm, ← ite_and]
    · have hp' : ∀ g, ¬ e.claims g := fun g hg => hp ⟨g, hg⟩
      rw [Step.movedBy, Step.tokenOps_of_quiet hgame hd hp', Step.pot_of_not_claims hp']
      simp

/-- The game grants itself the pot that is claimed. -/
theorem Step.grantedTo_game (hgame : e.call? ≠ none) :
    e.grantedTo d q p = if q = d.this ∧ p = d.this then e.pot else 0 := by
  by_cases hp : ∃ g, e.claims g
  · obtain ⟨g, hp⟩ := hp
    rw [Step.grantedTo, Step.tokenOps_of_claims hp, Step.pot_of_claims hp]
    simp [BingoToken.grantedTo, eq_comm, and_comm]
  · have hp' : ∀ g, ¬ e.claims g := fun g hg => hp ⟨g, hg⟩
    rw [Step.grantedTo, Step.pot_of_not_claims hp']
    by_cases hd : e.deals
    · rw [Step.tokenOps_of_deals hd]
      simp [BingoToken.grantedTo]
    · rw [Step.tokenOps_of_quiet hgame hd hp']
      simp

theorem Step.movedBy_token {op : BingoToken.Call} (hop : e.tx.action = .token op) :
    e.movedBy d q p = BingoToken.movedBy q p e.sender op := by
  rw [Step.movedBy, Step.tokenOps, hop, List.map_singleton, List.sum_singleton]

theorem Step.grantedTo_token {op : BingoToken.Call} (hop : e.tx.action = .token op) :
    e.grantedTo d q p = BingoToken.grantedTo q p e.sender op := by
  rw [Step.grantedTo, Step.tokenOps, hop, List.map_singleton, List.sum_singleton]

/-- Nothing is moved on an allowance but by its spender. -/
theorem BingoToken.movedBy_of_ne {sender : Address} (h : sender ≠ q) (c : BingoToken.Call) :
    BingoToken.movedBy q p sender c = 0 := by
  cases c with
  | transferFrom => exact if_neg fun hc => h hc.1
  | _ => rfl

/-- What a step sent by somebody else moves on an allowance of the game. -/
theorem Step.movedBy_this (hs : e.sender ≠ d.this) :
    e.movedBy d d.this p = if p = d.this then e.pot else e.feeOf p := by
  cases hact : e.tx.action with
  | token op =>
      have hgame : e.call? = none := by rw [Step.call?, hact]
      obtain ⟨-, hpot, -⟩ := Step.token_moves (d := d) hgame
      have hfee : e.feeOf p = 0 := Step.feeOf_of_not_deals (by simp [Step.deals, hgame])
      rw [Step.movedBy_token hact, BingoToken.movedBy_of_ne hs, hpot, hfee, ite_self]
  | game c =>
      have hgame : e.call? ≠ none := by simp [Step.call?, hact]
      rw [Step.movedBy_game hgame, if_pos rfl]
      by_cases hp : p = d.this
      · have hfee : e.feeOf p = 0 := if_neg fun hc => hs (hc.1.trans hp)
        rw [hfee, if_pos hp, Nat.zero_add]
      · rw [if_neg hp, if_neg hp, Nat.add_zero]

-- ============================================================================
-- One call and one step
-- ============================================================================

/-- What becomes of an allowance, when so much is moved on it and so much
    granted: its owner set it within that, or it was spent. -/
inductive AllowanceChange (own : Prop) (moved granted : Nat) (a a' : Uint256) : Prop where
  | set (hown : own) (hle : moved + a'.toNat ≤ a.toNat + granted)
  | spent (h : SpentBy a a' moved)

section Calls

variable {t t' : BingoToken} {sender spender : Address} {c : BingoToken.Call}

/-- The sender sets the allowance of a spender. -/
theorem AllowanceChange.of_set {x : Uint256} {n : Nat}
    (hle : sender = p → spender = q →
      x.toNat ≤ (t.allowances sender spender).toNat + n) :
    AllowanceChange (sender = p) 0 n (t.allowances p q)
      ((t.setAllowance sender spender x).allowances p q) := by
  rw [setAllowance_allowances]
  by_cases hown : p = sender ∧ q = spender
  · obtain ⟨rfl, rfl⟩ := hown
    rw [if_pos ⟨rfl, rfl⟩]
    refine .set rfl ?_
    rw [Nat.zero_add]
    exact hle rfl rfl
  · rw [if_neg hown]
    exact .spent (.refl _)

/-- What a call of the token does to an allowance. -/
theorem BingoToken.Effect.allowance_change (h : Effect t sender c t') (q p : Address) :
    AllowanceChange (sender = p) (BingoToken.movedBy q p sender c)
      (BingoToken.grantedTo q p sender c) (t.allowances p q) (t'.allowances p q) := by
  cases h with
  | mint => exact .spent (.refl _)
  | transfer => exact .spent (.refl _)
  | transferOwnership => exact .spent (.refl _)
  | renounceOwnership => exact .spent (.refl _)
  | approve =>
      refine .of_set fun hp hq => ?_
      rw [BingoToken.grantedTo, if_pos ⟨hp, hq⟩]
      exact Nat.le_add_left ..
  | increaseAllowance _ _ hfit =>
      refine .of_set fun hp hq => ?_
      rw [BingoToken.grantedTo, if_pos ⟨hp, hq⟩, BitVec.toNat_add, Nat.mod_eq_of_lt hfit]
  | decreaseAllowance _ _ hle =>
      refine .of_set fun _ _ => ?_
      rw [BitVec.toNat_sub_of_le hle]
      exact (Nat.sub_le ..).trans (Nat.le_add_right ..)
  | @transferFrom from_ to_ amount hcovers =>
      refine .spent ?_
      show SpentBy _ ((t.spent from_ sender amount).allowances p q) _
      rw [BingoToken.movedBy]
      by_cases hown : sender = q ∧ from_ = p
      · obtain ⟨rfl, rfl⟩ := hown
        rw [if_pos ⟨rfl, rfl⟩]
        exact spent_spentBy hcovers
      · rw [if_neg hown, spent_allowances, if_neg fun hc => hown ⟨hc.1.2.symm, hc.1.1.symm⟩]
        exact .refl _

end Calls

/-- A call of the game uses no allowance but its own. -/
theorem Steps.allowance_game (h : Steps d w e w') (hsound : w.token.Sound d.this)
    (hgame : e.call? ≠ none) (hq : q ≠ d.this) (p : Address) :
    w'.token.allowances p q = w.token.allowances p q := by
  have hchange := h.token_change hsound hgame
  generalize w'.token = t' at hchange
  cases hchange with
  | charged he heff =>
      rw [heff.transferFrom_allowances, spent_allowances, if_neg fun hc => hq hc.1.2]
  | won => rfl
  | same => rfl

/-- What a step does to an allowance; of the game's own account nothing is
    granted but what the step itself moves. -/
theorem Steps.allowance_change (h : Steps d w e w') (hsound : w.token.Sound d.this)
    (hs : e.sender ≠ d.this) (q p : Address) :
    AllowanceChange (e.sender = p ∨ p = d.this) (e.movedBy d q p) (e.grantedTo d q p)
      (w.token.allowances p q) (w'.token.allowances p q) := by
  by_cases hgame : e.call? = none
  · obtain ⟨op, hop, heff⟩ := h.token_call hgame
    rw [Step.movedBy_token hop, Step.grantedTo_token hop]
    cases heff.allowance_change q p with
    | set hown hle => exact .set (Or.inl hown) hle
    | spent hspent => exact .spent hspent
  · rw [Step.movedBy_game hgame, Step.grantedTo_game hgame]
    by_cases hq : q = d.this
    · by_cases hp : p = d.this
      · -- the contract grants itself the pot and spends it in the same call
        have hnone := (h.sound hsound hs).no_allowance q
        have hfee : e.feeOf p = 0 := if_neg fun hc => hs (hc.1.trans hp)
        refine .set (Or.inr hp) ?_
        rw [hp] at hfee ⊢
        rw [hnone, hfee]
        simp [hq]
      · rw [if_pos hq, if_neg hp, hq]
        exact .spent (h.allowance_of hsound hgame p)
    · rw [if_neg hq, h.allowance_game hsound hgame hq p]
      exact .spent (.refl _)

-- ============================================================================
-- The budget of a spender
-- ============================================================================

/-- What a spender moved and may still move was granted. -/
theorem run_budget (hrun : WorldRun d (World.initial (deployed deployer)) l w)
    (hsenders : ∀ e ∈ l, e.sender ≠ d.this)
    (hlimited : ∀ e ∈ l, e.pre.token.allowances p q ≠ maxUint256) :
    moved d q p l + (w.token.allowances p q).toNat ≤ granted d q p l := by
  refine hrun.invariant_of
    (P := fun l w => moved d q p l + (w.token.allowances p q).toNat ≤ granted d q p l)
    (Q := fun e => e.sender ≠ d.this ∧ e.pre.token.allowances p q ≠ maxUint256)
    (fun e he => ⟨hsenders e he, hlimited e he⟩) (Nat.le_refl 0) ?_
  intro k a e b hrun hk hinv hq hstep
  have hsound := run_sound hrun fun e' he' => (hk e' he').1
  rw [moved_concat, granted_concat]
  cases hstep.allowance_change hsound hq.1 q p with
  | set _ hle => omega
  | spent hspent =>
      have hlim : a.token.allowances p q ≠ maxUint256 := hstep.1 ▸ hq.2
      have hleft := hspent.2 hlim
      omega

/-- What the game moves out of an account: the fees, and out of its own the
    pots. -/
theorem moved_this (hsenders : ∀ e ∈ l, e.sender ≠ d.this) :
    moved d d.this p l = if p = d.this then potsPaid l else feesPaid p l := by
  rw [moved, List.map_congr_left fun e he => Step.movedBy_this (hsenders e he)]
  split <;> rfl

/-- **Nobody spends more than was granted.**  Unless the allowance was ever
    unlimited, what a spender moved out of an account and may still move is at
    most what the account granted it.  The game moves the entry fees, and out
    of its own account the pots that were claimed.  The calls counted are all
    the calls of the token that there were. -/
theorem spender_budget (hrun : WorldRun d (World.initial (deployed deployer)) l w)
    (hsenders : ∀ e ∈ l, e.sender ≠ d.this) :
    (∀ q p, (∀ e ∈ l, e.pre.token.allowances p q ≠ maxUint256) →
      moved d q p l + (w.token.allowances p q).toNat ≤ granted d q p l) ∧
    (∀ p, p ≠ d.this → moved d d.this p l = feesPaid p l) ∧
    moved d d.this d.this l = potsPaid l ∧
    (l.flatMap (Step.tokenOps d)).foldlM (fun t x => t.call x.1 x.2) (deployed deployer)
      = .ok w.token := by
  refine ⟨fun q p hlimited => run_budget hrun hsenders hlimited, fun p hp => ?_, ?_,
    run_tokenOps hrun⟩
  · rw [moved_this hsenders, if_neg hp]
  · rw [moved_this hsenders, if_pos rfl]

theorem spender_budget_sample :
    moved Sample.deployment Sample.deployment.this 17 (Sample.played 15).1 = 1000 ∧
    moved Sample.deployment Sample.deployment.this Sample.deployment.this (Sample.played 15).1
      = 2000 ∧
    moved Sample.deployment Sample.deployment.this 17 (Sample.played 15).1
        + ((Sample.played 15).2.token.allowances 17 Sample.deployment.this).toNat
      ≤ granted Sample.deployment Sample.deployment.this 17 (Sample.played 15).1 ∧
    moved Sample.deployment Sample.deployment.this 17 (Sample.played 15).1
      = feesPaid 17 (Sample.played 15).1 :=
  have hbudget := spender_budget (Sample.played_run 15) (by decide +kernel)
  ⟨by decide +kernel, by decide +kernel, hbudget.1 _ 17 (by decide +kernel),
    hbudget.2.1 17 (by decide)⟩

-- ============================================================================
-- Idle accounts
-- ============================================================================

/-- A call by somebody else takes from an account what it moves on an allowance
    of its sender. -/
theorem BingoToken.Effect.balance_idle {t t' : BingoToken} {sender : Address}
    {c : BingoToken.Call} (h : Effect t sender c t') (hb : t.Balanced) (hs : sender ≠ p) :
    (t.balances p).toNat
      ≤ (t'.balances p).toNat + BingoToken.movedBy sender p sender c := by
  cases h with
  | @mint to_ amount howner hto hcap hfit =>
      show _ ≤ (Ledger.credit t.balances to_ amount p).toNat + 0
      rw [Ledger.toNat_credit (hb.mint_fits hcap)]
      omega
  | @transfer to_ amount hfrom hto hfunds =>
      have hmove := hb.transfer_balances to_ hfunds p
      rw [if_neg (Ne.symm hs)] at hmove
      show _ ≤ (Ledger.transfer t.balances sender to_ amount p).toNat + 0
      omega
  | @transferFrom from_ to_ amount hcovers hfrom hto hfunds =>
      have hmove := hb.transferFrom_balances (.transferFrom hcovers hfrom hto hfunds) p
      rw [BingoToken.movedBy]
      simp only [true_and, eq_comm] at hmove ⊢
      omega
  | _ => exact Nat.le_add_right ..

/-- A step of somebody else takes no more than that. -/
theorem Steps.balance_idle (h : Steps d w e w') (hsound : w.token.Sound d.this)
    (hs : e.sender ≠ p) (hp : p ≠ d.this) :
    (w.token.balances p).toNat ≤ (w'.token.balances p).toNat + e.movedBy d e.sender p := by
  by_cases hgame : e.call? = none
  · obtain ⟨op, hop, heff⟩ := h.token_call hgame
    rw [Step.movedBy_token hop]
    exact heff.balance_idle hsound.toBalanced hs
  · have hmove := h.balance_of hsound hgame hp
    have hfee : e.feeOf p = 0 := if_neg fun hc => hs hc.1
    omega

/-- What the spenders in `S` may move out of the account of `p`. -/
def allowed (t : BingoToken) (S : Finset Address) (p : Address) : Nat :=
  ∑ q ∈ S, (t.allowances p q).toNat

theorem SpentBy.eq_of_zero {a a' : Uint256} (h : SpentBy a a' 0) : a' = a := by
  by_cases hmax : a = maxUint256
  · rw [h.1 hmax, hmax]
  · exact BitVec.eq_of_toNat_eq (h.2 hmax)

/-- The account of an idle `p`, as its spenders use it. -/
structure IdleInv (d : Deployment) (S : Finset Address) (p : Address) (w₀ : World bingoToken)
    (l : List (Step bingoToken)) (w : World bingoToken) : Prop where
  spent : ∀ q, SpentBy (w₀.token.allowances p q) (w.token.allowances p q) (moved d q p l)
  balance : (w₀.token.balances p).toNat
    ≤ (w.token.balances p).toNat + ∑ q ∈ S, moved d q p l
  cards : ∀ g, w.game.playerRegistry p g = w₀.game.playerRegistry p g

theorem Steps.idleInv {S : Finset Address} (h : Steps d w e w') (hinv : IdleInv d S p w₀ l w)
    (hsound : w.token.Sound d.this) (hthis : e.sender ≠ d.this) (hs : e.sender ≠ p)
    (hmem : e.sender ∈ S) (hp : p ≠ d.this) : IdleInv d S p w₀ (l ++ [e]) w' := by
  refine ⟨fun q => ?_, ?_, fun g => ?_⟩
  · rw [moved_concat]
    cases h.allowance_change hsound hthis q p with
    | set hown => exact absurd hown (not_or.mpr ⟨hs, hp⟩)
    | spent hspent => exact (hinv.spent q).trans hspent
  · have hstep := h.balance_idle hsound hs hp
    have hold := hinv.balance
    have hsum : ∑ q ∈ S, moved d q p (l ++ [e])
        = ∑ q ∈ S, moved d q p l + ∑ q ∈ S, e.movedBy d q p := by
      rw [← Finset.sum_add_distrib]
      exact Finset.sum_congr rfl fun q _ => moved_concat
    have hle : e.movedBy d e.sender p ≤ ∑ q ∈ S, e.movedBy d q p :=
      Finset.single_le_sum (f := fun q => e.movedBy d q p) (fun _ _ => Nat.zero_le _) hmem
    omega
  · have hcard := h.card p g
    rw [← hinv.cards g]
    generalize w'.game.playerRegistry p g = c at hcard
    cases hcard with
    | same => rfl
    | dealt hown => exact absurd hown hs
    | marked hown => exact absurd hown hs

/-- What was moved was allowed at the start; an unlimited allowance allows
    everything. -/
theorem IdleInv.loss {S : Finset Address} (h : IdleInv d S p w₀ l w) :
    (w₀.token.balances p).toNat ≤ (w.token.balances p).toNat + allowed w₀.token S p := by
  by_cases hmax : ∃ q ∈ S, w₀.token.allowances p q = maxUint256
  · obtain ⟨q, hq, hunlimited⟩ := hmax
    have hle : (w₀.token.allowances p q).toNat ≤ allowed w₀.token S p :=
      Finset.single_le_sum (f := fun q => (w₀.token.allowances p q).toNat)
        (fun _ _ => Nat.zero_le _) hq
    rw [hunlimited] at hle
    have hlt := (w₀.token.balances p).isLt
    have hmaxNat : maxUint256.toNat = 2 ^ 256 - 1 := by decide
    omega
  · have hmoved : ∑ q ∈ S, moved d q p l ≤ allowed w₀.token S p := by
      refine Finset.sum_le_sum fun q hq => ?_
      have hspent := (h.spent q).2 fun hunlimited => hmax ⟨q, hq, hunlimited⟩
      omega
    have hbalance := h.balance
    omega

/-- **Idle accounts are safe.**  Over any stretch in which `p` sends nothing,
    `p` keeps its cards and its allowance to the game, every other spender
    spends its allowance only (an unlimited one stays), and `p` loses at most
    what it had allowed to those who sent something. -/
theorem idle_account_safe (hrun₀ : WorldRun d (World.initial (deployed deployer)) l₀ w₀)
    (hsenders₀ : ∀ e ∈ l₀, e.sender ≠ d.this) (hrun : WorldRun d w₀ l w)
    (hsenders : ∀ e ∈ l, e.sender ≠ d.this) (hidle : ∀ e ∈ l, e.sender ≠ p)
    (hp : p ≠ d.this) :
    (w₀.token.balances p).toNat ≤ (w.token.balances p).toNat
      + allowed w₀.token (l.map Step.sender).toFinset p ∧
    (∀ q, SpentBy (w₀.token.allowances p q) (w.token.allowances p q) (moved d q p l)) ∧
    w.token.allowances p d.this = w₀.token.allowances p d.this ∧
    ∀ g, w.game.playerRegistry p g = w₀.game.playerRegistry p g := by
  have hinv : IdleInv d (l.map Step.sender).toFinset p w₀ l w := by
    refine hrun.invariant_of (P := IdleInv d (l.map Step.sender).toFinset p w₀)
      (Q := fun e => e ∈ l) (fun e he => he) ?_ ?_
    · exact ⟨fun q => .refl _, by simp [moved], fun g => rfl⟩
    · intro k a e b hk hkl hinv he hstep
      have hsound : a.token.Sound d.this := run_sound (hrun₀.append hk)
        (List.forall_mem_append.mpr ⟨hsenders₀, fun e' he' => hsenders e' (hkl e' he')⟩)
      exact hstep.idleInv hinv hsound (hsenders e he) (hidle e he)
        (List.mem_toFinset.mpr (List.mem_map_of_mem he)) hp
  have hnothing : moved d d.this p l = 0 := by
    rw [moved_this hsenders, if_neg hp, feesPaid]
    apply List.sum_eq_zero
    intro x hx
    obtain ⟨e, he, rfl⟩ := List.mem_map.mp hx
    exact if_neg fun hc => hidle e he hc.1
  refine ⟨hinv.loss, hinv.spent, ?_, hinv.cards⟩
  have hgame := hinv.spent d.this
  rw [hnothing] at hgame
  exact hgame.eq_of_zero

theorem idle_account_safe_sample :
    ∃ l w, WorldRun Sample.deployment (Sample.played 7).2 l w ∧ l.length = 9 ∧
      ((Sample.played 7).2.token.balances 34).toNat ≤ (w.token.balances 34).toNat
        + allowed (Sample.played 7).2.token (l.map Step.sender).toFinset 34 := by
  have hrun : WorldRun Sample.deployment (Sample.played 7).2
      ((Sample.played 7).2.play Sample.deployment
        ((Sample.txs.drop 7) ++ [⟨Sample.msg 17 6400 1, .token (.transfer 34 10)⟩])).1 _ :=
    World.play_run ..
  exact ⟨_, _, hrun, by decide +kernel,
    (idle_account_safe (Sample.played_run 7) (by decide +kernel) hrun (by decide +kernel)
      (by decide +kernel) (by decide)).1⟩

end BitmaskBingo
