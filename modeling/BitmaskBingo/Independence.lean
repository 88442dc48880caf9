/-
  BitmaskBingo.Independence

  Calls about different games are independent, and so are joins and marks of
  different players in one game: two of them in one block may be swapped.

  The storage part is a frame lemma: a call reads and writes the settings, the
  record of its game and the card of its caller there, and nothing else.  The
  token part is a small algebra of what a call asks of the token: nothing, a
  fee, or a prize.  That a prize is there early enough is solvency.
-/

import BitmaskBingo.Solvency

namespace BitmaskBingo

open Lib BingoToken

variable {d : Deployment} {deployer : Address} {l : List (Step bingoToken)}
  {w w₁ w₂ : World bingoToken} {msg : Msg} {s s' : Storage} {g g' : Bytes32} {p q : Address}
  {t t' : BingoToken}

-- ============================================================================
-- Which game a call concerns
-- ============================================================================

/-- The game a player's call concerns; the owner's calls concern none. -/
def Call.game? (d : Deployment) (msg : Msg) : Call → Option Bytes32
  | .createGame => some (newGameId d msg)
  | .joinGame g => some g
  | .drawNumber g => some g
  | .markNumberOnCard g => some g
  | .claimPrize g => some g
  | _ => none

-- ============================================================================
-- The frame of a call
-- ============================================================================

namespace Storage

theorem setGame_self (s : Storage) (g : Bytes32) : s.setGame g (s.gameRegistry g) = s := by
  rw [setGame, Function.update_eq_self]

theorem setCard_self (s : Storage) (p : Address) (g : Bytes32) :
    s.setCard p g (s.playerRegistry p g) = s := by
  simp only [setCard, Function.update_eq_self]

/-- Writing a record alone keeps the card that is there. -/
theorem setGame_setCard_self (s : Storage) (p : Address) (g : Bytes32) (r : Game) :
    (s.setGame g r).setCard p g (s.playerRegistry p g) = s.setGame g r :=
  setCard_self (s.setGame g r) p g

theorem setGame_comm (s : Storage) (hg : g ≠ g') (r r' : Game) :
    (s.setGame g r).setGame g' r' = (s.setGame g' r').setGame g r := by
  simp only [setGame, Function.update_comm hg]

theorem setGame_setGame (s : Storage) (g : Bytes32) (r r' : Game) :
    (s.setGame g r).setGame g r' = s.setGame g r' := by
  simp only [setGame, Function.update_idem]

theorem setCard_setGame (s : Storage) (p : Address) (g g' : Bytes32) (c : BingoCard) (r : Game) :
    (s.setCard p g c).setGame g' r = (s.setGame g' r).setCard p g c := rfl

theorem setCard_comm (s : Storage) (h : ¬ (p = q ∧ g = g')) (c c' : BingoCard) :
    (s.setCard p g c).setCard q g' c' = (s.setCard q g' c').setCard p g c := by
  have hcards : ∀ a b, ((s.setCard p g c).setCard q g' c').playerRegistry a b
      = ((s.setCard q g' c').setCard p g c).playerRegistry a b := by
    intro a b
    simp only [setCard_playerRegistry]
    by_cases hq : a = q ∧ b = g'
    · obtain ⟨rfl, rfl⟩ := hq
      rw [if_pos ⟨rfl, rfl⟩, if_neg fun hp => h ⟨hp.1.symm, hp.2.symm⟩, if_pos ⟨rfl, rfl⟩]
    · rw [if_neg hq, if_neg hq]
  have hregistry : ((s.setCard p g c).setCard q g' c').playerRegistry
      = ((s.setCard q g' c').setCard p g c).playerRegistry := funext fun a => funext (hcards a)
  exact congrArg (Storage.mk s.gameSettings s.gameRegistry) hregistry

end Storage

/-- What `onlyPlayer` reads. -/
theorem Storage.OnlyPlayer.congr (h : s.OnlyPlayer p g)
    (hcreated : (s'.gameRegistry g).createdAt = (s.gameRegistry g).createdAt)
    (hdrawn : (s'.gameRegistry g).lastDrawnNumber = (s.gameRegistry g).lastDrawnNumber)
    (hcard : s'.playerRegistry p g = s.playerRegistry p g) : s'.OnlyPlayer p g := by
  refine ⟨?_, ?_, ?_⟩
  · rw [hcreated]
    exact h.exists_
  · rw [hdrawn]
    exact h.not_over
  · rw [hcard]
    exact h.member

/-- What `joinGame` checks before it takes the fee. -/
theorem Storage.JoinOpen.congr {time : Uint256} (h : s.JoinOpen time g)
    (hsettings : s'.gameSettings = s.gameSettings)
    (hcreated : (s'.gameRegistry g).createdAt = (s.gameRegistry g).createdAt) :
    s'.JoinOpen time g := by
  refine ⟨?_, ?_, ?_⟩
  all_goals rw [hcreated]
  · exact h.exists_
  · rw [hsettings]
    exact h.fits
  · rw [hsettings]
    exact h.before

/-- Two storages that a call of `p` about game `g` cannot tell apart. -/
structure SameFrame (s s' : Storage) (p : Address) (g : Bytes32) : Prop where
  settings : s'.gameSettings = s.gameSettings
  record : s'.gameRegistry g = s.gameRegistry g
  card : s'.playerRegistry p g = s.playerRegistry p g

namespace SameFrame

variable (h : SameFrame s s' p g)

include h

theorem onlyPlayer (hplayer : s.OnlyPlayer p g) : s'.OnlyPlayer p g :=
  hplayer.congr (by rw [h.record]) (by rw [h.record]) h.card

theorem joinOpen {time : Uint256} (hopen : s.JoinOpen time g) : s'.JoinOpen time g :=
  hopen.congr h.settings (by rw [h.record])

theorem drawOpen {time : Uint256} (hopen : s.DrawOpen time g) : s'.DrawOpen time g := by
  refine ⟨?_, ?_⟩
  all_goals rw [h.record, h.settings]
  · exact hopen.joined
  · exact hopen.turned

end SameFrame

/-- **Frame of a call.**  A player's call writes one record and one card, and
    does the same to every storage it cannot tell apart from this one. -/
theorem Effect.frame {c : Call} {r : Returned} (h : Effect d msg s c r s')
    (hg : c.game? d msg = some g) :
    ∃ record card, s' = (s.setGame g record).setCard msg.sender g card ∧
      ∀ s₁, SameFrame s s₁ msg.sender g →
        Effect d msg s₁ c r ((s₁.setGame g record).setCard msg.sender g card) := by
  cases h with
  | createGame hblock hnew =>
      obtain rfl : newGameId d msg = g := by simpa [Call.game?] using hg
      refine ⟨_, _, rfl, fun s₁ hs => ?_⟩
      rw [← hs.settings]
      exact .createGame hblock (by rw [hs.record]; exact hnew)
  | @joinGame g₁ pot hopen hpot hblock =>
      obtain rfl : g₁ = g := by simpa [Call.game?] using hg
      refine ⟨_, _, rfl, fun s₁ hs => ?_⟩
      rw [← hs.record] at hpot ⊢
      rw [← hs.settings] at hpot
      exact .joinGame (hs.joinOpen hopen) hpot hblock
  | @drawNumber g₁ hplayer hopen hblock =>
      obtain rfl : g₁ = g := by simpa [Call.game?] using hg
      refine ⟨_, _, (s.setGame_setCard_self msg.sender g₁ _).symm, fun s₁ hs => ?_⟩
      rw [← hs.card, ← hs.record, Storage.setGame_setCard_self]
      exact .drawNumber (hs.onlyPlayer hplayer) (hs.drawOpen hopen) hblock
  | @markNumberOnCard g₁ hplayer hmem =>
      obtain rfl : g₁ = g := by simpa [Call.game?] using hg
      refine ⟨s.gameRegistry g₁, _, by rw [Storage.setGame_self], fun s₁ hs => ?_⟩
      rw [← hs.record, ← hs.card] at hmem ⊢
      rw [Storage.setGame_self]
      exact .markNumberOnCard (hs.onlyPlayer hplayer) hmem
  | @claimPrize g₁ hplayer hwin =>
      obtain rfl : g₁ = g := by simpa [Call.game?] using hg
      refine ⟨_, _, (s.setGame_setCard_self msg.sender g₁ _).symm, fun s₁ hs => ?_⟩
      rw [← hs.card, ← hs.record, Storage.setGame_setCard_self]
      refine .claimPrize (hs.onlyPlayer hplayer) ?_
      rw [Storage.checkForWinner] at hwin ⊢
      rw [hs.card]
      exact hwin
  | _ => simp [Call.game?] at hg

-- ============================================================================
-- What a call asks of the token
-- ============================================================================

/-- A call asks nothing of the token, or a fee, or a prize. -/
inductive Move where
  | none
  | charge (payer : Address) (fee : Uint256)
  | pay (winner : Address) (prize : Uint64)

namespace Move

/-- The calls to the token. -/
def calls (d : Deployment) : Move → List IERC20
  | none => []
  | charge payer fee => [.transferFrom payer d.this fee]
  | pay winner prize => payCalls d winner (uint256 prize)

/-- The move of a call of the game. -/
def of (msg : Msg) (s : Storage) : Call → Move
  | .createGame => charge msg.sender s.gameSettings.entryFee
  | .joinGame _ => charge msg.sender s.gameSettings.entryFee
  | .claimPrize g => pay msg.sender (s.gameRegistry g).prizePool
  | _ => none

theorem calls_of (d : Deployment) (msg : Msg) (s : Storage) (c : Call) :
    tokenCalls d msg s c = (of msg s c).calls d := by
  cases c <;> rfl

/-- Charges are the fee in force, asked of the caller who enters. -/
theorem of_eq_charge {s : Storage} {c : Call} {payer : Address} {fee : Uint256}
    (h : of msg s c = charge payer fee) :
    payer = msg.sender ∧ fee = s.gameSettings.entryFee ∧
      (c = .createGame ∨ ∃ g, c = .joinGame g) := by
  cases c with
  | createGame =>
      obtain ⟨rfl, rfl⟩ := Move.charge.inj h
      exact ⟨rfl, rfl, Or.inl rfl⟩
  | joinGame g =>
      obtain ⟨rfl, rfl⟩ := Move.charge.inj h
      exact ⟨rfl, rfl, Or.inr ⟨g, rfl⟩⟩
  | _ => cases h

/-- Prizes are the pot of the game that the caller claims. -/
theorem of_eq_pay {s : Storage} {c : Call} {winner : Address} {prize : Uint64}
    (h : of msg s c = pay winner prize) :
    winner = msg.sender ∧ ∃ g, c = .claimPrize g ∧ prize = (s.gameRegistry g).prizePool := by
  cases c with
  | claimPrize g =>
      obtain ⟨rfl, rfl⟩ := Move.pay.inj h
      exact ⟨rfl, g, rfl, rfl⟩
  | _ => cases h

/-- When the token grants the move. -/
def Enabled (d : Deployment) (t : BingoToken) : Move → Prop
  | none => True
  | charge payer fee => t.Covers payer d.this fee ∧ payer ≠ 0 ∧ fee ≤ t.balances payer
  | pay winner prize => winner ≠ 0 ∧ uint256 prize ≤ t.balances d.this

/-- The token after the move. -/
def apply (d : Deployment) (t : BingoToken) : Move → BingoToken
  | none => t
  | charge payer fee =>
      { t.spent payer d.this fee with
        balances := Ledger.transfer t.balances payer d.this fee }
  | pay winner prize => paid d winner (uint256 prize) t

/-- The token grants a move exactly when it is enabled. -/
theorem run_iff (hsound : t.Sound d.this) (m : Move) :
    runCalls (bingoToken.callee d msg) (m.calls d) t = .ok t' ↔
      m.Enabled d t ∧ m.apply d t = t' := by
  cases m with
  | none =>
      show runCalls _ [] t = .ok t' ↔ True ∧ t = t'
      rw [runCalls_nil, Except.ok.injEq, true_and]
  | charge payer fee =>
      show runCalls _ [_] t = .ok t' ↔ _
      rw [runCalls_singleton, callee_transferFrom_iff]
      refine ⟨fun h => ?_, ?_⟩
      · cases h with
        | transferFrom hcovers hfrom hto hfunds => exact ⟨⟨hcovers, hfrom, hfunds⟩, rfl⟩
      · rintro ⟨⟨hcovers, hfrom, hfunds⟩, rfl⟩
        exact .transferFrom hcovers hfrom d.this_ne_zero hfunds
  | pay winner prize =>
      have hprize : (uint256 prize).toNat < 2 ^ 64 := by
        rw [uint256_toNat_uint64]
        exact prize.isLt
      show runCalls _ (payCalls d winner (uint256 prize)) t = .ok t' ↔ _
      rw [pay_iff hsound hprize]
      exact and_assoc.symm

/-- Moves keep the ledger sound. -/
theorem apply_sound (hsound : t.Sound d.this) {m : Move} (hm : m.Enabled d t) :
    (m.apply d t).Sound d.this := by
  cases m with
  | none => exact hsound
  | charge payer fee =>
      exact hsound.transferFrom (.transferFrom hm.1 hm.2.1 d.this_ne_zero hm.2.2)
  | pay winner prize => exact paid_sound hsound hm.2

/-- The address that the move is about. -/
def party : Move → Option Address
  | none => Option.none
  | charge payer _ => some payer
  | pay winner _ => some winner

/-- The caller is the party. -/
theorem party_of {s : Storage} {c : Call} {a : Address} (h : (of msg s c).party = some a) :
    a = msg.sender := by
  cases hm : of msg s c with
  | none =>
      rw [hm] at h
      cases h
  | charge payer fee =>
      rw [hm] at h
      rw [← (of_eq_charge hm).1]
      exact (Option.some.inj h).symm
  | pay winner prize =>
      rw [hm] at h
      rw [← (of_eq_pay hm).1]
      exact (Option.some.inj h).symm

/-- The account of anybody else stays as it is. -/
theorem apply_balances_of_ne {m : Move} {a : Address} (ha : a ≠ d.this) (hm : m.party ≠ some a) :
    (m.apply d t).balances a = t.balances a := by
  cases m with
  | none => rfl
  | charge payer fee =>
      have hne : a ≠ payer := fun h => hm (congrArg some h.symm)
      show Ledger.transfer t.balances payer d.this fee a = t.balances a
      rw [Ledger.transfer_apply, if_neg hne, if_neg ha, BitVec.sub_zero, BitVec.add_zero]
  | pay winner prize =>
      have hne : a ≠ winner := fun h => hm (congrArg some h.symm)
      show Ledger.transfer t.balances d.this winner (uint256 prize) a = t.balances a
      rw [Ledger.transfer_apply, if_neg ha, if_neg hne, BitVec.sub_zero, BitVec.add_zero]

/-- Only a charge touches an allowance, the one of its payer. -/
theorem apply_allowances_of_ne {m : Move} {a : Address} (hm : ∀ fee, m ≠ charge a fee)
    (spender : Address) : (m.apply d t).allowances a spender = t.allowances a spender := by
  cases m with
  | none => rfl
  | charge payer fee =>
      have hne : a ≠ payer := fun h => hm fee (h ▸ rfl)
      show (t.spent payer d.this fee).allowances a spender = t.allowances a spender
      rw [spent_allowances, if_neg fun h => hne h.1.1]
  | pay winner prize => rfl

/-- A charge reads the account of its payer. -/
theorem charge_enabled_congr {payer : Address} {fee : Uint256}
    (ha : t'.allowances payer d.this = t.allowances payer d.this)
    (hb : t.balances payer ≤ t'.balances payer) (h : (charge payer fee).Enabled d t) :
    (charge payer fee).Enabled d t' := by
  obtain ⟨hcovers, hzero, hfunds⟩ := h
  refine ⟨?_, hzero, BitVec.le_trans hfunds hb⟩
  rw [Covers, ha]
  exact hcovers

/-- The account that the move takes from. -/
def source (d : Deployment) : Move → Option Address
  | none => Option.none
  | charge payer _ => some payer
  | pay _ _ => some d.this

/-- Nobody else loses tokens. -/
theorem balance_le_apply (hsound : t.Sound d.this) {m : Move} (hm : m.Enabled d t) {a : Address}
    (ha : m.source d ≠ some a) : t.balances a ≤ (m.apply d t).balances a := by
  rw [BitVec.le_def]
  cases m with
  | none => exact Nat.le_refl _
  | charge payer fee =>
      have hne : a ≠ payer := fun h => ha (congrArg some h.symm)
      have hmove := hsound.transfer_balances d.this hm.2.2 a
      rw [if_neg hne] at hmove
      show (t.balances a).toNat ≤ (Ledger.transfer t.balances payer d.this fee a).toNat
      omega
  | pay winner prize =>
      have hne : a ≠ d.this := fun h => ha (congrArg some h.symm)
      have hmove := paid_balances winner hsound hm.2 a
      rw [if_neg hne] at hmove
      show (t.balances a).toNat ≤ ((paid d winner (uint256 prize) t).balances a).toNat
      omega

/-- The allowances of an owner after a move depend on that owner's only. -/
theorem apply_allowances_congr (m : Move) {a : Address}
    (h : ∀ spender, t'.allowances a spender = t.allowances a spender) (spender : Address) :
    (m.apply d t').allowances a spender = (m.apply d t).allowances a spender := by
  cases m with
  | none => exact h spender
  | charge payer fee =>
      show (t'.spent payer d.this fee).allowances a spender
        = (t.spent payer d.this fee).allowances a spender
      rw [spent_allowances, spent_allowances]
      by_cases hp : a = payer
      · subst hp
        rw [h, h]
      · rw [if_neg fun hc => hp hc.1.1, if_neg fun hc => hp hc.1.1, h]
  | pay winner prize => exact h spender

/-- The state two moves lead to does not depend on their order, unless both
    charge one payer. -/
theorem apply_comm {m m' : Move} (hpayer : ∀ a fee fee', m = charge a fee → m' ≠ charge a fee') :
    m.apply d (m'.apply d t) = m'.apply d (m.apply d t) := by
  have hallowances : ∀ a b, (m.apply d (m'.apply d t)).allowances a b
      = (m'.apply d (m.apply d t)).allowances a b := by
    intro a b
    by_cases hm : ∃ fee, m = charge a fee
    · obtain ⟨fee, hm⟩ := hm
      have hother : ∀ t b, (m'.apply d t).allowances a b = t.allowances a b := fun t b =>
        apply_allowances_of_ne (fun fee' => hpayer a fee fee' hm) b
      rw [hother]
      exact apply_allowances_congr m (hother t) b
    · have hother : ∀ t b, (m.apply d t).allowances a b = t.allowances a b := fun t b =>
        apply_allowances_of_ne (fun fee hc => hm ⟨fee, hc⟩) b
      rw [hother]
      exact (apply_allowances_congr m' (hother t) b).symm
  refine BingoToken.ext ?_ (funext fun a => funext (hallowances a)) ?_ ?_ ?_
  · cases m <;> cases m' <;> first | rfl | exact Ledger.transfer_comm ..
  all_goals cases m <;> cases m' <;> simp [apply, paid]

/-- Two prizes that are there one after the other are there together. -/
theorem pay_after_pay {winner winner' : Address} {prize prize' : Uint64}
    (hsound : t.Sound d.this) (hfunds : uint256 prize ≤ t.balances d.this)
    (hnext : uint256 prize' ≤ (paid d winner (uint256 prize) t).balances d.this)
    (hfunds' : uint256 prize' ≤ t.balances d.this) (hwinner : winner ≠ d.this) :
    uint256 prize ≤ (paid d winner' (uint256 prize') t).balances d.this := by
  have hpaid := paid_balances winner hsound hfunds d.this
  have hpaid' := paid_balances winner' hsound hfunds' d.this
  rw [if_pos rfl, if_neg hwinner.symm] at hpaid
  rw [if_pos rfl] at hpaid'
  rw [BitVec.le_def] at hnext ⊢
  omega

/-- **Swapping two moves.**  If one move and then another is granted, so are
    they the other way round, with the same result: provided the second one
    does not wait for the prize that the first one pays, one payer pays one
    fee, and a prize is there from the start. -/
theorem swap (hsound : t.Sound d.this) {m m' : Move} (hm : m.Enabled d t)
    (hm' : m'.Enabled d (m.apply d t)) (hthis : m.party ≠ some d.this)
    (hthis' : m'.party ≠ some d.this)
    (hfee : ∀ a fee fee', m = charge a fee → m' = charge a fee' → fee = fee')
    (hwait : ∀ a prize fee, m = pay a prize → m' ≠ charge a fee)
    (hprize : ∀ a prize, m' = pay a prize → uint256 prize ≤ t.balances d.this) :
    m'.Enabled d t ∧ m.Enabled d (m'.apply d t) ∧
      m.apply d (m'.apply d t) = m'.apply d (m.apply d t) := by
  by_cases hsame : ∃ a fee, m = charge a fee ∧ m' = charge a fee
  · obtain ⟨a, fee, rfl, rfl⟩ := hsame
    exact ⟨hm, hm', rfl⟩
  have hpayer : ∀ a fee fee', m = charge a fee → m' ≠ charge a fee' := by
    intro a fee fee' h h'
    obtain rfl := hfee a fee fee' h h'
    exact hsame ⟨a, fee, h, h'⟩
  have henabled : m'.Enabled d t := by
    cases m' with
    | none => trivial
    | charge payer fee =>
        have hpayer_this : payer ≠ d.this := fun h => hthis' (congrArg some h)
        have hparty : m.party ≠ some payer := by
          cases m with
          | none => exact fun h => Option.some_ne_none payer h.symm
          | charge payer' fee' =>
              intro h
              exact hpayer payer' fee' fee rfl (by rw [Option.some.inj h])
          | pay winner prize =>
              intro h
              exact hwait winner prize fee rfl (by rw [Option.some.inj h])
        have hrow : ∀ fee', m ≠ charge payer fee' := fun fee' h => hpayer payer fee' fee h rfl
        refine charge_enabled_congr (apply_allowances_of_ne hrow d.this).symm ?_ hm'
        rw [apply_balances_of_ne hpayer_this hparty]
        exact BitVec.le_refl _
    | pay winner prize => exact ⟨hm'.1, hprize winner prize rfl⟩
  refine ⟨henabled, ?_, apply_comm hpayer⟩
  cases m with
  | none => trivial
  | charge payer fee =>
      have hpayer_this : payer ≠ d.this := fun h => hthis (congrArg some h)
      have hrow : ∀ fee', m' ≠ charge payer fee' := fun fee' => hpayer payer fee fee' rfl
      refine charge_enabled_congr (apply_allowances_of_ne hrow d.this) ?_ hm
      refine balance_le_apply hsound henabled ?_
      cases m' with
      | none => exact fun h => Option.some_ne_none payer h.symm
      | charge payer' fee' => exact fun h => hrow fee' (by rw [Option.some.inj h])
      | pay winner prize => exact fun h => hpayer_this (Option.some.inj h).symm
  | pay winner prize =>
      refine ⟨hm.1, ?_⟩
      cases m' with
      | none => exact hm.2
      | charge payer fee =>
          have hpayer_this : payer ≠ d.this := fun h => hthis' (congrArg some h)
          have hsource : (charge payer fee).source d ≠ some d.this :=
            fun h => hpayer_this (Option.some.inj h)
          exact BitVec.le_trans hm.2 (balance_le_apply hsound henabled hsource)
      | pay winner' prize' =>
          exact pay_after_pay hsound hm.2 hm'.2 henabled.2 (fun h => hthis (congrArg some h))

end Move

-- ============================================================================
-- Swapping two calls in the storage
-- ============================================================================

/-- The writes of one game are outside the frame of another. -/
theorem sameFrame_write (s : Storage) (hg : g ≠ g') (q p : Address) (r : Game) (c : BingoCard) :
    SameFrame s ((s.setGame g r).setCard q g c) p g' := by
  refine ⟨rfl, ?_, ?_⟩
  · rw [Storage.setCard_gameRegistry, Storage.setGame_gameRegistry, if_neg hg.symm]
  · rw [Storage.setCard_playerRegistry, if_neg fun h => hg h.2.symm,
      Storage.setGame_playerRegistry]

theorem SameFrame.symm (h : SameFrame s s' p g) : SameFrame s' s p g :=
  ⟨h.settings.symm, h.record.symm, h.card.symm⟩

/-- What a call asks of the token is in its frame. -/
theorem SameFrame.move_of {c : Call} (h : SameFrame s s' msg.sender g)
    (hc : c.game? d msg = some g) : Move.of msg s' c = Move.of msg s c := by
  cases c with
  | createGame => rw [Move.of, Move.of, h.settings]
  | joinGame g₁ => rw [Move.of, Move.of, h.settings]
  | claimPrize g₁ =>
      obtain rfl : g₁ = g := by simpa [Call.game?] using hc
      rw [Move.of, Move.of, h.record]
  | _ => rfl

/-- The second call may come first: both have the same effect then, and ask
    the token for the same. -/
def SwapsTo (d : Deployment) (msg msg' : Msg) (X Y : Call) (rX rY : Returned)
    (s s₁ s₂ : Storage) : Prop :=
  ∃ s₁', Effect d msg' s Y rY s₁' ∧ Effect d msg s₁' X rX s₂ ∧
    Move.of msg' s₁ Y = Move.of msg' s Y ∧ Move.of msg s₁' X = Move.of msg s X

variable {msg' : Msg} {X Y : Call} {rX rY : Returned} {s₁ s₂ : Storage}

/-- Calls about different games. -/
theorem Effect.swap_of_ne (hX : Effect d msg s X rX s₁) (hY : Effect d msg' s₁ Y rY s₂)
    (hgX : X.game? d msg = some g) (hgY : Y.game? d msg' = some g') (hg : g ≠ g') :
    SwapsTo d msg msg' X Y rX rY s s₁ s₂ := by
  obtain ⟨record, card, rfl, hframe⟩ := hX.frame hgX
  obtain ⟨record', card', rfl, hframe'⟩ := hY.frame hgY
  have hsame := sameFrame_write s hg msg.sender msg'.sender record card
  have hsame' := sameFrame_write s hg.symm msg'.sender msg.sender record' card'
  have hcards : ¬ (msg.sender = msg'.sender ∧ g = g') := fun h => hg h.2
  have hfirst := hframe' s hsame.symm
  have hsecond := hframe _ hsame'
  refine ⟨_, hfirst, ?_, hsame.move_of hgY, hsame'.move_of hgX⟩
  rw [Storage.setCard_setGame, Storage.setCard_comm _ hcards, Storage.setGame_comm _ hg,
    ← Storage.setCard_setGame]
  exact hsecond

/-- A call that only touches the caller's card and the pot. -/
def Call.JoinsOrMarks (g : Bytes32) (c : Call) : Prop := c = .joinGame g ∨ c = .markNumberOnCard g

/-- The storage after a join. -/
def Storage.joined (s : Storage) (d : Deployment) (msg : Msg) (g : Bytes32) (pot : Uint64) :
    Storage :=
  (s.setGame g { s.gameRegistry g with prizePool := pot }).setCard msg.sender g
    (newCard d msg.block)

/-- The storage after a mark. -/
def Storage.markedBy (s : Storage) (msg : Msg) (g : Bytes32) : Storage :=
  s.setCard msg.sender g
    ((s.playerRegistry msg.sender g).marked (s.gameRegistry g).lastDrawnNumber.toNat)

theorem Effect.joinGame_iff {r : Returned} : Effect d msg s (.joinGame g) r s' ↔
    r = .unit ∧ s.JoinOpen msg.block.timestamp g ∧ msg.block.number ≠ 0 ∧
      ∃ pot : Uint64, pot.toNat = (s.gameRegistry g).prizePool.toNat
        + (uint64 s.gameSettings.entryFee).toNat ∧ s' = s.joined d msg g pot := by
  refine ⟨fun h => ?_, ?_⟩
  · cases h with
    | joinGame hopen hpot hblock => exact ⟨rfl, hopen, hblock, _, hpot, rfl⟩
  · rintro ⟨rfl, hopen, hblock, pot, hpot, rfl⟩
    exact .joinGame hopen hpot hblock

theorem Effect.markNumberOnCard_iff {r : Returned} : Effect d msg s (.markNumberOnCard g) r s' ↔
    r = .unit ∧ s.OnlyPlayer msg.sender g ∧
      (s.gameRegistry g).lastDrawnNumber.toNat
        ∈ cardTiles (s.playerRegistry msg.sender g).numberStorage ∧
      s' = s.markedBy msg g := by
  refine ⟨fun h => ?_, ?_⟩
  · cases h with
    | markNumberOnCard hplayer hmem => exact ⟨rfl, hplayer, hmem, rfl⟩
  · rintro ⟨rfl, hplayer, hmem, rfl⟩
    exact .markNumberOnCard hplayer hmem

namespace Storage

theorem joined_record (s : Storage) (d : Deployment) (msg : Msg) (g : Bytes32) (pot : Uint64) :
    (s.joined d msg g pot).gameRegistry g = { s.gameRegistry g with prizePool := pot } := by
  rw [joined, setCard_gameRegistry, setGame_gameRegistry, if_pos rfl]

theorem joined_card_of_ne (s : Storage) (d : Deployment) (g : Bytes32) (pot : Uint64)
    (hp : p ≠ msg.sender) :
    (s.joined d msg g pot).playerRegistry p g = s.playerRegistry p g := by
  rw [joined, setCard_playerRegistry, if_neg fun h => hp h.1, setGame_playerRegistry]

theorem markedBy_card_of_ne (s : Storage) (g : Bytes32) (hp : p ≠ msg.sender) :
    (s.markedBy msg g).playerRegistry p g = s.playerRegistry p g := by
  rw [markedBy, setCard_playerRegistry, if_neg fun h => hp h.1]

/-- The last pot written stays, and both players have their cards. -/
theorem joined_twice (s : Storage) (d : Deployment) (msg msg' : Msg) (g : Bytes32)
    (pot pot' : Uint64) :
    (s.joined d msg g pot).joined d msg' g pot'
      = ((s.setGame g { s.gameRegistry g with prizePool := pot' }).setCard msg.sender g
          (newCard d msg.block)).setCard msg'.sender g (newCard d msg'.block) := by
  have hrecord := s.joined_record d msg g pot
  unfold joined at hrecord ⊢
  rw [hrecord, setCard_setGame, setGame_setGame]

theorem joined_joined (s : Storage) (hp : msg.sender ≠ msg'.sender) (pot pot' pot'' : Uint64) :
    (s.joined d msg g pot).joined d msg' g pot'
      = (s.joined d msg' g pot'').joined d msg g pot' := by
  rw [joined_twice, joined_twice]
  exact setCard_comm _ (fun h => hp h.1) _ _

theorem joined_markedBy (s : Storage) (d : Deployment) (hp : msg.sender ≠ msg'.sender)
    (pot : Uint64) :
    (s.joined d msg g pot).markedBy msg' g = (s.markedBy msg' g).joined d msg g pot := by
  have hcards : ¬ (msg.sender = msg'.sender ∧ g = g) := fun h => hp h.1
  rw [markedBy, joined_record, joined_card_of_ne _ _ _ _ hp.symm, joined]
  rw [setCard_comm _ hcards]
  rfl

theorem markedBy_markedBy (s : Storage) (hp : msg.sender ≠ msg'.sender) :
    (s.markedBy msg g).markedBy msg' g = (s.markedBy msg' g).markedBy msg g := by
  have hcards : ¬ (msg.sender = msg'.sender ∧ g = g) := fun h => hp h.1
  rw [markedBy, markedBy_card_of_ne _ _ hp.symm, markedBy, setCard_comm _ hcards, markedBy.eq_def
    (s.markedBy msg' g), markedBy_card_of_ne _ _ hp]
  rfl

end Storage

/-- Joins and marks of different players in one game. -/
theorem Effect.swap_of_players (hX : Effect d msg s X rX s₁) (hY : Effect d msg' s₁ Y rY s₂)
    (hcX : X.JoinsOrMarks g) (hcY : Y.JoinsOrMarks g) (hp : msg.sender ≠ msg'.sender) :
    SwapsTo d msg msg' X Y rX rY s s₁ s₂ := by
  rcases hcX with rfl | rfl
  · obtain ⟨rfl, hopen, hblock, pot, hpot, rfl⟩ := joinGame_iff.mp hX
    have hrecord := s.joined_record d msg g pot
    rcases hcY with rfl | rfl
    · -- the pots add up in either order: both players pay the same fee
      obtain ⟨rfl, hopen', hblock', pot', hpot', rfl⟩ := joinGame_iff.mp hY
      have hrecord' := s.joined_record d msg' g pot
      have hfirst : s.JoinOpen msg'.block.timestamp g := hopen'.congr rfl (by rw [hrecord])
      have hsecond : (s.joined d msg' g pot).JoinOpen msg.block.timestamp g :=
        hopen.congr rfl (by rw [hrecord'])
      rw [hrecord] at hpot'
      refine ⟨_, joinGame_iff.mpr ⟨rfl, hfirst, hblock', pot, hpot, rfl⟩,
        joinGame_iff.mpr ⟨rfl, hsecond, hblock, pot', ?_, s.joined_joined hp _ _ _⟩, rfl, rfl⟩
      rw [hrecord']
      exact hpot'
    · obtain ⟨rfl, hplayer', hmem', rfl⟩ := markNumberOnCard_iff.mp hY
      have hcard := s.joined_card_of_ne d g pot hp.symm
      have hfirst : s.OnlyPlayer msg'.sender g :=
        hplayer'.congr (by rw [hrecord]) (by rw [hrecord]) hcard.symm
      rw [hrecord, hcard] at hmem'
      exact ⟨_, markNumberOnCard_iff.mpr ⟨rfl, hfirst, hmem', rfl⟩,
        joinGame_iff.mpr ⟨rfl, hopen.congr rfl rfl, hblock, pot, hpot, s.joined_markedBy d hp pot⟩,
        rfl, rfl⟩
  · obtain ⟨rfl, hplayer, hmem, rfl⟩ := markNumberOnCard_iff.mp hX
    rcases hcY with rfl | rfl
    · obtain ⟨rfl, hopen', hblock', pot', hpot', rfl⟩ := joinGame_iff.mp hY
      have hrecord := s.joined_record d msg' g pot'
      have hcard := s.joined_card_of_ne d g pot' hp
      have hsecond : (s.joined d msg' g pot').OnlyPlayer msg.sender g :=
        hplayer.congr (by rw [hrecord]) (by rw [hrecord]) hcard
      refine ⟨_, joinGame_iff.mpr ⟨rfl, hopen'.congr rfl rfl, hblock', pot', hpot', rfl⟩,
        markNumberOnCard_iff.mpr ⟨rfl, hsecond, ?_, (s.joined_markedBy d hp.symm pot').symm⟩,
        rfl, rfl⟩
      rw [hrecord, hcard]
      exact hmem
    · obtain ⟨rfl, hplayer', hmem', rfl⟩ := markNumberOnCard_iff.mp hY
      have hcard := s.markedBy_card_of_ne g hp
      have hcard' := s.markedBy_card_of_ne g hp.symm
      rw [hcard'] at hmem'
      refine ⟨_, markNumberOnCard_iff.mpr ⟨rfl, hplayer'.congr rfl rfl hcard'.symm, hmem', rfl⟩,
        markNumberOnCard_iff.mpr ⟨rfl, hplayer.congr rfl rfl hcard, ?_, s.markedBy_markedBy hp⟩,
        rfl, rfl⟩
      rw [hcard]
      exact hmem

-- ============================================================================
-- Swapping two calls
-- ============================================================================

/-- The calls concern different games, or they are joins and marks of
    different players in one game. -/
def Independent (d : Deployment) (msg msg' : Msg) (X Y : Call) : Prop :=
  ∃ g g', X.game? d msg = some g ∧ Y.game? d msg' = some g' ∧
    (g ≠ g' ∨ (g = g' ∧ msg.sender ≠ msg'.sender ∧ X.JoinsOrMarks g ∧ Y.JoinsOrMarks g))

/-- The caller may need the prize of the first call for the fee of the second. -/
def NeedsPrize (msg msg' : Msg) (X Y : Call) : Prop :=
  msg.sender = msg'.sender ∧ (∃ g, X = .claimPrize g) ∧ (Y = .createGame ∨ ∃ g, Y = .joinGame g)

theorem Independent.swapsTo (h : Independent d msg msg' X Y) (hX : Effect d msg s X rX s₁)
    (hY : Effect d msg' s₁ Y rY s₂) : SwapsTo d msg msg' X Y rX rY s s₁ s₂ := by
  obtain ⟨g, g', hgX, hgY, hg | ⟨rfl, hp, hcX, hcY⟩⟩ := h
  · exact hX.swap_of_ne hY hgX hgY hg
  · exact hX.swap_of_players hY hcX hcY hp

/-- **Independence of calls.** -/
theorem independent_calls
    (hrun : WorldRun d (World.initial (BingoToken.deployed deployer)) l w)
    (hsenders : ∀ e ∈ l, e.sender ≠ d.this) (hp : msg.sender ≠ d.this)
    (hq : msg'.sender ≠ d.this) (hindependent : Independent d msg msg' X Y)
    (hneeds : ¬ NeedsPrize msg msg' X Y) (hX : w.exec d ⟨msg, .game X⟩ = .ok (w₁, rX))
    (hY : w₁.exec d ⟨msg', .game Y⟩ = .ok (w₂, rY)) :
    ∃ w₁', w.exec d ⟨msg', .game Y⟩ = .ok (w₁', rY) ∧
      w₁'.exec d ⟨msg, .game X⟩ = .ok (w₂, rX) := by
  have hsound := run_sound hrun hsenders
  have hcovers := run_covers hrun hsenders
  obtain ⟨heffX, hcallsX⟩ := World.exec_game_iff.mp hX
  obtain ⟨heffY, hcallsY⟩ := World.exec_game_iff.mp hY
  obtain ⟨s₁', heffY', heffX', hmoveY, hmoveX⟩ := hindependent.swapsTo heffX heffY
  -- what the token was asked for, in the order that succeeded
  rw [Move.calls_of, Move.run_iff hsound] at hcallsX
  obtain ⟨henabledX, happlyX⟩ := hcallsX
  rw [Move.calls_of, hmoveY, ← happlyX, Move.run_iff (Move.apply_sound hsound henabledX)] at hcallsY
  obtain ⟨henabledY, happlyY⟩ := hcallsY
  obtain ⟨henabledY', henabledX', hcomm⟩ := Move.swap hsound henabledX henabledY
    (fun h => hp (Move.party_of h).symm) (fun h => hq (Move.party_of h).symm)
    (fun a fee fee' h h' => by rw [(Move.of_eq_charge h).2.1, (Move.of_eq_charge h').2.1])
    (fun a prize fee h h' => by
      obtain ⟨hwinner, g, hclaim, -⟩ := Move.of_eq_pay h
      obtain ⟨hpayer, -, henters⟩ := Move.of_eq_charge h'
      exact hneeds ⟨hwinner.symm.trans hpayer, ⟨g, hclaim⟩, henters⟩)
    (fun a prize h => by
      obtain ⟨-, g, -, rfl⟩ := Move.of_eq_pay h
      have hpot := w.game.prizePool_le_pots g
      rw [BitVec.le_def, uint256_toNat_uint64]
      omega)
  have hsound' := Move.apply_sound hsound henabledY'
  refine ⟨⟨s₁', (Move.of msg' w.game Y).apply d w.token⟩, World.exec_game_iff.mpr ⟨heffY', ?_⟩,
    World.exec_game_iff.mpr ⟨heffX', ?_⟩⟩
  · rw [Move.calls_of]
    exact (Move.run_iff hsound _).mpr ⟨henabledY', rfl⟩
  · rw [Move.calls_of, hmoveX]
    exact (Move.run_iff hsound' _).mpr ⟨henabledX', hcomm.trans happlyY⟩

theorem independent_calls_sample :
    ∃ w₁ w₁' w₂ rX rY,
      (Sample.played 5).2.exec Sample.deployment ⟨Sample.msg 17 1500 3, .game .createGame⟩
        = .ok (w₁, rX) ∧
      w₁.exec Sample.deployment ⟨Sample.msg 34 1500 3, .game (.joinGame Sample.gameId)⟩
        = .ok (w₂, rY) ∧
      (Sample.played 5).2.exec Sample.deployment
        ⟨Sample.msg 34 1500 3, .game (.joinGame Sample.gameId)⟩ = .ok (w₁', rY) ∧
      w₁'.exec Sample.deployment ⟨Sample.msg 17 1500 3, .game .createGame⟩ = .ok (w₂, rX) := by
  have hboth : ((Sample.played 5).2.exec Sample.deployment
      ⟨Sample.msg 17 1500 3, .game .createGame⟩ >>= fun x => x.1.exec Sample.deployment
        ⟨Sample.msg 34 1500 3, .game (.joinGame Sample.gameId)⟩).isOk = true := by
    decide +kernel
  obtain ⟨y, hy⟩ := exists_of_isOk hboth
  obtain ⟨⟨w₁, rX⟩, hX, hY⟩ := bind_eq_ok.mp hy
  have hgames : newGameId Sample.deployment (Sample.msg 17 1500 3) ≠ Sample.gameId := by
    decide +kernel
  obtain ⟨w₁', hY', hX'⟩ := independent_calls (Sample.played_run 5) (by decide +kernel)
    (by decide) (by decide) ⟨_, _, rfl, rfl, Or.inl hgames⟩
    (fun h => absurd h.1 (by decide)) hX hY
  exact ⟨w₁, w₁', y.1, rX, y.2, hX, hY, hY', hX'⟩

end BitmaskBingo
