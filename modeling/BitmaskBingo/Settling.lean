/-
  BitmaskBingo.Settling

  A batch of claims.  Whoever claims whatever, in whatever order, the claims
  that are paid are the first ones by a winner for each game; each pays the pot
  that was there before the batch, so no winner's claim is ever at the expense
  of another game's winner, and the order of the claims on different games
  leaves no trace.
-/

import BitmaskBingo.Custody
import BitmaskBingo.Independence
import BitmaskBingo.Lib.Batch

namespace BitmaskBingo

open Lib BingoToken

variable {d : Deployment} {deployer : Address} {l : List (Step bingoToken)}
  {w w' : World bingoToken} {p : Address} {g : Bytes32}

-- ============================================================================
-- Claims
-- ============================================================================

/-- A call of `claimPrize`. -/
structure PrizeClaim where
  msg : Msg
  game : Bytes32

def PrizeClaim.tx (c : PrizeClaim) : Tx bingoToken := ⟨c.msg, .game (.claimPrize c.game)⟩

/-- The claim is a winner's. -/
structure PrizeClaim.Due (w : World bingoToken) (c : PrizeClaim) : Prop where
  nonzero : c.msg.sender ≠ 0
  exists_ : (w.game.gameRegistry c.game).createdAt ≠ 0
  not_over : (w.game.gameRegistry c.game).lastDrawnNumber ≠ 1000
  member : (w.game.playerRegistry c.msg.sender c.game).numberStorage ≠ 0
  wins : w.game.checkForWinner c.msg.sender c.game = true

instance (w : World bingoToken) : DecidablePred (PrizeClaim.Due w) := fun c =>
  decidable_of_iff (c.msg.sender ≠ 0 ∧ (w.game.gameRegistry c.game).createdAt ≠ 0 ∧
      (w.game.gameRegistry c.game).lastDrawnNumber ≠ 1000 ∧
      (w.game.playerRegistry c.msg.sender c.game).numberStorage ≠ 0 ∧
      w.game.checkForWinner c.msg.sender c.game = true)
    ⟨fun ⟨h₁, h₂, h₃, h₄, h₅⟩ => ⟨h₁, h₂, h₃, h₄, h₅⟩, fun h =>
      ⟨h.nonzero, h.exists_, h.not_over, h.member, h.wins⟩⟩

/-- The claims of a batch that are paid: the first due one for each game. -/
def payable (w : World bingoToken) (cs : List PrizeClaim) : List PrizeClaim :=
  Batch.firsts PrizeClaim.game (cs.filter (PrizeClaim.Due w))

/-- The pots that the claims bring `p`. -/
def prizesOf (w : World bingoToken) (p : Address) (cs : List PrizeClaim) : Nat :=
  (cs.map fun c =>
    if c.msg.sender = p then (w.game.gameRegistry c.game).prizePool.toNat else 0).sum

/-- The world after a claim was paid. -/
def World.settled (d : Deployment) (w : World bingoToken) (c : PrizeClaim) : World bingoToken :=
  ⟨w.game.setGame c.game (w.game.gameRegistry c.game).finished,
    paid d c.msg.sender (uint256 (w.game.gameRegistry c.game).prizePool) w.token⟩

-- ============================================================================
-- One claim
-- ============================================================================

/-- The books balance and the game can pay every pot. -/
structure Funded (d : Deployment) (w : World bingoToken) : Prop where
  sound : w.token.Sound d.this
  covers : w.game.pots ≤ (w.token.balances d.this).toNat

theorem run_funded (hrun : WorldRun d (World.initial (deployed deployer)) l w)
    (hsenders : ∀ e ∈ l, e.sender ≠ d.this) : Funded d w :=
  ⟨run_sound hrun hsenders, run_covers hrun hsenders⟩

theorem Funded.funds (h : Funded d w) (g : Bytes32) :
    uint256 (w.game.gameRegistry g).prizePool ≤ w.token.balances d.this := by
  have hcovers := h.covers
  have hpot := w.game.prizePool_le_pots g
  rw [BitVec.le_def, uint256_toNat_uint64]
  omega

/-- A claim is paid exactly when it is due. -/
theorem exec_claim_iff (h : Funded d w) (c : PrizeClaim) {w' : World bingoToken} {r : Returned} :
    w.exec d c.tx = .ok (w', r) ↔ c.Due w ∧ w' = w.settled d c ∧ r = .success true := by
  have hprize : (uint256 (w.game.gameRegistry c.game).prizePool).toNat < 2 ^ 64 := by
    rw [uint256_toNat_uint64]
    exact BitVec.isLt _
  have hpay : ∀ t', runCalls (bingoToken.callee d c.msg)
      (tokenCalls d c.msg w.game (.claimPrize c.game)) w.token = .ok t' ↔ _ :=
    fun _ => pay_iff h.sound hprize
  rw [PrizeClaim.tx, World.exec_game_iff, hpay]
  refine ⟨?_, ?_⟩
  · rintro ⟨heff, hnonzero, -, htoken⟩
    obtain ⟨s', t'⟩ := w'
    subst htoken
    cases heff with
    | claimPrize hplayer hwin =>
        exact ⟨⟨hnonzero, hplayer.exists_, hplayer.not_over, hplayer.member, hwin⟩, rfl, rfl⟩
  · rintro ⟨hdue, rfl, rfl⟩
    exact ⟨.claimPrize ⟨hdue.exists_, hdue.not_over, hdue.member⟩ hdue.wins, hdue.nonzero,
      h.funds c.game, rfl⟩

/-- Paying a claim leaves the records of the other games. -/
theorem settled_record (c : PrizeClaim) (g : Bytes32) :
    (w.settled d c).game.gameRegistry g
      = if g = c.game then (w.game.gameRegistry c.game).finished else w.game.gameRegistry g :=
  Storage.setGame_gameRegistry ..

/-- Paying a claim keeps the other pots covered. -/
theorem Funded.settled (h : Funded d w) (c : PrizeClaim) : Funded d (w.settled d c) := by
  refine ⟨paid_sound h.sound (h.funds c.game), ?_⟩
  have hpots := w.game.pots_setGame c.game (w.game.gameRegistry c.game).finished
  have hempty : (w.game.gameRegistry c.game).finished.prizePool.toNat = 0 := rfl
  have hpaid := paid_balances c.msg.sender h.sound (h.funds c.game) d.this
  have hcovers := h.covers
  rw [if_pos rfl, uint256_toNat_uint64] at hpaid
  show (w.game.setGame c.game _).pots ≤ ((paid d c.msg.sender _ w.token).balances d.this).toNat
  omega

/-- Paying a claim ends its game and leaves the claims on the other games as
    they were. -/
theorem settled_due (c c' : PrizeClaim) :
    c'.Due (w.settled d c) ↔ c'.Due w ∧ c'.game ≠ c.game := by
  have hrecord := settled_record (d := d) (w := w) c c'.game
  by_cases hg : c'.game = c.game
  · rw [if_pos hg] at hrecord
    refine iff_of_false (fun h => h.not_over ?_) fun h => h.2 hg
    rw [hrecord]
    rfl
  · rw [if_neg hg] at hrecord
    refine ⟨fun h => ⟨⟨h.nonzero, ?_, ?_, h.member, h.wins⟩, hg⟩,
      fun ⟨h, _⟩ => ⟨h.nonzero, ?_, ?_, h.member, h.wins⟩⟩
    · rw [← hrecord]
      exact h.exists_
    · rw [← hrecord]
      exact h.not_over
    · rw [hrecord]
      exact h.exists_
    · rw [hrecord]
      exact h.not_over

/-- Claims on different games leave the same world in either order. -/
theorem settled_comm {c c' : PrizeClaim} (hg : c.game ≠ c'.game) :
    (w.settled d c).settled d c' = (w.settled d c').settled d c := by
  have hrecord : (w.settled d c).game.gameRegistry c'.game = w.game.gameRegistry c'.game := by
    rw [settled_record, if_neg hg.symm]
  have hrecord' : (w.settled d c').game.gameRegistry c.game = w.game.gameRegistry c.game := by
    rw [settled_record, if_neg hg]
  simp only [World.settled] at hrecord hrecord' ⊢
  rw [hrecord, hrecord', Storage.setGame_comm w.game hg]
  simp only [paid, Ledger.transfer_comm w.token.balances d.this c.msg.sender]

/-- Claims are served exclusively. -/
theorem claims_exclusive :
    Batch.Exclusive PrizeClaim.Due (World.settled d) PrizeClaim.game (Funded d) where
  keeps := fun h _ => h.settled _
  closes := fun _ _ c' => settled_due _ c'
  comm := fun _ _ _ hg => settled_comm hg

-- ============================================================================
-- A batch of claims
-- ============================================================================

/-- Playing a batch serves it. -/
theorem play_serves (hw : Funded d w) (cs : List PrizeClaim) :
    (w.play d (cs.map PrizeClaim.tx)).1.map Step.tx
        = (Batch.serve PrizeClaim.Due (World.settled d) w cs).1.map PrizeClaim.tx ∧
      (w.play d (cs.map PrizeClaim.tx)).2
        = (Batch.serve PrizeClaim.Due (World.settled d) w cs).2 := by
  induction cs generalizing w with
  | nil => exact ⟨rfl, rfl⟩
  | cons c cs ih =>
      rw [List.map_cons, Batch.serve]
      by_cases hdue : c.Due w
      · obtain ⟨htx, hworld⟩ := ih (hw.settled c)
        have hexec := (exec_claim_iff hw c).mpr ⟨hdue, rfl, rfl⟩
        rw [World.play_cons_ok hexec, if_pos hdue, List.map_cons, List.map_cons, htx]
        exact ⟨rfl, hworld⟩
      · have hrefused : ∀ x, w.exec d c.tx ≠ .ok x := fun x hx =>
          hdue ((exec_claim_iff hw c).mp hx).1
        cases hexec : w.exec d c.tx with
        | ok x => exact absurd hexec (hrefused x)
        | error r =>
            rw [World.play_cons_error hexec, if_neg hdue]
            exact ih hw

/-- What claims on different games pay `p`. -/
theorem settled_balances (hp : p ≠ d.this) {cs : List PrizeClaim} (hw : Funded d w)
    (hgames : cs.Pairwise fun c c' => c.game ≠ c'.game) :
    ((cs.foldl (World.settled d) w).token.balances p).toNat
      = (w.token.balances p).toNat + prizesOf w p cs := by
  induction cs generalizing w with
  | nil => rfl
  | cons c cs ih =>
      obtain ⟨hne, hgames⟩ := List.pairwise_cons.mp hgames
      have hsame : prizesOf (w.settled d c) p cs = prizesOf w p cs := by
        rw [prizesOf, prizesOf]
        congr 1
        refine List.map_congr_left fun c' hc' => ?_
        rw [settled_record, if_neg (hne c' hc').symm]
      have hpaid := paid_balances c.msg.sender hw.sound (hw.funds c.game) p
      rw [if_neg hp, uint256_toNat_uint64] at hpaid
      rw [List.foldl_cons, ih (hw.settled c) hgames, hsame]
      simp only [prizesOf, List.map_cons, List.sum_cons, World.settled, eq_comm] at hpaid ⊢
      omega

/-- A batch of claims ends the claimed games. -/
theorem settled_records (cs : List PrizeClaim) (g : Bytes32) :
    (cs.foldl (World.settled d) w).game.gameRegistry g
      = if g ∈ cs.map PrizeClaim.game then (w.game.gameRegistry g).finished
        else w.game.gameRegistry g := by
  induction cs generalizing w with
  | nil => rfl
  | cons c cs ih =>
      rw [List.foldl_cons, ih, settled_record, List.map_cons]
      by_cases hg : g = c.game
      · subst hg
        rw [if_pos rfl, if_pos List.mem_cons_self]
        exact ite_self _
      · rw [if_neg hg]
        simp only [List.mem_cons, hg, false_or]

theorem payable_games (w : World bingoToken) (cs : List PrizeClaim) (g : Bytes32) :
    g ∈ (payable w cs).map PrizeClaim.game ↔ ∃ c ∈ cs, c.Due w ∧ c.game = g := by
  rw [payable, Batch.mem_firsts_keys, List.mem_map]
  simp only [List.mem_filter, decide_eq_true_eq, and_assoc]

/-- **Every winner of a batch is paid.**  Of any claims, in any order, exactly
    the first due one for each game succeeds; every account gains the pots it
    was due before the batch, every game with a due claim is over, and batches
    that pay the same claims end in the same world. -/
theorem claims_settle (hrun : WorldRun d (World.initial (deployed deployer)) l w)
    (hsenders : ∀ e ∈ l, e.sender ≠ d.this) (cs : List PrizeClaim) :
    (w.play d (cs.map PrizeClaim.tx)).1.map Step.tx = (payable w cs).map PrizeClaim.tx ∧
    (∀ p, p ≠ d.this →
      ((w.play d (cs.map PrizeClaim.tx)).2.token.balances p).toNat
        = (w.token.balances p).toNat + prizesOf w p (payable w cs)) ∧
    (∀ g, (∃ c ∈ cs, c.Due w ∧ c.game = g) →
      (w.play d (cs.map PrizeClaim.tx)).2.game.gameRegistry g
        = (w.game.gameRegistry g).finished) ∧
    (∀ g, (¬ ∃ c ∈ cs, c.Due w ∧ c.game = g) →
      (w.play d (cs.map PrizeClaim.tx)).2.game.gameRegistry g = w.game.gameRegistry g) ∧
    (∀ cs', (payable w cs').Perm (payable w cs) →
      (w.play d (cs'.map PrizeClaim.tx)).2 = (w.play d (cs.map PrizeClaim.tx)).2) := by
  have hw := run_funded hrun hsenders
  have hserves := fun cs => play_serves hw cs
  have hserved : ∀ cs, Batch.serve PrizeClaim.Due (World.settled d) w cs
      = (payable w cs, (payable w cs).foldl (World.settled d) w) :=
    Batch.serve_eq claims_exclusive hw
  simp only [hserved] at hserves
  refine ⟨(hserves cs).1, fun p hp => ?_, fun g hg => ?_, fun g hg => ?_, fun cs' hperm => ?_⟩
  · rw [(hserves cs).2]
    exact settled_balances hp hw (Batch.firsts_pairwise _)
  · rw [(hserves cs).2, settled_records, if_pos ((payable_games w cs g).mpr hg)]
  · rw [(hserves cs).2, settled_records, if_neg fun h => hg ((payable_games w cs g).mp h)]
  · have hsame := Batch.serve_perm claims_exclusive hw hperm
    rw [hserved, hserved] at hsame
    rw [(hserves cs').2, (hserves cs).2]
    exact hsame

/-- The loser, the winner, and the winner once more. -/
def Sample.batch : List PrizeClaim :=
  [⟨msg 34 6300 17, gameId⟩, ⟨claim, gameId⟩, ⟨claim, gameId⟩]

theorem claims_settle_sample :
    (payable (Sample.played 14).2 Sample.batch).length = 1 ∧
    (((Sample.played 14).2.play Sample.deployment
        (Sample.batch.map PrizeClaim.tx)).2.token.balances 17).toNat
      = ((Sample.played 14).2.token.balances 17).toNat
        + prizesOf (Sample.played 14).2 17 (payable (Sample.played 14).2 Sample.batch) ∧
    prizesOf (Sample.played 14).2 17 (payable (Sample.played 14).2 Sample.batch) = 2000 :=
  ⟨by decide +kernel,
    (claims_settle (Sample.played_run 14) (by decide +kernel) Sample.batch).2.1 17 (by decide),
    by decide +kernel⟩

end BitmaskBingo
