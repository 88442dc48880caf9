/-
  BitmaskBingo.Turns

  What the turn duration buys the players.  After a draw nobody can draw the
  next number of the game for a whole turn, so whoever has the number can mark
  it until then, whatever everybody else does.  A player who marks within a
  turn of every draw therefore plays plain bingo: the card wins exactly when a
  line of it has been drawn.
-/

import BitmaskBingo.Winning

namespace BitmaskBingo

open Lib StorageUtils

variable {T : Token} {d : Deployment} {t₀ : T.State} {l l₀ : List (Step T)} {w w' w₁ : World T}
  {e : Step T} {p : Address} {g : Bytes32} {D : Nat} {b : Block}

-- ============================================================================
-- The turn after a draw
-- ============================================================================

/-- The number drawn in block `b` is the last one of game `g`. -/
structure Pending (d : Deployment) (g : Bytes32) (b : Block) (s : Storage) : Prop where
  exists_ : (s.gameRegistry g).createdAt ≠ 0
  number : (s.gameRegistry g).lastDrawnNumber.toNat = drawnNumber d b
  since : (s.gameRegistry g).lastDrawnAt.toNat = b.timestamp.toNat

/-- A record with the same number and times. -/
theorem Pending.congr {s s' : Storage} (h : Pending d g b s)
    (hcreated : (s'.gameRegistry g).createdAt = (s.gameRegistry g).createdAt)
    (hnumber : (s'.gameRegistry g).lastDrawnNumber = (s.gameRegistry g).lastDrawnNumber)
    (hsince : (s'.gameRegistry g).lastDrawnAt = (s.gameRegistry g).lastDrawnAt) :
    Pending d g b s' := by
  refine ⟨?_, ?_, ?_⟩
  · rw [hcreated]
    exact h.exists_
  · rw [hnumber]
    exact h.number
  · rw [hsince]
    exact h.since

theorem Steps.draw_pending (h : Steps d w e w') (he : e.draws g) (ht : e.ValidTime) :
    Pending d g e.block w'.game := by
  have heff := (h.of_call he).1
  generalize e.ret = r at heff
  generalize w'.game = s' at heff
  cases heff with
  | drawNumber hplayer hopen hblock =>
      have hrecord : (w.game.setGame g
          ((w.game.gameRegistry g).drawn d e.tx.msg.block)).gameRegistry g
          = (w.game.gameRegistry g).drawn d e.tx.msg.block := by
        rw [Storage.setGame_gameRegistry, if_pos rfl]
      refine ⟨?_, ?_, ?_⟩
      · rw [hrecord]
        exact hplayer.exists_
      · rw [hrecord]
        exact drawn_lastDrawnNumber_toNat _ _
      · rw [hrecord]
        exact uint64_toNat_of_lt ht.2

/-- Within the turn nobody draws, and only a claim takes the number away. -/
theorem Steps.pending (h : Steps d w e w') (hinv : Pending d g b w.game)
    (hturn : D ≤ e.pre.game.gameSettings.minimumTurnDuration.toNat)
    (hsoon : e.time ≤ b.timestamp.toNat + D) (hclaim : ¬ e.claims g) :
    ¬ e.draws g ∧ Pending d g b w'.game := by
  have hdraw : ¬ e.draws g := by
    intro he
    have hlate := (h.of_draws he).2.turned
    have hsince := hinv.since
    have htime : e.block.timestamp.toNat = e.time := rfl
    rw [h.1] at hturn
    omega
  have hrec := h.record g
  refine ⟨hdraw, ?_⟩
  generalize hr : w'.game.gameRegistry g = r at hrec
  cases hrec with
  | same => exact hinv.congr (by rw [hr]) (by rw [hr]) (by rw [hr])
  | created he hnew => exact absurd hnew hinv.exists_
  | joined => exact hinv.congr (by rw [hr]) (by rw [hr]) (by rw [hr])
  | drawn he => exact absurd he hdraw
  | claimed he => exact absurd he hclaim

/-- A stretch of the turn: nobody draws, the number stays, and so does the card
    of whoever does not join again. -/
structure TurnKept (d : Deployment) (g : Bytes32) (b : Block) (w₁ : World T) (l : List (Step T))
    (w : World T) : Prop where
  undrawn : ∀ e ∈ l, ¬ e.draws g
  pending : Pending d g b w.game
  cards : ∀ p, NoRejoin p g l →
    (w.game.playerRegistry p g).numberStorage = (w₁.game.playerRegistry p g).numberStorage

theorem run_turnKept (hrun : WorldRun d w₁ l w) (hpending : Pending d g b w₁.game)
    (hturn : ∀ e ∈ l, D ≤ e.pre.game.gameSettings.minimumTurnDuration.toNat)
    (hsoon : ∀ e ∈ l, e.time ≤ b.timestamp.toNat + D) (hclaim : ∀ e ∈ l, ¬ e.claims g) :
    TurnKept d g b w₁ l w := by
  refine hrun.invariant_of (P := fun l w => TurnKept d g b w₁ l w)
    (Q := fun e => D ≤ e.pre.game.gameSettings.minimumTurnDuration.toNat ∧
      e.time ≤ b.timestamp.toNat + D ∧ ¬ e.claims g)
    (fun e he => ⟨hturn e he, hsoon e he, hclaim e he⟩) ?_ ?_
  · exact ⟨fun e he => absurd he (List.not_mem_nil), hpending, fun _ _ => rfl⟩
  · intro k a e a' _ _ hinv hq hstep
    obtain ⟨hdraw, hpending'⟩ := hstep.pending hinv.pending hq.1 hq.2.1 hq.2.2
    refine ⟨?_, hpending', fun p hjoin => ?_⟩
    · exact List.forall_mem_append.mpr ⟨hinv.undrawn, List.forall_mem_singleton.mpr hdraw⟩
    · obtain ⟨hk, he⟩ := List.forall_mem_append.mp hjoin
      have hkept := hstep.kept hinv.pending.exists_ (he e (List.mem_singleton_self e))
      exact hkept.numbers.trans (hinv.cards p hk)

/-- A member who has the pending number can mark it. -/
theorem Pending.mark {msg : Msg} (h : Pending d g b w.game)
    (hcard : (w.game.playerRegistry msg.sender g).numberStorage ≠ 0)
    (hmem : drawnNumber d b ∈ cardTiles (w.game.playerRegistry msg.sender g).numberStorage) :
    ∃ w', w.exec d ⟨msg, .game (.markNumberOnCard g)⟩ = .ok (w', .unit) ∧
      (w'.game.playerRegistry msg.sender g).hitStorage.getLsbD
        ((cardTiles (w.game.playerRegistry msg.sender g).numberStorage).idxOf (drawnNumber d b))
          = true := by
  have hover : (w.game.gameRegistry g).lastDrawnNumber ≠ 1000 := by
    refine ne_finished_of_lt ?_
    rw [h.number]
    exact drawnNumber_lt d b
  rw [← h.number] at hmem ⊢
  refine ⟨_, exec_mark_iff.mpr ⟨⟨h.exists_, hover, hcard⟩, hmem, rfl, rfl⟩, ?_⟩
  show (((w.game.setCard msg.sender g _).playerRegistry msg.sender g).hitStorage).getLsbD _ = true
  rw [Storage.setCard_playerRegistry, if_pos ⟨rfl, rfl⟩]
  exact (BingoCard.marked_getLsbD hmem _).mpr (Or.inr rfl)

/-- **A turn is long enough to mark.**  From a draw on, as long as the turn
    durations in force are at least `D` and no more than `D` seconds have
    passed, the game is claimed, or nobody has drawn again and every member
    whose card had the number and was not dealt again can still mark it. -/
theorem marking_window (hdraw : Steps d w e w₁) (he : e.draws g) (ht : e.ValidTime)
    (hrun : WorldRun d w₁ l w')
    (hturn : ∀ e' ∈ l, D ≤ e'.pre.game.gameSettings.minimumTurnDuration.toNat)
    (hsoon : ∀ e' ∈ l, e'.time ≤ e.time + D) :
    (∃ e' ∈ l, e'.claims g) ∨
      (∀ e' ∈ l, ¬ e'.draws g) ∧
      ∀ msg : Msg, (w₁.game.playerRegistry msg.sender g).numberStorage ≠ 0 →
        drawnNumber d e.block ∈ cardTiles (w₁.game.playerRegistry msg.sender g).numberStorage →
        NoRejoin msg.sender g l →
        ∃ w'', w'.exec d ⟨msg, .game (.markNumberOnCard g)⟩ = .ok (w'', .unit) ∧
          (w''.game.playerRegistry msg.sender g).hitStorage.getLsbD
            ((cardTiles (w₁.game.playerRegistry msg.sender g).numberStorage).idxOf
              (drawnNumber d e.block)) = true := by
  by_cases hclaim : ∃ e' ∈ l, e'.claims g
  · exact Or.inl hclaim
  · have hkept := run_turnKept hrun (hdraw.draw_pending he ht) hturn hsoon
      fun e' he' hc => hclaim ⟨e', he', hc⟩
    refine Or.inr ⟨hkept.undrawn, fun msg hcard hmem hjoin => ?_⟩
    have hsame := hkept.cards msg.sender hjoin
    rw [← hsame] at hcard hmem ⊢
    exact hkept.pending.mark hcard hmem

/-- The first draw of the sample game. -/
def Sample.drawing : List (Step bingoToken) × World bingoToken :=
  (Sample.played 6).2.play deployment [txs[6]]

/-- Something else happens in the turn. -/
def Sample.turn : List (Step bingoToken) × World bingoToken :=
  drawing.2.play deployment [⟨msg 34 5200 11, .token (.approve 0xb1 1)⟩]

theorem marking_window_sample :
    ∃ e ∈ Sample.drawing.1, e.draws Sample.gameId ∧ Sample.turn.1.length = 1 ∧
      ∃ w', Sample.turn.2.exec Sample.deployment
        ⟨Sample.msg 17 5300 12, .game (.markNumberOnCard Sample.gameId)⟩ = .ok (w', .unit) := by
  have hlen : Sample.drawing.1.length = 1 := by decide +kernel
  obtain ⟨e, he⟩ := List.length_eq_one_iff.mp hlen
  have hmem : e ∈ Sample.drawing.1 := he ▸ List.mem_singleton_self e
  have hdraw : WorldRun Sample.deployment (Sample.played 6).2 Sample.drawing.1 Sample.drawing.2 :=
    World.play_run ..
  rw [he] at hdraw
  have hturn : WorldRun Sample.deployment Sample.drawing.2 Sample.turn.1 Sample.turn.2 :=
    World.play_run ..
  have hfacts : ∀ e ∈ Sample.drawing.1, e.draws Sample.gameId ∧ e.ValidTime ∧
      drawnNumber Sample.deployment e.block
        ∈ cardTiles (Sample.drawing.2.game.playerRegistry
            (Sample.msg 17 5300 12).sender Sample.gameId).numberStorage ∧
      ∀ e' ∈ Sample.turn.1, e'.time ≤ e.time + 300 := by decide +kernel
  obtain ⟨hdraws, hvalid, hnumber, hsoon⟩ := hfacts e hmem
  have hwindow := marking_window (Run.single_iff.mp hdraw) hdraws hvalid hturn
    (by decide +kernel) hsoon
  obtain ⟨w', hexec, -⟩ := (hwindow.resolve_left (by decide +kernel)).2
    (Sample.msg 17 5300 12) (by decide +kernel) hnumber (by decide +kernel)
  exact ⟨e, hmem, hdraws, by decide +kernel, w', hexec⟩

-- ============================================================================
-- Schedules
-- ============================================================================

def Tx.time (tx : Tx T) : Nat := tx.msg.block.timestamp.toNat

/-- The function of the game that is called, if it is the game. -/
def Tx.call? (tx : Tx T) : Option Call :=
  match tx.action with
  | .game c => some c
  | .token _ => none

/-- After every call of `drawNumber` the player calls `markNumberOnCard` within
    `D` seconds. -/
def Prompt (p : Address) (g : Bytes32) (D : Nat) : List (Tx T) → Prop
  | [] => True
  | tx :: txs =>
      (tx.call? = some (.drawNumber g) →
        ∃ m ∈ txs, m.msg.sender = p ∧ m.call? = some (.markNumberOnCard g) ∧
          m.time ≤ tx.time + D) ∧
      Prompt p g D txs

instance decidablePrompt (p : Address) (g : Bytes32) (D : Nat) :
    (txs : List (Tx T)) → Decidable (Prompt p g D txs)
  | [] => .isTrue trivial
  | _ :: txs =>
      have := decidablePrompt p g D txs
      inferInstanceAs (Decidable (_ ∧ _))

/-- The timestamps never decrease along the schedule. -/
def Sorted (txs : List (Tx T)) : Prop := txs.Pairwise fun tx tx' => tx.time ≤ tx'.time

instance (txs : List (Tx T)) : Decidable (Sorted txs) :=
  inferInstanceAs (Decidable (txs.Pairwise _))

theorem World.play_append (d : Deployment) (w : World T) (txs txs' : List (Tx T)) :
    w.play d (txs ++ txs')
      = ((w.play d txs).1 ++ ((w.play d txs).2.play d txs').1,
          ((w.play d txs).2.play d txs').2) := by
  induction txs generalizing w with
  | nil => rfl
  | cons tx txs ih =>
      rw [List.cons_append]
      cases h : w.exec d tx with
      | error r => rw [World.play_cons_error h, World.play_cons_error h, ih]
      | ok x =>
          obtain ⟨w', r⟩ := x
          rw [World.play_cons_ok h, World.play_cons_ok h, ih, List.cons_append]

/-- A step of the history was scheduled. -/
theorem World.mem_play (d : Deployment) (w : World T) (txs : List (Tx T)) :
    ∀ e ∈ (w.play d txs).1, e.tx ∈ txs := by
  induction txs generalizing w with
  | nil => exact fun e he => absurd he List.not_mem_nil
  | cons tx txs ih =>
      intro e he
      cases h : w.exec d tx with
      | error r =>
          rw [World.play_cons_error h] at he
          exact List.mem_cons_of_mem tx (ih w e he)
      | ok x =>
          obtain ⟨w', r⟩ := x
          rw [World.play_cons_ok h, List.mem_cons] at he
          rcases he with rfl | he
          · exact List.mem_cons_self
          · exact List.mem_cons_of_mem tx (ih w' e he)

/-- The conditions of a prompt player: nobody claims, the player has a card and
    is not dealt another, and the turns last at least `D`. -/
structure Undisturbed (p : Address) (g : Bytes32) (D : Nat) (l : List (Step T)) : Prop where
  unclaimed : ∀ e ∈ l, ¬ e.claims g
  noRejoin : NoRejoin p g l
  turns : ∀ e ∈ l, D ≤ e.pre.game.gameSettings.minimumTurnDuration.toNat

theorem Undisturbed.of_append {l' : List (Step T)} (h : Undisturbed p g D (l ++ l')) :
    Undisturbed p g D l ∧ Undisturbed p g D l' := by
  obtain ⟨hclaim, hclaim'⟩ := List.forall_mem_append.mp h.unclaimed
  obtain ⟨hjoin, hjoin'⟩ := List.forall_mem_append.mp h.noRejoin
  obtain ⟨hturn, hturn'⟩ := List.forall_mem_append.mp h.turns
  exact ⟨⟨hclaim, hjoin, hturn⟩, ⟨hclaim', hjoin', hturn'⟩⟩

/-- A drawn number is the result of a draw. -/
theorem mem_drawnNumbers_cons {n : Nat} :
    n ∈ drawnNumbers g (e :: l) ↔
      (e.draws g ∧ (e.post.game.gameRegistry g).lastDrawnNumber.toNat = n) ∨
        n ∈ drawnNumbers g l := by
  by_cases he : e.draws g
  · simp [drawnNumbers, he, eq_comm]
  · simp [drawnNumbers, he]

-- ============================================================================
-- The prompt player
-- ============================================================================

/-- A moment of a run in which `p` has been dealt a card of game `g`. -/
structure Seated (d : Deployment) (t₀ : T.State) (p : Address) (g : Bytes32) (l₀ : List (Step T))
    (w : World T) : Prop where
  run : WorldRun d (World.initial t₀) l₀ w
  valid : ∀ e ∈ l₀, e.ValidTime
  dealt : Dealt p g l₀

theorem Seated.append (h : Seated d t₀ p g l₀ w) (hrun : WorldRun d w l w')
    (ht : ∀ e ∈ l, e.ValidTime) : Seated d t₀ p g (l₀ ++ l) w' := by
  refine ⟨h.run.append hrun, List.forall_mem_append.mpr ⟨h.valid, ht⟩, ?_⟩
  obtain ⟨e, he, hdeal⟩ := h.dealt
  exact ⟨e, List.mem_append_left _ he, hdeal⟩

theorem Seated.step (h : Seated d t₀ p g l₀ w) (hstep : Steps d w e w') (ht : e.ValidTime) :
    Seated d t₀ p g (l₀ ++ [e]) w' :=
  h.append (Run.single_iff.mpr hstep) fun e' he' => by rwa [List.mem_singleton.mp he']

theorem Seated.step_numbers (h : Seated d t₀ p g l₀ w) (hstep : Steps d w e w')
    (hjoin : ¬ (e.sender = p ∧ e.joins g)) :
    (w'.game.playerRegistry p g).numberStorage = (w.game.playerRegistry p g).numberStorage := by
  have hkept := step_kept h.run h.valid h.dealt .nil (fun _ he => absurd he List.not_mem_nil)
    hstep hjoin
  exact hkept.numbers

theorem Seated.progress (h : Seated d t₀ p g l₀ w) (hrun : WorldRun d w l w')
    (ht : ∀ e ∈ l, e.ValidTime) (hjoin : NoRejoin p g l) :
    Progress p g (w.game.playerRegistry p g) l (w'.game.playerRegistry p g) :=
  run_progress h.run h.valid h.dealt hrun ht hjoin

theorem play_valid {txs : List (Tx T)} (ht : ∀ tx ∈ txs, tx.msg.block.ValidTime) :
    ∀ e ∈ (w.play d txs).1, e.ValidTime := fun e he => ht e.tx (w.mem_play d txs e he)

/-- After a draw of a number that the player has, a call of `markNumberOnCard`
    within the turn hits it, and it stays hit. -/
theorem Seated.draw_hits {txs : List (Tx T)} {m : Tx T} (h : Seated d t₀ p g l₀ w)
    (ht : ∀ tx ∈ txs, tx.msg.block.ValidTime) (hsorted : Sorted txs)
    (hpending : Pending d g b w.game)
    (hcard : (w.game.playerRegistry p g).numberStorage ≠ 0)
    (hmem : drawnNumber d b ∈ cardTiles (w.game.playerRegistry p g).numberStorage)
    (hm : m ∈ txs) (hsender : m.msg.sender = p) (hcall : m.call? = some (.markNumberOnCard g))
    (hsoon : m.time ≤ b.timestamp.toNat + D) (hfree : Undisturbed p g D (w.play d txs).1) :
    ((w.play d txs).2.game.playerRegistry p g).hitStorage.getLsbD
      ((cardTiles (w.game.playerRegistry p g).numberStorage).idxOf (drawnNumber d b)) = true := by
  subst hsender
  obtain ⟨msg, action⟩ := m
  obtain rfl : action = .game (.markNumberOnCard g) := by
    cases action with
    | game c => exact congrArg _ (Option.some.inj hcall)
    | token op => cases hcall
  obtain ⟨before, after, rfl⟩ := List.append_of_mem hm
  obtain ⟨htBefore, htRest⟩ := List.forall_mem_append.mp ht
  have htAfter : ∀ tx ∈ after, tx.msg.block.ValidTime := fun tx htx =>
    htRest tx (List.mem_cons_of_mem _ htx)
  rw [World.play_append] at hfree ⊢
  obtain ⟨hfreeBefore, hfreeRest⟩ := hfree.of_append
  -- the calls before the mark are made within the turn
  have hsoonBefore : ∀ e ∈ (w.play d before).1, e.time ≤ b.timestamp.toNat + D := by
    intro e he
    have hle : e.tx.time ≤ Tx.time ⟨msg, .game (.markNumberOnCard g)⟩ :=
      (List.pairwise_append.mp hsorted).2.2 e.tx (w.mem_play d before e he) _ List.mem_cons_self
    exact Nat.le_trans hle hsoon
  have hkept := run_turnKept (w.play_run d before) hpending hfreeBefore.turns hsoonBefore
    hfreeBefore.unclaimed
  have hsame := hkept.cards msg.sender hfreeBefore.noRejoin
  rw [← hsame] at hcard hmem ⊢
  obtain ⟨w', hexec, hhit⟩ := hkept.pending.mark hcard hmem
  rw [World.play_cons_ok hexec] at hfreeRest ⊢
  have hseated := h.append (w.play_run d before) (play_valid htBefore)
  have hstep : Steps d (w.play d before).2 ⟨_, _, _, w'⟩ w' := ⟨rfl, rfl, hexec⟩
  have hmarked := hseated.step hstep (htRest _ List.mem_cons_self)
  have hrest := hmarked.progress (w'.play_run d after) (play_valid htAfter) fun e he =>
    hfreeRest.noRejoin e (List.mem_cons_of_mem _ he)
  exact (hrest.hits _).mpr (Or.inl hhit)

/-- A prompt player hits every number that is drawn. -/
theorem Seated.prompt_hits {txs : List (Tx T)} (h : Seated d t₀ p g l₀ w)
    (hcard : (w.game.playerRegistry p g).numberStorage ≠ 0)
    (ht : ∀ tx ∈ txs, tx.msg.block.ValidTime) (hsorted : Sorted txs)
    (hprompt : Prompt p g D txs) (hfree : Undisturbed p g D (w.play d txs).1) :
    ∀ n ∈ drawnNumbers g (w.play d txs).1,
      n ∈ cardTiles (w.game.playerRegistry p g).numberStorage →
        ((w.play d txs).2.game.playerRegistry p g).hitStorage.getLsbD
          ((cardTiles (w.game.playerRegistry p g).numberStorage).idxOf n) = true := by
  induction txs generalizing l₀ w with
  | nil => exact fun n hn => absurd hn List.not_mem_nil
  | cons tx txs ih =>
      obtain ⟨htx, ht⟩ := List.forall_mem_cons.mp ht
      obtain ⟨-, hsorted⟩ := List.pairwise_cons.mp hsorted
      obtain ⟨hmark, hprompt⟩ := hprompt
      cases hexec : w.exec d tx with
      | error r =>
          rw [World.play_cons_error hexec] at hfree ⊢
          exact ih h hcard ht hsorted hprompt hfree
      | ok x =>
          obtain ⟨w₁, r⟩ := x
          rw [World.play_cons_ok hexec] at hfree ⊢
          rw [← List.singleton_append] at hfree
          obtain ⟨hfirst, hfree⟩ := hfree.of_append
          have hstep : Steps d w ⟨w, tx, r, w₁⟩ w₁ := ⟨rfl, rfl, hexec⟩
          have hseated := h.step hstep htx
          have hsame := h.step_numbers hstep (hfirst.noRejoin _ (List.mem_singleton_self _))
          intro n hn hmem
          rw [← hsame] at hcard hmem ⊢
          rcases mem_drawnNumbers_cons.mp hn with ⟨hdraws, rfl⟩ | hn
          · have hpending := hstep.draw_pending hdraws htx
            obtain ⟨m, hm, hsender, hcall, hsoon⟩ := hmark hdraws
            rw [hpending.number] at hmem ⊢
            exact hseated.draw_hits ht hsorted hpending hcard hmem hm hsender hcall hsoon hfree
          · exact ih hseated hcard ht hsorted hprompt hfree n hn hmem

/-- What is marked since the game was joining was drawn since. -/
theorem run_marked_drawn (hrun : WorldRun d w l w')
    (hnumber : NumberInv g ([] : List (Step T)) w.game) :
    ∀ n ∈ markedNumbers p g l, n ∈ drawnNumbers g l := by
  have hinv : NumberInv g l w'.game ∧ ∀ n ∈ markedNumbers p g l, n ∈ drawnNumbers g l := by
    refine hrun.invariant
      (P := fun l w => NumberInv g l w.game ∧ ∀ n ∈ markedNumbers p g l, n ∈ drawnNumbers g l)
      ⟨hnumber, fun n hn => absurd hn List.not_mem_nil⟩ ?_
    rintro k a e a' - ⟨hnumber, hmarked⟩ hstep
    refine ⟨hstep.numberInv hnumber, fun n hn => mem_drawnNumbers_concat ?_⟩
    rcases mem_markedNumbers_concat.mp hn with hold | ⟨⟨hp, hmarks⟩, rfl⟩
    · exact hmarked n hold
    · have hcard := hstep.card p g
      rw [hstep.1]
      generalize a'.game.playerRegistry p g = c at hcard
      cases hcard with
      | same _ hm => exact absurd ⟨hp, hmarks⟩ hm
      | dealt _ he => exact absurd hmarks he.not_marks
      | marked _ _ hplayer hmem => exact hnumber.drawn hplayer hmem
  exact hinv.2

/-- **A prompt player plays plain bingo.**  While a game is joining, a player
    has a card of it.  Whatever is called from then on, at times that never go
    back: if the player calls `markNumberOnCard` within the turn of every call
    of `drawNumber` and nobody has claimed yet, the player has won exactly when
    a line of the card was drawn. -/
theorem prompt_player {txs : List (Tx T)} (hrun₀ : WorldRun d (World.initial t₀) l₀ w)
    (ht₀ : ∀ e ∈ l₀, e.ValidTime) (hp : Dealt p g l₀)
    (hjoining : (w.game.gameRegistry g).lastDrawnNumber = 999)
    (hcard : (w.game.playerRegistry p g).numberStorage ≠ 0)
    (ht : ∀ tx ∈ txs, tx.msg.block.ValidTime) (hsorted : Sorted txs)
    (hprompt : Prompt p g D txs) (hfree : Undisturbed p g D (w.play d txs).1) :
    (w.play d txs).2.game.checkForWinner p g = true ↔
      ∃ ℓ : Line, ∀ k, ℓ.tile k = 12 ∨
        (FirstTile (w.game.playerRegistry p g).numberStorage (ℓ.tile k) ∧
          bucket (w.game.playerRegistry p g).numberStorage (ℓ.tile k)
            ∈ drawnNumbers g (w.play d txs).1) := by
  have hseated : Seated d t₀ p g l₀ w := ⟨hrun₀, ht₀, hp⟩
  have hfresh : (w.game.playerRegistry p g).hitStorage = 4096 :=
    (run_cardInv hrun₀ p g).hits_of_unhit hp (run_unhit hrun₀ g (Or.inr hjoining) p)
  have hprogress := hseated.progress (w.play_run d txs) (play_valid ht) hfree.noRejoin
  have hdrawn := hseated.prompt_hits hcard ht hsorted hprompt hfree
  have hmarked : ∀ n ∈ markedNumbers p g (w.play d txs).1, n ∈ drawnNumbers g (w.play d txs).1 :=
    run_marked_drawn (w.play_run d txs) fun _ => Or.inl hjoining
  have hcovered : ∀ i < 25,
      ((w.play d txs).2.game.playerRegistry p g).hitStorage.getLsbD i = true ↔ i = 12 ∨
        (FirstTile (w.game.playerRegistry p g).numberStorage i ∧
          bucket (w.game.playerRegistry p g).numberStorage i
            ∈ drawnNumbers g (w.play d txs).1) := by
    intro i hi
    refine ⟨fun hbit => ?_, ?_⟩
    · rcases (hprogress.hits i).mp hbit with hold | ⟨n, hn, hidx⟩
      · rw [hfresh] at hold
        exact Or.inl (dealt_hits_getLsbD i hold)
      · obtain ⟨hfirst, rfl⟩ := (idxOf_eq_iff hi).mp hidx
        exact Or.inr ⟨hfirst, hmarked _ hn⟩
    · rintro (rfl | ⟨hfirst, hn⟩)
      · refine (hprogress.hits 12).mpr (Or.inl ?_)
        rw [hfresh]
        decide
      · have hhit := hdrawn _ hn (bucket_mem_cardTiles _ hi)
        rwa [hfirst] at hhit
  rw [Storage.checkForWinner, checkForBingo_iff]
  exact exists_congr fun ℓ => forall_congr' fun k => hcovered _ (ℓ.tile_lt k)

theorem prompt_player_sample :
    drawnNumbers Sample.gameId
      ((Sample.played 6).2.play Sample.deployment ((Sample.txs.drop 6).take 8)).1
        = [11, 12, 14, 15] ∧
    (((Sample.played 6).2.play Sample.deployment
        ((Sample.txs.drop 6).take 8)).2.game.checkForWinner 17 Sample.gameId = true ↔
      ∃ ℓ : Line, ∀ k, ℓ.tile k = 12 ∨
        (FirstTile ((Sample.played 6).2.game.playerRegistry 17 Sample.gameId).numberStorage
            (ℓ.tile k) ∧
          bucket ((Sample.played 6).2.game.playerRegistry 17 Sample.gameId).numberStorage (ℓ.tile k)
            ∈ drawnNumbers Sample.gameId
              ((Sample.played 6).2.play Sample.deployment ((Sample.txs.drop 6).take 8)).1)) := by
  have hfree : Undisturbed 17 Sample.gameId 300
      ((Sample.played 6).2.play Sample.deployment ((Sample.txs.drop 6).take 8)).1 :=
    ⟨by decide +kernel, by decide +kernel, by decide +kernel⟩
  exact ⟨by decide +kernel, prompt_player (Sample.played_run 6) (by decide +kernel)
    (by decide +kernel) (by decide +kernel) (by decide +kernel) (by decide +kernel)
    (by decide +kernel) (by decide +kernel) hfree⟩

end BitmaskBingo
