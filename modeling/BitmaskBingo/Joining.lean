/-
  BitmaskBingo.Joining

  When the cards of a game are final.  `joinGame` looks at the clock and at
  the join duration in force, not at `lastDrawnNumber`; what keeps players out
  of a started game is that its joining window has passed.  It stays shut as
  long as no change of the join duration opens it again.
-/

import BitmaskBingo.LifeCycle

namespace BitmaskBingo

open Lib

variable {T : Token} {d : Deployment} {t₀ : T.State} {l : List (Step T)} {w w' : World T}
  {e : Step T} {g : Bytes32}

-- ============================================================================
-- The joining window
-- ============================================================================

/-- A number was drawn in the game, or its prize was claimed. -/
def Game.Started (game : Game) : Prop := game.createdAt ≠ 0 ∧ game.lastDrawnNumber ≠ 999

/-- Under this join duration the window of the game is over, or its end does
    not fit in a word. -/
def Game.Shut (game : Game) (joinDuration : Uint256) (time : Nat) : Prop :=
  game.createdAt.toNat + joinDuration.toNat ≤ time ∨
    2 ^ 256 ≤ game.createdAt.toNat + joinDuration.toNat

instance (game : Game) : Decidable game.Started := inferInstanceAs (Decidable (_ ∧ _))

instance (game : Game) (joinDuration : Uint256) (time : Nat) :
    Decidable (game.Shut joinDuration time) := inferInstanceAs (Decidable (_ ∨ _))

/-- The clock does not open a window. -/
theorem Game.Shut.later {game : Game} {v : Uint256} {t t' : Nat} (h : game.Shut v t)
    (ht : t ≤ t') : game.Shut v t' :=
  h.imp_left fun hle => Nat.le_trans hle ht

/-- `joinGame` passes its checks exactly for an existing game whose window is
    not shut. -/
theorem joinOpen_iff {s : Storage} {time : Uint256} :
    s.JoinOpen time g ↔ (s.gameRegistry g).createdAt ≠ 0 ∧
      ¬ (s.gameRegistry g).Shut s.gameSettings.minimumJoinDuration time.toNat := by
  rw [Game.Shut, not_or, Nat.not_le, Nat.not_le]
  refine ⟨?_, ?_⟩
  · rintro ⟨hex, hfits, hbefore⟩
    exact ⟨hex, hbefore, hfits⟩
  · rintro ⟨hex, hbefore, hfits⟩
    exact ⟨hex, hfits, hbefore⟩

/-- A new join duration leaves the window of a started game shut. -/
def Step.KeepsShut (e : Step T) (g : Bytes32) : Prop :=
  match e.call? with
  | some (.updateJoinDuration v) =>
      (e.pre.game.gameRegistry g).Started → (e.pre.game.gameRegistry g).Shut v e.time
  | _ => True

instance (e : Step T) (g : Bytes32) : Decidable (e.KeepsShut g) := by
  unfold Step.KeepsShut
  generalize e.call? = call
  rcases call with - | c
  · exact isTrue trivial
  · cases c with
    | updateJoinDuration v =>
        exact inferInstanceAs (Decidable ((e.pre.game.gameRegistry g).Started → _))
    | _ => exact isTrue trivial

/-- Only its setter changes the join duration, and that leaves every record. -/
theorem Steps.joinDuration (h : Steps d w e w') :
    w'.game.gameSettings.minimumJoinDuration = w.game.gameSettings.minimumJoinDuration ∨
      ∃ v, e.call? = some (.updateJoinDuration v) ∧
        w'.game.gameSettings.minimumJoinDuration = v ∧
        w'.game.gameRegistry = w.game.gameRegistry := by
  cases hc : e.call? with
  | none =>
      rw [h.of_token hc]
      exact Or.inl rfl
  | some c =>
      have heff := (h.of_call hc).1
      generalize e.ret = r at heff
      generalize w'.game = s' at heff
      cases heff with
      | @updateJoinDuration v howner => exact Or.inr ⟨v, rfl, rfl, rfl⟩
      | _ => exact Or.inl rfl

/-- The condition is exact: a change of the join duration meets it when the
    game, if it has started, cannot be joined right after it. -/
theorem Steps.keepsShut_iff (h : Steps d w e w') {v : Uint256}
    (hc : e.call? = some (.updateJoinDuration v)) :
    e.KeepsShut g ↔ ((w'.game.gameRegistry g).Started →
      ¬ w'.game.JoinOpen e.block.timestamp g) := by
  have heff := (h.of_call hc).1
  have hpre : e.pre = w := h.1
  generalize e.ret = r at heff
  generalize w'.game = s' at heff
  cases heff with
  | updateJoinDuration howner =>
      rw [Step.KeepsShut, hc, joinOpen_iff, hpre]
      refine ⟨?_, ?_⟩
      · intro hkeep hs hopen
        exact hopen.2 (hkeep hs)
      · intro hclosed hs
        by_contra hshut
        exact hclosed hs ⟨hs.1, hshut⟩

-- ============================================================================
-- Started games
-- ============================================================================

/-- What holds of game `g` after the history `l` as long as no step reopens a
    started game. -/
structure StartInv (g : Bytes32) (l : List (Step T)) (s : Storage) : Prop where
  started : (∃ e ∈ l, e.draws g ∨ e.claims g) → (s.gameRegistry g).Started
  shut : (s.gameRegistry g).Started →
    ∃ e ∈ l, (s.gameRegistry g).Shut s.gameSettings.minimumJoinDuration e.time
  paid_out : (s.gameRegistry g).lastDrawnNumber = 1000 → (s.gameRegistry g).prizePool = 0

/-- A started game cannot be joined at a later time. -/
theorem StartInv.closed {s : Storage} (h : StartInv g l s) (hs : (s.gameRegistry g).Started)
    {time : Uint256} (hlate : ∀ e ∈ l, e.time ≤ time.toNat) : ¬ s.JoinOpen time g := by
  obtain ⟨e, he, hshut⟩ := h.shut hs
  intro hopen
  exact (joinOpen_iff.mp hopen).2 (hshut.later (hlate e he))

/-- A claim comes after a draw. -/
theorem Steps.claims_started (h : Steps d w e w') (he : e.claims g) (hunhit : Unhit w.game g)
    (hstage : (w.game.gameRegistry g).createdAt ≠ 0 →
      IsStage (w.game.gameRegistry g).lastDrawnNumber) : (w.game.gameRegistry g).Started := by
  have hlt := h.claimed_drawing he hunhit hstage
  exact ⟨(h.of_claims he).1.exists_, ne_joining_of_lt hlt⟩

/-- A started game stays started. -/
private theorem Steps.startInv_started (h : Steps d w e w') (hinv : StartInv g l w.game)
    (hde : ∃ e' ∈ l ++ [e], e'.draws g ∨ e'.claims g) : (w'.game.gameRegistry g).Started := by
  have hcases : (w.game.gameRegistry g).Started ∨ e.draws g ∨ e.claims g := by
    obtain ⟨e', he', hde⟩ := hde
    rcases List.mem_append.mp he' with hl | hl
    · exact Or.inl (hinv.started ⟨e', hl, hde⟩)
    · exact Or.inr (List.mem_singleton.mp hl ▸ hde)
  have hrec := h.record g
  generalize w'.game.gameRegistry g = r at hrec
  cases hrec with
  | same _ _ hd hp => exact hcases.resolve_right fun hde => hde.elim hd hp
  | created he hnew =>
      rcases hcases with hs | hd | hp
      · exact absurd hnew hs.1
      · exact absurd (Or.inl he) hd.not_enters
      · exact absurd (Or.inl he) hp.not_enters
  | joined he hopen hpot =>
      rcases hcases with hs | hd | hp
      · exact hs
      · exact absurd (Or.inr he) hd.not_enters
      · exact absurd (Or.inr he) hp.not_enters
  | drawn he hplayer hopen => exact ⟨hplayer.exists_, ne_joining_of_lt (drawn_lt _ _)⟩
  | claimed he hplayer hwin => exact ⟨hplayer.exists_, (by decide : (1000 : Uint64) ≠ 999)⟩

/-- The window of a started game stays shut. -/
private theorem Steps.startInv_shut (h : Steps d w e w') (hinv : StartInv g l w.game)
    (hclaim : e.claims g → (w.game.gameRegistry g).Started) (hkeep : e.KeepsShut g)
    (hs : (w'.game.gameRegistry g).Started) :
    ∃ e' ∈ l ++ [e],
      (w'.game.gameRegistry g).Shut w'.game.gameSettings.minimumJoinDuration e'.time := by
  have hlast : e ∈ l ++ [e] := List.mem_append_right _ (List.mem_singleton_self e)
  rcases h.joinDuration with hsame | ⟨v, hc, hv, hregistry⟩
  · -- the duration is the same: only a draw needs a new witness, itself
    have hold : (w.game.gameRegistry g).Started → ∃ e' ∈ l ++ [e],
        (w.game.gameRegistry g).Shut w.game.gameSettings.minimumJoinDuration e'.time := by
      intro hs
      obtain ⟨e', he', hshut⟩ := hinv.shut hs
      exact ⟨e', List.mem_append_left _ he', hshut⟩
    rw [hsame]
    have hrec := h.record g
    generalize w'.game.gameRegistry g = r at hrec hs
    cases hrec with
    | same => exact hold hs
    | created he hnew => exact absurd rfl hs.2
    | joined he hopen hpot => exact hold hs
    | drawn he hplayer hopen => exact ⟨e, hlast, Or.inl (Nat.le_of_lt hopen.joined)⟩
    | claimed he hplayer hwin => exact hold (hclaim he)
  · -- the duration is new: the condition on the step
    rw [hregistry] at hs ⊢
    rw [hv]
    rw [← h.1] at hs ⊢
    rw [Step.KeepsShut, hc] at hkeep
    exact ⟨e, hlast, hkeep hs⟩

/-- The pot of a finished game stays empty. -/
private theorem Steps.startInv_paid_out (h : Steps d w e w') (hinv : StartInv g l w.game)
    (hlate : ∀ e' ∈ l, e'.time ≤ e.time)
    (hover : (w'.game.gameRegistry g).lastDrawnNumber = 1000) :
    (w'.game.gameRegistry g).prizePool = 0 := by
  have hrec := h.record g
  generalize w'.game.gameRegistry g = r at hrec hover
  cases hrec with
  | same => exact hinv.paid_out hover
  | created => exact absurd hover (by decide : (999 : Uint64) ≠ 1000)
  | joined he hopen hpot =>
      have hnot : (w.game.gameRegistry g).lastDrawnNumber ≠ 999 := by
        rw [show (w.game.gameRegistry g).lastDrawnNumber = 1000 from hover]
        decide
      exact absurd hopen (hinv.closed ⟨hopen.exists_, hnot⟩ hlate)
  | drawn => exact absurd hover (ne_finished_of_lt (drawn_lt _ _))
  | claimed => rfl

theorem run_startInv (hrun : WorldRun d (World.initial t₀) l w) (hmono : NonDecreasing l)
    (hkeep : ∀ e ∈ l, e.KeepsShut g) : StartInv g l w.game := by
  induction hrun with
  | nil =>
      refine ⟨?_, fun hs => absurd rfl hs.1, fun _ => rfl⟩
      rintro ⟨e, he, -⟩
      cases he
  | @snoc l a b e hrun hstep ih =>
      have hinv := ih hmono.left fun e' he' => hkeep e' (List.mem_append_left _ he')
      have hclaim : e.claims g → (a.game.gameRegistry g).Started := fun he =>
        hstep.claims_started he (run_unhit hrun g) (run_stage hrun g)
      have hlast : e ∈ l ++ [e] := List.mem_append_right _ (List.mem_singleton_self e)
      exact ⟨hstep.startInv_started hinv, hstep.startInv_shut hinv hclaim (hkeep e hlast),
        hstep.startInv_paid_out hinv hmono.le_last⟩

-- ============================================================================
-- No joining once a game has started
-- ============================================================================

/-- A call whose checks fail reverts. -/
theorem World.joinGame_error {msg : Msg} (h : ¬ w.game.JoinOpen msg.block.timestamp g) :
    ∃ r, w.exec d ⟨msg, .game (.joinGame g)⟩ = .error r := by
  cases hexec : w.exec d ⟨msg, .game (.joinGame g)⟩ with
  | error r => exact ⟨r, rfl⟩
  | ok x =>
      obtain ⟨w', ret⟩ := x
      have heff := (World.exec_game_iff.mp hexec).1
      generalize w'.game = s' at heff
      cases heff with
      | joinGame hopen => exact absurd hopen h

/-- A step on a started game at a later time deals no card of it. -/
theorem Steps.not_enters (h : Steps d w e w') (hinv : StartInv g l w.game)
    (hs : (w.game.gameRegistry g).Started) (hlate : ∀ e' ∈ l, e'.time ≤ e.time) :
    ¬ e.enters g := by
  rintro (hc | hj)
  · exact hs.1 (h.of_creates hc).1
  · exact hinv.closed hs hlate (h.of_joins hj)

/-- **No joining once a game has started**, in every run that never reopens
    the window of the started game: a later `joinGame` reverts, no card of the
    game is dealt again, and the pot of a finished game stays empty. -/
theorem no_joining_once_started (hrun : WorldRun d (World.initial t₀) l w)
    (hmono : NonDecreasing l) (hkeep : ∀ e ∈ l, e.KeepsShut g) :
    ((∃ e ∈ l, e.draws g ∨ e.claims g) →
      ∀ msg : Msg, (∀ e ∈ l, e.time ≤ msg.block.timestamp.toNat) →
        ∃ r, w.exec d ⟨msg, .game (.joinGame g)⟩ = .error r) ∧
    (∀ l₁ e l₂, l = l₁ ++ e :: l₂ → (∃ e' ∈ l₁, e'.draws g ∨ e'.claims g) →
      ¬ e.enters g ∧ ∀ p, (e.post.game.playerRegistry p g).numberStorage
        = (e.pre.game.playerRegistry p g).numberStorage) ∧
    ((w.game.gameRegistry g).lastDrawnNumber = 1000 → (w.game.gameRegistry g).prizePool = 0) := by
  have hinv := run_startInv hrun hmono hkeep
  refine ⟨fun hde msg hlate => ?_, ?_, hinv.paid_out⟩
  · exact World.joinGame_error (hinv.closed (hinv.started hde) hlate)
  · rintro l₁ e l₂ rfl hde
    obtain ⟨a, b, hrun₁, hstep, -⟩ := hrun.split_at
    have hmono₁ : NonDecreasing (l₁ ++ [e]) := by
      rw [← List.singleton_append, ← List.append_assoc] at hmono
      exact hmono.left
    have hinv₁ := run_startInv hrun₁ hmono₁.left
      fun e' he' => hkeep e' (List.mem_append_left _ he')
    have hno := hstep.not_enters hinv₁ (hinv₁.started hde) hmono₁.le_last
    refine ⟨hno, fun p => ?_⟩
    rw [hstep.1, hstep.2.1]
    have hcard := hstep.card p g
    generalize b.game.playerRegistry p g = c at hcard
    cases hcard with
    | same => rfl
    | dealt hs he => exact absurd he hno
    | marked => rfl

namespace Sample

/-- The owner shortens the joining window after the first draw. -/
def shortenTxs : List (Tx bingoToken) :=
  txs.take 8 ++ ⟨msg 0xa0 5100 11, .game (.updateJoinDuration 60)⟩ :: txs.drop 8

/-- The owner lengthens it instead. -/
def lengthenTxs : List (Tx bingoToken) :=
  txs.take 8 ++ [⟨msg 0xa0 5100 11, .game (.updateJoinDuration 10000)⟩]

def shortened : List (Step bingoToken) × World bingoToken := genesis.play deployment shortenTxs

def lengthened : List (Step bingoToken) × World bingoToken := genesis.play deployment lengthenTxs

end Sample

open Sample in
theorem no_joining_once_started_sample : shortened.1.length = 16 ∧
    (shortened.2.game.gameRegistry gameId).prizePool = 0 ∧
    ∃ r, shortened.2.exec deployment ⟨msg 34 7000 18, .game (.joinGame gameId)⟩ = .error r := by
  have hrun : WorldRun deployment genesis shortened.1 shortened.2 := World.play_run ..
  have hthm := no_joining_once_started (g := gameId) hrun (by decide +kernel) (by decide +kernel)
  exact ⟨by decide +kernel, hthm.2.2 (by decide +kernel),
    hthm.1 (by decide +kernel) _ (by decide +kernel)⟩

open Sample in
/-- Once the owner lengthens the window, a player of a started game joins
    again. -/
theorem rejoin_after_draw : ¬ ∀ (l : List (Step bingoToken)) (w : World bingoToken),
    WorldRun deployment genesis l w → NonDecreasing l → ∀ g, (∃ e ∈ l, e.draws g) →
      ∀ msg : Msg, (∀ e ∈ l, e.time ≤ msg.block.timestamp.toNat) →
        ∃ r, w.exec deployment ⟨msg, .game (.joinGame g)⟩ = .error r := by
  intro hclaim
  have hrun : WorldRun deployment genesis lengthened.1 lengthened.2 := World.play_run ..
  obtain ⟨r, hr⟩ := hclaim _ _ hrun (by decide +kernel) gameId (by decide +kernel)
    (msg 34 5200 18) (by decide +kernel)
  have hok : (lengthened.2.exec deployment
      ⟨msg 34 5200 18, .game (.joinGame gameId)⟩).isOk = true := by decide +kernel
  rw [hr] at hok
  cases hok

end BitmaskBingo
