/-
  BitmaskBingo.Isolation

  Games do not interfere.  What becomes of a game, of its record and of all
  the cards in it, is a function of the calls that succeed on this game and of
  the owner's updates, with their callers, times and block hashes: two runs
  that agree on those, however they differ in other games and in the token,
  end with the same game.
-/

import BitmaskBingo.Independence

namespace BitmaskBingo

open Lib

variable {T T' : Token} {d : Deployment} {msg msg' : Msg} {s s' s₁ s₁' : Storage} {g : Bytes32}
  {c : Call} {r r' : Returned}

-- ============================================================================
-- What a call reads of its message
-- ============================================================================

/-- A call and what it reads of its message. -/
structure Seen where
  sender : Address
  timestamp : Uint256
  entropy : Bytes32
  call : Call
deriving Repr, DecidableEq

def Msg.seen (msg : Msg) (c : Call) : Seen :=
  ⟨msg.sender, msg.block.timestamp, msg.block.entropy, c⟩

/-- A call succeeds once if at all. -/
theorem Effect.deterministic (h : Effect d msg s c r s') (h' : Effect d msg s c r' s₁) :
    s' = s₁ ∧ r = r' := by
  let callee : IERC20 → Unit → Except Revert Unit := fun _ _ => .ok ()
  have hcalls : ∀ calls, runCalls callee calls () = .ok () := by
    intro calls
    induction calls with
    | nil => rfl
    | cons a as ih => exact runCalls_cons_eq_ok.mpr ⟨(), rfl, ih⟩
  have hrun := (run_dispatch_iff c).mpr ⟨h, hcalls _⟩
  have hrun' := (run_dispatch_iff c).mpr ⟨h', hcalls _⟩
  rw [hrun] at hrun'
  simpa using hrun'

/-- What is not seen of a message does not matter to a call that succeeds with
    either of two messages. -/
theorem Effect.of_seen (h : Effect d msg s c r s') (h' : Effect d msg' s₁ c r' s₁')
    (hseen : msg.seen c = msg'.seen c) : Effect d msg' s c r s' := by
  obtain ⟨p, b⟩ := msg
  obtain ⟨p', b'⟩ := msg'
  obtain ⟨rfl, htime, hentropy⟩ : p = p' ∧ b.timestamp = b'.timestamp ∧ b.entropy = b'.entropy := by
    simpa [Msg.seen] using hseen
  have hid : newGameId d ⟨p, b⟩ = newGameId d ⟨p, b'⟩ := by
    simp only [newGameId, hentropy]
  have hgame : ∀ fee, newGame ⟨p, b⟩ fee = newGame ⟨p, b'⟩ fee := by
    intro fee
    simp only [newGame, htime]
  have hcard : newCard d b = newCard d b' := by
    simp only [newCard, hentropy]
  have hdrawn : ∀ game : Game, game.drawn d b = game.drawn d b' := by
    intro game
    simp only [Game.drawn, drawnNumber, hentropy, htime]
  -- the second effect says that its block has one before it
  cases h with
  | createGame hblock hnew =>
      rw [hid] at hnew ⊢
      rw [hgame, hcard]
      cases h' with
      | createGame hblock' => exact .createGame hblock' hnew
  | joinGame hopen hpot hblock =>
      simp only [htime] at hopen
      rw [hcard]
      cases h' with
      | joinGame hopen' hpot' hblock' => exact .joinGame hopen hpot hblock'
  | drawNumber hplayer hopen hblock =>
      simp only [htime] at hopen
      rw [hdrawn]
      cases h' with
      | drawNumber hplayer' hopen' hblock' => exact .drawNumber hplayer hopen hblock'
  | markNumberOnCard hplayer hmem => exact .markNumberOnCard hplayer hmem
  | claimPrize hplayer hwin => exact .claimPrize hplayer hwin
  | updateEntryFee howner => exact .updateEntryFee howner
  | updateJoinDuration howner => exact .updateJoinDuration howner
  | updateUpdateTurnDuration howner => exact .updateUpdateTurnDuration howner

-- ============================================================================
-- The view of a game
-- ============================================================================

/-- What there is of one game. -/
structure GameView where
  gameSettings : GlobalGameSettings
  game : Game
  cards : Address → BingoCard

def Storage.view (s : Storage) (g : Bytes32) : GameView :=
  ⟨s.gameSettings, s.gameRegistry g, fun p => s.playerRegistry p g⟩

/-- The call bears on game `g`: it concerns that game, or the settings. -/
def Call.Concerns (d : Deployment) (msg : Msg) (g : Bytes32) (c : Call) : Prop :=
  c.game? d msg = some g ∨ c.game? d msg = none

instance (d : Deployment) (msg : Msg) (g : Bytes32) (c : Call) : Decidable (c.Concerns d msg g) :=
  inferInstanceAs (Decidable (_ ∨ _))

/-- What an observer of game `g` sees of a step. -/
def Step.see (d : Deployment) (g : Bytes32) (e : Step T) : Option Seen :=
  match e.call? with
  | some c => if c.Concerns d e.tx.msg g then some (e.tx.msg.seen c) else none
  | none => none

/-- A transition of the view. -/
def ViewStep (d : Deployment) (g : Bytes32) (v : GameView) (o : Seen) (v' : GameView) : Prop :=
  ∃ msg s s' r, o.call.Concerns d msg g ∧ msg.seen o.call = o ∧ Effect d msg s o.call r s' ∧
    s.view g = v ∧ s'.view g = v'

theorem view_eq_iff : s.view g = s'.view g ↔
    s.gameSettings = s'.gameSettings ∧ s.gameRegistry g = s'.gameRegistry g ∧
      ∀ p, s.playerRegistry p g = s'.playerRegistry p g := by
  rw [Storage.view, Storage.view, GameView.mk.injEq, funext_iff]

theorem view_written (s : Storage) (hview : s.view g = s₁.view g) (p : Address) (record : Game)
    (card : BingoCard) :
    ((s.setGame g record).setCard p g card).view g
      = ((s₁.setGame g record).setCard p g card).view g := by
  obtain ⟨hsettings, -, hcards⟩ := view_eq_iff.mp hview
  rw [view_eq_iff]
  refine ⟨hsettings, by simp, fun q => ?_⟩
  rw [Storage.setCard_playerRegistry, Storage.setCard_playerRegistry]
  simp only [Storage.setGame_playerRegistry, hcards q]

/-- A call that bears on the game does the same to every storage with the same
    view of it. -/
theorem Effect.view (h : Effect d msg s c r s') (hc : c.Concerns d msg g)
    (hview : s.view g = s₁.view g) (h' : Effect d msg s₁ c r' s₁') : s'.view g = s₁'.view g := by
  obtain ⟨hsettings, hrecord, hcards⟩ := view_eq_iff.mp hview
  rcases hc with hg | hnone
  · obtain ⟨record, card, rfl, hframe⟩ := h.frame hg
    have hsame : SameFrame s s₁ msg.sender g := ⟨hsettings.symm, hrecord.symm, (hcards _).symm⟩
    rw [(h'.deterministic (hframe s₁ hsame)).1]
    exact view_written s hview ..
  · rw [view_eq_iff]
    cases h with
    | updateEntryFee => cases h'; exact ⟨by rw [hsettings], hrecord, hcards⟩
    | updateJoinDuration => cases h'; exact ⟨by rw [hsettings], hrecord, hcards⟩
    | updateUpdateTurnDuration => cases h'; exact ⟨by rw [hsettings], hrecord, hcards⟩
    | _ => simp [Call.game?] at hnone

theorem ViewStep.deterministic {v v' v'' : GameView} {o : Seen} (h : ViewStep d g v o v')
    (h' : ViewStep d g v o v'') : v' = v'' := by
  obtain ⟨msg, s, s', r, hc, hseen, heff, rfl, rfl⟩ := h
  obtain ⟨msg', s₁, s₁', r', -, hseen', heff', hview, rfl⟩ := h'
  exact heff.view hc hview.symm (heff'.of_seen heff (hseen'.trans hseen.symm))

-- ============================================================================
-- Two runs
-- ============================================================================

section Runs

variable {w w' : World T} {e : Step T} {l : List (Step T)}

/-- A step that is seen is a step of the view. -/
theorem Steps.viewStep {o : Seen} (h : Steps d w e w') (ho : e.see d g = some o) :
    ViewStep d g (w.game.view g) o (w'.game.view g) := by
  cases hc : e.call? with
  | none => simp [Step.see, hc] at ho
  | some c =>
      by_cases hconcerns : c.Concerns d e.tx.msg g
      · obtain rfl : e.tx.msg.seen c = o := by simpa [Step.see, hc, hconcerns] using ho
        exact ⟨e.tx.msg, w.game, w'.game, e.ret, hconcerns, rfl, (h.of_call hc).1, rfl, rfl⟩
      · simp [Step.see, hc, hconcerns] at ho

/-- A step that is not seen keeps the view. -/
theorem Steps.view_unseen (h : Steps d w e w') (ho : e.see d g = none) :
    w'.game.view g = w.game.view g := by
  cases hc : e.call? with
  | none => rw [h.of_token hc]
  | some c =>
      have hconcerns : ¬ c.Concerns d e.tx.msg g := by
        intro hconcerns
        simp [Step.see, hc, hconcerns] at ho
      have heff := (h.of_call hc).1
      cases hg' : c.game? d e.tx.msg with
      | none => exact absurd (Or.inr hg') hconcerns
      | some g' =>
          have hne : g ≠ g' := by
            rintro rfl
            exact hconcerns (Or.inl hg')
          obtain ⟨record, card, heq, -⟩ := heff.frame hg'
          rw [heq, view_eq_iff]
          refine ⟨rfl, by simp [hne], fun p => ?_⟩
          rw [Storage.setCard_playerRegistry, if_neg fun hp => hne hp.2]
          rfl

/-- A run of the world, seen from game `g`. -/
theorem run_view (hrun : WorldRun d w l w') :
    Run (ViewStep d g) (w.game.view g) (l.filterMap (Step.see d g)) (w'.game.view g) :=
  hrun.project (fun _ _ _ _ he ho => he.viewStep ho) fun _ _ _ he ho => he.view_unseen ho

/-- **Games do not interfere.**  Two runs, even with different tokens, in
    which the same calls succeeded on game `g` and on the settings, in the
    same order, end with the same game. -/
theorem games_isolated {t : T.State} {t' : T'.State} {l' : List (Step T')} {w' : World T'}
    (hrun : WorldRun d (World.initial t) l w) (hrun' : WorldRun d (World.initial t') l' w')
    (hsame : l.filterMap (Step.see d g) = l'.filterMap (Step.see d g)) :
    w.game.gameRegistry g = w'.game.gameRegistry g ∧
      (∀ p, w.game.playerRegistry p g = w'.game.playerRegistry p g) ∧
      w.game.gameSettings = w'.game.gameSettings := by
  have hviews : Run (ViewStep d g) (Storage.initial.view g) _ (w.game.view g) := run_view hrun
  have hviews' : Run (ViewStep d g) (Storage.initial.view g) _ (w'.game.view g) := run_view hrun'
  rw [← hsame] at hviews'
  have hview : w.game.view g = w'.game.view g :=
    hviews.deterministic (fun _ _ _ _ h h' => h.deterministic h') hviews'
  obtain ⟨hsettings, hrecord, hcards⟩ := view_eq_iff.mp hview
  exact ⟨hrecord, hcards, hsettings⟩

end Runs

namespace Sample

/-- The sample game, with another game of player 34 and payments in between. -/
def busyTxs : List (Tx bingoToken) :=
  txs.take 6 ++
    [ ⟨Sample.msg 34 2000 5, .game .createGame⟩,
      ⟨Sample.msg 34 2100 5, .token (.transfer 51 100)⟩ ] ++
  (txs.drop 6).take 4 ++
    [ ⟨Sample.msg 34 5700 6, .game (.drawNumber 39)⟩,
      ⟨Sample.msg 34 5700 6, .game (.markNumberOnCard 39)⟩ ] ++
  txs.drop 10

def busyPlayed : List (Step bingoToken) × World bingoToken := genesis.play deployment busyTxs

end Sample

theorem games_isolated_sample :
    (Sample.played 15).1.length = 15 ∧ Sample.busyPlayed.1.length = 19 ∧
      (Sample.played 15).2.game.gameRegistry Sample.gameId
        = Sample.busyPlayed.2.game.gameRegistry Sample.gameId := by
  have hbusy : WorldRun Sample.deployment Sample.genesis Sample.busyPlayed.1 Sample.busyPlayed.2 :=
    World.play_run ..
  exact ⟨by decide +kernel, by decide +kernel,
    (games_isolated (Sample.played_run 15) hbusy (by decide +kernel)).1⟩

end BitmaskBingo
