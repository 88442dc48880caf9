/-
  BitmaskBingo.World

  The game contract together with its token, and their runs.  The token is a
  parameter: any contract that answers the two calls of `IERC20` without
  calling back, and that anybody may call in between.  A step of a run is one
  successful transaction; a transaction that reverts leaves the world as it
  was and is no step.

  A step records who called what in which block, what was returned, and the
  worlds before and after.  The vocabulary of histories (`creates`, `joins`,
  `draws`, ...) reads it.
-/

import BitmaskBingo.Segments
import BitmaskBingo.Lib.Trace

namespace BitmaskBingo

open Lib

/-- A token: its state, its external functions, and which of them stand
    behind the calls the game makes. -/
structure Token where
  State : Type
  Op : Type
  exec : Op → Msg → State → Except Revert State
  ofIERC20 : IERC20 → Op

variable {T : Token}

/-- The token as the game calls it: `msg.sender` is the game contract. -/
def Token.callee (T : Token) (d : Deployment) (msg : Msg) (c : IERC20) (t : T.State) :
    Except Revert T.State :=
  T.exec (T.ofIERC20 c) { msg with sender := d.this } t

/-- The storage of both contracts. -/
structure World (T : Token) where
  game : Storage
  token : T.State

/-- A transaction calls the game or the token. -/
inductive Action (T : Token) where
  | game (c : Call)
  | token (op : T.Op)

structure Tx (T : Token) where
  msg : Msg
  action : Action T

namespace World

/-- The world in which the game has just been deployed. -/
def initial (t : T.State) : World T := ⟨Storage.initial, t⟩

/-- Execute a transaction. -/
def exec (d : Deployment) (w : World T) (tx : Tx T) : Except Revert (World T × Returned) :=
  match tx.action with
  | .game c =>
      match (dispatch d tx.msg c w.game).runWith (T.callee d tx.msg) w.token with
      | .error e => .error e
      | .ok (s, t, r) => .ok (⟨s, t⟩, r)
  | .token op =>
      match T.exec op tx.msg w.token with
      | .error e => .error e
      | .ok t => .ok (⟨w.game, t⟩, .unit)

theorem exec_game_iff {d : Deployment} {w w' : World T} {msg : Msg} {c : Call} {r : Returned} :
    w.exec d ⟨msg, .game c⟩ = .ok (w', r) ↔
      Effect d msg w.game c r w'.game ∧
        runCalls (T.callee d msg) (tokenCalls d msg w.game c) w.token = .ok w'.token := by
  rw [← run_dispatch_iff]
  simp only [exec]
  cases (dispatch d msg c w.game).runWith (T.callee d msg) w.token with
  | error e => simp
  | ok x =>
      obtain ⟨s, t, r'⟩ := x
      obtain ⟨s', t'⟩ := w'
      simp [and_assoc]

/-- Code that reverts before its first call to the token. -/
theorem exec_error_of_revert {d : Deployment} {w : World T} {msg : Msg} {c : Call} {r : Revert}
    (h : dispatch d msg c w.game = .revert r) : w.exec d ⟨msg, .game c⟩ = .error r := by
  simp only [exec, h, Resumption.runWith_revert]

theorem exec_token_iff {d : Deployment} {w w' : World T} {msg : Msg} {op : T.Op} {r : Returned} :
    w.exec d ⟨msg, .token op⟩ = .ok (w', r) ↔
      T.exec op msg w.token = .ok w'.token ∧ w'.game = w.game ∧ r = .unit := by
  simp only [exec]
  cases T.exec op msg w.token with
  | error e => simp
  | ok t =>
      obtain ⟨s', t'⟩ := w'
      simp only [Except.ok.injEq, Prod.mk.injEq, World.mk.injEq]
      refine ⟨?_, ?_⟩
      · rintro ⟨⟨hs, ht⟩, hr⟩
        exact ⟨ht, hs.symm, hr.symm⟩
      · rintro ⟨ht, hs, hr⟩
        exact ⟨⟨hs.symm, ht⟩, hr.symm⟩

end World

-- ============================================================================
-- Steps and runs
-- ============================================================================

/-- A successful transaction. -/
structure Step (T : Token) where
  pre : World T
  tx : Tx T
  ret : Returned
  post : World T

namespace Step

variable (e : Step T)

def sender : Address := e.tx.msg.sender

def block : Block := e.tx.msg.block

def time : Nat := e.block.timestamp.toNat

/-- The function of the game that was called, if it was the game. -/
def call? : Option Call :=
  match e.tx.action with
  | .game c => some c
  | .token _ => none

/-- A successful `createGame` that returned this id. -/
def creates (g : Bytes32) : Prop := e.call? = some .createGame ∧ e.ret = .gameId g

def joins (g : Bytes32) : Prop := e.call? = some (.joinGame g)

def draws (g : Bytes32) : Prop := e.call? = some (.drawNumber g)

def marks (g : Bytes32) : Prop := e.call? = some (.markNumberOnCard g)

def claims (g : Bytes32) : Prop := e.call? = some (.claimPrize g)

/-- The calls that deal the caller a card. -/
def enters (g : Bytes32) : Prop := e.creates g ∨ e.joins g

/-- The step deals its caller a card, in whichever game. -/
def deals : Prop :=
  match e.call? with
  | some .createGame | some (.joinGame _) => True
  | _ => False

instance : Decidable e.deals := by
  unfold deals
  split <;> infer_instance

instance (g : Bytes32) : Decidable (e.creates g) := inferInstanceAs (Decidable (_ ∧ _))
instance (g : Bytes32) : Decidable (e.joins g) := inferInstanceAs (Decidable (_ = _))
instance (g : Bytes32) : Decidable (e.draws g) := inferInstanceAs (Decidable (_ = _))
instance (g : Bytes32) : Decidable (e.marks g) := inferInstanceAs (Decidable (_ = _))
instance (g : Bytes32) : Decidable (e.claims g) := inferInstanceAs (Decidable (_ = _))
instance (g : Bytes32) : Decidable (e.enters g) := inferInstanceAs (Decidable (_ ∨ _))

def ValidTime : Prop := e.block.ValidTime

instance : Decidable e.ValidTime := inferInstanceAs (Decidable e.block.ValidTime)

variable {e}

theorem enters.deals {g : Bytes32} (h : e.enters g) : e.deals := by
  rcases h with ⟨hc, -⟩ | hj
  · rw [Step.deals, hc]
    trivial
  · rw [Step.deals, hj]
    trivial

/-! ## Calls exclude each other -/

variable {g g' : Bytes32}

theorem enters.not_marks (h : e.enters g) : ¬ e.marks g' := by
  intro hm
  rcases h with h | h
  · cases h.1.symm.trans hm
  · cases h.symm.trans hm

theorem draws.not_enters (h : e.draws g) : ¬ e.enters g' := by
  rintro (hc | hj)
  · cases h.symm.trans hc.1
  · cases h.symm.trans hj

theorem claims.not_enters (h : e.claims g) : ¬ e.enters g' := by
  rintro (hc | hj)
  · cases h.symm.trans hc.1
  · cases h.symm.trans hj

theorem claims.not_draws (h : e.claims g) : ¬ e.draws g' := by
  intro hd
  cases h.symm.trans hd

end Step

/-- The transitions of the world. -/
def Steps (d : Deployment) (w : World T) (e : Step T) (w' : World T) : Prop :=
  e.pre = w ∧ e.post = w' ∧ w.exec d e.tx = .ok (w', e.ret)

/-- The runs of the world. -/
abbrev WorldRun (d : Deployment) : World T → List (Step T) → World T → Prop := Run (Steps d)

/-- The timestamps never decrease along the history. -/
def NonDecreasing (l : List (Step T)) : Prop := l.Pairwise fun e e' => e.time ≤ e'.time

instance (l : List (Step T)) : Decidable (NonDecreasing l) :=
  inferInstanceAs (Decidable (l.Pairwise _))

theorem NonDecreasing.left {l l' : List (Step T)} (h : NonDecreasing (l ++ l')) :
    NonDecreasing l := (List.pairwise_append.mp h).1

theorem NonDecreasing.le_last {l : List (Step T)} {e : Step T} (h : NonDecreasing (l ++ [e])) :
    ∀ e' ∈ l, e'.time ≤ e.time := fun e' he' =>
  (List.pairwise_append.mp h).2.2 e' he' e (List.mem_singleton_self e)

/-- Execute transactions one after another.  One that reverts leaves no
    trace. -/
def World.play (d : Deployment) (w : World T) : List (Tx T) → List (Step T) × World T
  | [] => ([], w)
  | tx :: txs =>
      match w.exec d tx with
      | .error _ => w.play d txs
      | .ok (w', r) =>
          let (l, w'') := w'.play d txs
          (⟨w, tx, r, w'⟩ :: l, w'')

theorem World.play_cons_ok {d : Deployment} {w w' : World T} {tx : Tx T} {txs : List (Tx T)}
    {r : Returned} (h : w.exec d tx = .ok (w', r)) :
    w.play d (tx :: txs) = (⟨w, tx, r, w'⟩ :: (w'.play d txs).1, (w'.play d txs).2) := by
  rw [World.play, h]

theorem World.play_cons_error {d : Deployment} {w : World T} {tx : Tx T} {txs : List (Tx T)}
    {e : Revert} (h : w.exec d tx = .error e) : w.play d (tx :: txs) = w.play d txs := by
  rw [World.play, h]

theorem World.play_run (d : Deployment) (w : World T) (txs : List (Tx T)) :
    WorldRun d w (w.play d txs).1 (w.play d txs).2 := by
  induction txs generalizing w with
  | nil => exact .nil
  | cons tx txs ih =>
      rw [World.play]
      cases h : w.exec d tx with
      | error e => exact ih w
      | ok x => exact Run.cons ⟨rfl, rfl, h⟩ (ih x.1)

/-! ## What a step does -/

section Changes

variable {d : Deployment} {w w' : World T} {e : Step T}

/-- A step of the game has an effect and its token calls were accepted. -/
theorem Steps.of_call {c : Call} (h : Steps d w e w') (hc : e.call? = some c) :
    Effect d e.tx.msg w.game c e.ret w'.game ∧
      runCalls (T.callee d e.tx.msg) (tokenCalls d e.tx.msg w.game c) w.token = .ok w'.token := by
  obtain ⟨_, _, hexec⟩ := h
  obtain ⟨_, ⟨msg, act⟩, _, _⟩ := e
  cases act with
  | game c' =>
      obtain rfl : c' = c := by simpa [Step.call?] using hc
      exact World.exec_game_iff.mp hexec
  | token op => simp [Step.call?] at hc

/-- A step of the token leaves the game alone. -/
theorem Steps.of_token (h : Steps d w e w') (hc : e.call? = none) : w'.game = w.game := by
  obtain ⟨_, _, hexec⟩ := h
  obtain ⟨_, ⟨msg, act⟩, _, _⟩ := e
  cases act with
  | game c' => simp [Step.call?] at hc
  | token op => exact (World.exec_token_iff.mp hexec).2.1

theorem Steps.of_joins {g : Bytes32} (h : Steps d w e w') (he : e.joins g) :
    w.game.JoinOpen e.block.timestamp g := by
  have heff := (h.of_call he).1
  generalize e.ret = r at heff
  generalize w'.game = s' at heff
  cases heff with
  | joinGame hopen => exact hopen

theorem Steps.of_draws {g : Bytes32} (h : Steps d w e w') (he : e.draws g) :
    w.game.OnlyPlayer e.sender g ∧ w.game.DrawOpen e.block.timestamp g := by
  have heff := (h.of_call he).1
  generalize e.ret = r at heff
  generalize w'.game = s' at heff
  cases heff with
  | drawNumber hplayer hopen => exact ⟨hplayer, hopen⟩

theorem Steps.of_claims {g : Bytes32} (h : Steps d w e w') (he : e.claims g) :
    w.game.OnlyPlayer e.sender g ∧ w.game.checkForWinner e.sender g = true := by
  have heff := (h.of_call he).1
  generalize e.ret = r at heff
  generalize w'.game = s' at heff
  cases heff with
  | claimPrize hplayer hwin => exact ⟨hplayer, hwin⟩

/-- A game is created where there is none. -/
theorem Steps.of_creates {g : Bytes32} (h : Steps d w e w') (he : e.creates g) :
    (w.game.gameRegistry g).createdAt = 0 ∧
      w'.game.gameRegistry g = newGame e.tx.msg w.game.gameSettings.entryFee := by
  have heff := (h.of_call he.1).1
  rw [he.2] at heff
  generalize w'.game = s' at heff
  cases heff with
  | createGame hblock hnew => exact ⟨hnew, by simp⟩

/-- What a step can do to the record of game `g`. -/
inductive RecordChange (d : Deployment) (e : Step T) (s : Storage) (g : Bytes32) : Game → Prop where
  | same (hc : ¬ e.creates g) (hj : ¬ e.joins g) (hd : ¬ e.draws g) (hp : ¬ e.claims g) :
      RecordChange d e s g (s.gameRegistry g)
  | created (he : e.creates g) (hnew : (s.gameRegistry g).createdAt = 0) :
      RecordChange d e s g (newGame e.tx.msg s.gameSettings.entryFee)
  | joined {pot : Uint64} (he : e.joins g) (hopen : s.JoinOpen e.block.timestamp g)
      (hpot : pot.toNat = (s.gameRegistry g).prizePool.toNat
        + (uint64 s.gameSettings.entryFee).toNat) :
      RecordChange d e s g { s.gameRegistry g with prizePool := pot }
  | drawn (he : e.draws g) (hplayer : s.OnlyPlayer e.sender g)
      (hopen : s.DrawOpen e.block.timestamp g) :
      RecordChange d e s g ((s.gameRegistry g).drawn d e.block)
  | claimed (he : e.claims g) (hplayer : s.OnlyPlayer e.sender g)
      (hwin : s.checkForWinner e.sender g = true) :
      RecordChange d e s g (s.gameRegistry g).finished

/-- What a step can do to the card of player `p` in game `g`. -/
inductive CardChange (d : Deployment) (e : Step T) (s : Storage) (p : Address) (g : Bytes32) :
    BingoCard → Prop where
  | same (hd : ¬ (e.sender = p ∧ e.enters g)) (hm : ¬ (e.sender = p ∧ e.marks g)) :
      CardChange d e s p g (s.playerRegistry p g)
  | dealt (hp : e.sender = p) (he : e.enters g) :
      CardChange d e s p g (newCard d e.block)
  | marked (hp : e.sender = p) (he : e.marks g) (hplayer : s.OnlyPlayer p g)
      (hmem : (s.gameRegistry g).lastDrawnNumber.toNat
        ∈ cardTiles (s.playerRegistry p g).numberStorage) :
      CardChange d e s p g
        ((s.playerRegistry p g).marked (s.gameRegistry g).lastDrawnNumber.toNat)

theorem Steps.record (h : Steps d w e w') (g : Bytes32) :
    RecordChange d e w.game g (w'.game.gameRegistry g) := by
  cases hc : e.call? with
  | none =>
      rw [h.of_token hc]
      exact .same (by simp [Step.creates, hc]) (by simp [Step.joins, hc])
        (by simp [Step.draws, hc]) (by simp [Step.claims, hc])
  | some c =>
      have heff := (h.of_call hc).1
      generalize hr : e.ret = r at heff
      generalize w'.game = s' at heff
      cases heff with
      | createGame hb hnew =>
          by_cases hg : g = newGameId d e.tx.msg
          · subst hg
            simpa using RecordChange.created ⟨hc, hr⟩ hnew
          · rw [Storage.setCard_gameRegistry, Storage.setGame_gameRegistry, if_neg hg]
            exact .same (by simp [Step.creates, hr, Ne.symm hg]) (by simp [Step.joins, hc])
              (by simp [Step.draws, hc]) (by simp [Step.claims, hc])
      | @joinGame g' pot hopen hpot hb =>
          by_cases hg : g = g'
          · subst hg
            simpa using RecordChange.joined hc hopen hpot
          · rw [Storage.setCard_gameRegistry, Storage.setGame_gameRegistry, if_neg hg]
            exact .same (by simp [Step.creates, hc]) (by simp [Step.joins, hc, Ne.symm hg])
              (by simp [Step.draws, hc]) (by simp [Step.claims, hc])
      | @drawNumber g' hplayer hopen hb =>
          by_cases hg : g = g'
          · subst hg
            rw [Storage.setGame_gameRegistry, if_pos rfl]
            exact .drawn hc hplayer hopen
          · rw [Storage.setGame_gameRegistry, if_neg hg]
            exact .same (by simp [Step.creates, hc]) (by simp [Step.joins, hc])
              (by simp [Step.draws, hc, Ne.symm hg]) (by simp [Step.claims, hc])
      | @claimPrize g' hplayer hwin =>
          by_cases hg : g = g'
          · subst hg
            simpa using RecordChange.claimed hc hplayer hwin
          · rw [Storage.setGame_gameRegistry, if_neg hg]
            exact .same (by simp [Step.creates, hc]) (by simp [Step.joins, hc])
              (by simp [Step.draws, hc]) (by simp [Step.claims, hc, Ne.symm hg])
      | _ =>
          exact .same (by simp [Step.creates, hc]) (by simp [Step.joins, hc])
            (by simp [Step.draws, hc]) (by simp [Step.claims, hc])

theorem Steps.card (h : Steps d w e w') (p : Address) (g : Bytes32) :
    CardChange d e w.game p g (w'.game.playerRegistry p g) := by
  cases hc : e.call? with
  | none =>
      rw [h.of_token hc]
      exact .same (by simp [Step.enters, Step.creates, Step.joins, hc]) (by simp [Step.marks, hc])
  | some c =>
      have heff := (h.of_call hc).1
      generalize hr : e.ret = r at heff
      generalize w'.game = s' at heff
      cases heff with
      | createGame hb hnew =>
          rw [Storage.setCard_playerRegistry, Storage.setGame_playerRegistry]
          by_cases hpg : p = e.tx.msg.sender ∧ g = newGameId d e.tx.msg
          · rw [if_pos hpg]
            exact .dealt hpg.1.symm (Or.inl ⟨hc, hpg.2 ▸ hr⟩)
          · rw [if_neg hpg]
            refine .same (fun ⟨hp, he⟩ => hpg ⟨hp.symm, ?_⟩) (by simp [Step.marks, hc])
            rcases he with ⟨-, hret⟩ | hj
            · exact Returned.gameId.inj (hret.symm.trans hr)
            · simp [Step.joins, hc] at hj
      | @joinGame g' pot hopen hpot hb =>
          rw [Storage.setCard_playerRegistry, Storage.setGame_playerRegistry]
          by_cases hpg : p = e.tx.msg.sender ∧ g = g'
          · rw [if_pos hpg]
            exact .dealt hpg.1.symm (Or.inr (hpg.2 ▸ hc))
          · rw [if_neg hpg]
            refine .same (fun ⟨hp, he⟩ => hpg ⟨hp.symm, ?_⟩) (by simp [Step.marks, hc])
            rcases he with ⟨hcr, -⟩ | hj
            · simp [hc] at hcr
            · simpa [Step.joins, hc, eq_comm] using hj
      | @markNumberOnCard g' hplayer hmem =>
          rw [Storage.setCard_playerRegistry]
          by_cases hpg : p = e.tx.msg.sender ∧ g = g'
          · rw [if_pos hpg]
            obtain ⟨rfl, rfl⟩ := hpg
            exact .marked rfl hc hplayer hmem
          · rw [if_neg hpg]
            refine .same (by simp [Step.enters, Step.creates, Step.joins, hc])
              (fun ⟨hp, he⟩ => hpg ⟨hp.symm, ?_⟩)
            simpa [Step.marks, hc, eq_comm] using he
      | _ =>
          exact .same (by simp [Step.enters, Step.creates, Step.joins, hc])
            (by simp [Step.marks, hc])

end Changes

end BitmaskBingo
