/-
  BitmaskBingo.Playing

  Every game is a game of bingo, whatever the token does.  A game of the
  contract, seen segment by segment, is a play of `Lib.Bingo`: tiles are the
  bits of a hit word, lines are the rows, columns and diagonals, and a number
  is on the first tile of a card that carries it.  What is fair there is fair
  here, also when the token calls back in the middle of a `createGame`, a
  `joinGame` or a `claimPrize`.
-/

import BitmaskBingo.LifeCycle
import BitmaskBingo.Reentrancy
import BitmaskBingo.Lib.Bingo

namespace BitmaskBingo

open Lib StorageUtils
open Lib.Bingo (Rules Table Move Stage called)

variable {d : Deployment} {g : Bytes32} {seg : GameSegment} {l : List GameSegment}
  {s s' : Storage} {p : Address}

-- ============================================================================
-- The contract's bingo
-- ============================================================================

/-- Cards are the words of numbers, tiles the bits of a hit word. -/
def rules : Rules Uint256 Nat Nat where
  free := {12}
  lines := Set.range fun ℓ : Line => Set.range ℓ.tile
  tile? card n := if n ∈ cardTiles card then some ((cardTiles card).idxOf n) else none

def Game.stage (game : Game) : Stage Nat :=
  if game.createdAt = 0 then .unborn
  else if game.lastDrawnNumber = 999 then .joining
  else if game.lastDrawnNumber = 1000 then .finished
  else .drawing game.lastDrawnNumber.toNat

/-- The card a player has, if any: the contract knows members by their
    numbers. -/
def BingoCard.card? (c : BingoCard) : Option (Bingo.Card Uint256 Nat) :=
  if c.numberStorage = 0 then none
  else some ⟨c.numberStorage, {i | c.hitStorage.getLsbD i = true}⟩

def Storage.table (s : Storage) (g : Bytes32) : Table Address Uint256 Nat Nat :=
  ⟨(s.gameRegistry g).stage, fun p => (s.playerRegistry p g).card?,
    (s.gameRegistry g).prizePool.toNat⟩

/-- The card dealt in a block; all zeros is no card. -/
def dealtCard? (d : Deployment) (block : Block) : Option Uint256 :=
  if dealtCard d.keccak256 block.entropy = 0 then none
  else some (dealtCard d.keccak256 block.entropy)

/-- The move on game `g` that a segment makes. -/
def GameSegment.move? (d : Deployment) (g : Bytes32) (seg : GameSegment) :
    Option (Move Address Uint256 Nat) :=
  let msg := seg.entry.1
  match seg.entry.2, seg.resumed, seg.outcome with
  | .createGame, some (.transferFrom _ _ fee), .inr (.gameId id) =>
      if id = g then some (.create msg.sender (dealtCard? d msg.block) (uint64 fee).toNat)
      else none
  | .joinGame id, some (.transferFrom _ _ fee), .inr _ =>
      if id = g then some (.join msg.sender (dealtCard? d msg.block) (uint64 fee).toNat)
      else none
  | .drawNumber id, none, .inr _ =>
      if id = g then some (.draw msg.sender (drawnNumber d msg.block)) else none
  | .markNumberOnCard id, none, .inr _ => if id = g then some (.mark msg.sender) else none
  | .claimPrize id, none, .inl _ =>
      if id = g then some (.claim msg.sender (seg.taken g)) else none
  | _, _, _ => none

-- ============================================================================
-- The table of a storage
-- ============================================================================

section Tables

variable {game : Game} {card : BingoCard}

theorem Game.stage_open (hexists : game.createdAt ≠ 0) (hnot_over : game.lastDrawnNumber ≠ 1000) :
    game.stage.Open := by
  rw [Game.stage, if_neg hexists]
  by_cases hjoining : game.lastDrawnNumber = 999
  · rw [if_pos hjoining]
    trivial
  · rw [if_neg hjoining, if_neg hnot_over]
    trivial

theorem Game.stage_unborn_iff : game.stage = .unborn ↔ game.createdAt = 0 := by
  rw [Game.stage]
  repeat' split
  all_goals simp_all

/-- A number of 0 to 255 is the number of a game that draws. -/
theorem Game.stage_drawing (hexists : game.createdAt ≠ 0) (hlt : game.lastDrawnNumber.toNat < 256) :
    game.stage = .drawing game.lastDrawnNumber.toNat := by
  rw [Game.stage, if_neg hexists, if_neg (ne_joining_of_lt hlt), if_neg (ne_finished_of_lt hlt)]

theorem newCard_card? (block : Block) :
    (newCard d block).card? = (dealtCard? d block).map rules.dealt := by
  have hfree : {i | (4096 : Uint32).getLsbD i = true} = ({12} : Set Nat) := by
    ext i
    rw [Set.mem_ofPred_eq, Set.mem_singleton_iff,
      show (4096 : Uint32) = BitVec.twoPow 32 12 from rfl, BitVec.getLsbD_twoPow]
    simp [eq_comm]
  by_cases hzero : dealtCard d.keccak256 block.entropy = 0
  · rw [BingoCard.card?, dealtCard?, if_pos hzero]
    exact if_pos hzero
  · rw [BingoCard.card?, dealtCard?, if_neg hzero]
    refine (if_neg hzero).trans ?_
    rw [Option.map_some]
    exact congrArg some (congrArg _ hfree)

/-- A mark covers the tile of the number. -/
theorem BingoCard.marked_card? {n : Nat} (hcard : card.numberStorage ≠ 0)
    (hmem : n ∈ cardTiles card.numberStorage) :
    (card.marked n).card? = some ⟨card.numberStorage,
      insert ((cardTiles card.numberStorage).idxOf n) {i | card.hitStorage.getLsbD i = true}⟩ := by
  have hidx := List.idxOf_lt_length_of_mem hmem
  rw [cardTiles_length] at hidx
  rw [BingoCard.card?]
  refine (if_neg hcard).trans (congrArg some (congrArg _ ?_))
  ext i
  have hset := setBitValueByIndex_getLsbD card.hitStorage
    (by omega : (cardTiles card.numberStorage).idxOf n < 32) i
  rw [Set.mem_ofPred_eq, Set.mem_insert_iff, Set.mem_ofPred_eq, BingoCard.marked, hset,
    Bool.or_eq_true, decide_eq_true_eq]
  tauto

end Tables

theorem table_setGame (r : Game) :
    (s.setGame g r).table g = ⟨r.stage, (s.table g).cards, r.prizePool.toNat⟩ := by
  simp [Storage.table]

theorem table_setCard (c : BingoCard) :
    (s.setCard p g c).table g
      = { s.table g with cards := Function.update (s.table g).cards p c.card? } := by
  have hcards : (fun q => ((s.setCard p g c).playerRegistry q g).card?)
      = Function.update (fun q => (s.playerRegistry q g).card?) p c.card? := by
    funext q
    rw [Storage.setCard_playerRegistry, Function.update_apply]
    by_cases hq : q = p
    · rw [if_pos ⟨hq, rfl⟩, if_pos hq]
    · rw [if_neg fun h => hq h.1, if_neg hq]
  rw [Storage.table, hcards]
  rfl

/-- What is written to another game is not on the table. -/
theorem table_setGame_ne {id : Bytes32} (hg : g ≠ id) (r : Game) :
    (s.setGame id r).table g = s.table g := by
  simp [Storage.table, hg]

theorem table_setCard_ne {id : Bytes32} (hg : g ≠ id) (c : BingoCard) :
    (s.setCard p id c).table g = s.table g := by
  simp [Storage.table, hg]

/-- The card of a member. -/
theorem Storage.OnlyPlayer.card? (h : s.OnlyPlayer p g) :
    (s.table g).cards p = some ⟨(s.playerRegistry p g).numberStorage,
      {i | (s.playerRegistry p g).hitStorage.getLsbD i = true}⟩ := if_neg h.member

theorem Storage.OnlyPlayer.open_ (h : s.OnlyPlayer p g) : (s.table g).stage.Open :=
  Game.stage_open h.exists_ h.not_over

-- ============================================================================
-- A segment is a move
-- ============================================================================

/-- `claimPrize` gets to the token with a bingo only. -/
def GameSegment.Wins (seg : GameSegment) : Prop :=
  ∀ g, seg.takes g → seg.before.checkForWinner seg.entry.1.sender g = true

theorem dispatch_wins {msg : Msg} (c : Call) :
    (dispatch d msg c s).Safe KeepsGames GameSegment.Wins (msg, c) none s := by
  by_cases hclaim : ∃ id, c = .claimPrize id
  swap
  · refine .of_forall (fun seg hentry id htakes => ?_) _
    have hcall : c = .claimPrize id := by
      rw [← htakes.1, hentry]
    exact absurd ⟨id, hcall⟩ hclaim
  obtain ⟨id, rfl⟩ := hclaim
  simp only [dispatch, Code.bind_apply, Code.pure_apply]
  by_cases h : s.OnlyPlayer msg.sender id ∧ s.checkForWinner msg.sender id = true
  · rw [claimPrize_ok d h.1 h.2]
    refine ⟨?_, fun _ _ => ⟨fun _ htakes => ?_, fun _ _ _ htakes => ?_⟩⟩
    · rintro id' ⟨hcall, -⟩
      cases hcall
      exact h.2
    · cases htakes.2
    · cases htakes.2
  · obtain ⟨e, _, he⟩ := claimPrize_error d h
    rw [he, Resumption.bind_revert]
    trivial

/-- A claimer's line is covered. -/
theorem winner_line (hwin : s.checkForWinner p g = true) :
    ∃ line ∈ rules.lines, line ⊆ {i | (s.playerRegistry p g).hitStorage.getLsbD i = true} := by
  obtain ⟨ℓ, hhit⟩ := (checkForBingo_iff _).mp hwin
  refine ⟨Set.range ℓ.tile, ⟨ℓ, rfl⟩, ?_⟩
  rintro _ ⟨k, rfl⟩
  exact hhit k

/-- A move, or nothing that shows on the table. -/
def TableStep (t : Table Address Uint256 Nat Nat) (m? : Option (Move Address Uint256 Nat))
    (t' : Table Address Uint256 Nat Nat) : Prop :=
  match m? with
  | some m => rules.Step t m t'
  | none => t' = t

/-- Functions without token calls. -/
private theorem effect_tableStep {msg : Msg} {c : Call} {r : Returned}
    (hcalls : tokenCalls d msg s c = []) (heff : Effect d msg s c r s') :
    TableStep (s.table g) (GameSegment.move? d g ⟨(msg, c), none, s, s', .inr r⟩) (s'.table g) := by
  cases heff with
  | createGame => cases hcalls
  | joinGame => cases hcalls
  | claimPrize => cases hcalls
  | updateEntryFee => rfl
  | updateJoinDuration => rfl
  | updateUpdateTurnDuration => rfl
  | @drawNumber id hplayer hopen hblock =>
      by_cases hg : id = g
      · subst hg
        have hlt : ((s.gameRegistry id).drawn d msg.block).lastDrawnNumber.toNat < 256 :=
          drawn_lt _ _
        have hexists : ((s.gameRegistry id).drawn d msg.block).createdAt ≠ 0 := hplayer.exists_
        have hstage := Game.stage_drawing hexists hlt
        rw [drawn_lastDrawnNumber_toNat] at hstage
        simp only [GameSegment.move?, if_true, TableStep, table_setGame, hstage]
        exact .draw hplayer.open_ hplayer.card?
      · simp only [GameSegment.move?, if_neg hg, TableStep]
        exact table_setGame_ne (Ne.symm hg) _
  | @markNumberOnCard id hplayer hmem =>
      by_cases hg : id = g
      · subst hg
        have hlt := cardTiles_lt _ _ hmem
        have hstage := Game.stage_drawing hplayer.exists_ hlt
        simp only [GameSegment.move?, if_true, TableStep, table_setCard,
          BingoCard.marked_card? hplayer.member hmem]
        exact .mark hstage hplayer.card? (if_pos hmem)
      · simp only [GameSegment.move?, if_neg hg, TableStep]
        exact table_setCard_ne (Ne.symm hg) _

theorem SegmentEffect.tableStep (h : SegmentEffect d seg) (hwins : seg.Wins) (g : Bytes32) :
    TableStep (seg.before.table g) (seg.move? d g) (seg.after.table g) := by
  cases h with
  | runs hcalls heff => exact effect_tableStep hcalls heff
  | asksToCreate => rfl
  | asksToJoin => rfl
  | @pays _ _ _ _ outcome => cases outcome <;> rfl
  | @creates msg s fee htime hnew =>
      by_cases hg : newGameId d msg = g
      · have hcreated : (newGame msg fee).createdAt ≠ 0 := Block.ValidTime.uint64_ne_zero htime
        have hstage : (newGame msg fee).stage = .joining := by
          rw [Game.stage, if_neg hcreated]
          rfl
        subst hg
        simp only [GameSegment.move?, if_true, TableStep, table_setCard, table_setGame, hstage,
          newCard_card?]
        exact .create (Game.stage_unborn_iff.mpr hnew)
      · simp only [GameSegment.move?, if_neg hg, TableStep]
        rw [table_setCard_ne (Ne.symm hg), table_setGame_ne (Ne.symm hg)]
  | @joins msg s id fee pot hexists hpot =>
      by_cases hg : id = g
      · subst hg
        simp only [GameSegment.move?, if_true, TableStep, table_setCard, table_setGame,
          newCard_card?, hpot]
        exact .join fun hunborn => hexists (Game.stage_unborn_iff.mp hunborn)
      · simp only [GameSegment.move?, if_neg hg, TableStep]
        rw [table_setCard_ne (Ne.symm hg), table_setGame_ne (Ne.symm hg)]
  | @claims msg s id hplayer =>
      by_cases hg : id = g
      · subst hg
        obtain ⟨line, hline, hcovered⟩ := winner_line (hwins id ⟨rfl, rfl⟩)
        have hexists : (s.gameRegistry id).finished.createdAt ≠ 0 := hplayer.exists_
        have hstage : (s.gameRegistry id).finished.stage = .finished := by
          rw [Game.stage, if_neg hexists]
          rfl
        simp only [GameSegment.move?, if_true, TableStep, table_setGame, hstage,
          GameSegment.taken]
        exact .claim hplayer.open_ hplayer.card? hline hcovered
      · simp only [GameSegment.move?, if_neg hg, TableStep]
        exact table_setGame_ne (Ne.symm hg) _

/-- What the segments in effect are. -/
def Described (d : Deployment) (seg : GameSegment) : Prop := SegmentEffect d seg ∧ seg.Wins

theorem ReentrantRun.described {acts : List (Act Entry)} {c : GameConfig}
    (hrun : ReentrantRun d acts c) (htime : ∀ a ∈ acts, a.Enters ValidEntry) :
    Run (SegmentStep (Described d)) Storage.initial c.now.log c.now.storage :=
  ((relyGuarantee d).and fun e _ _ => dispatch_wins e.2).history hrun htime

theorem segments_effect (hrun : Run (SegmentStep (Described d)) s l s') :
    ∀ seg ∈ l, SegmentEffect d seg := by
  intro seg hseg
  obtain ⟨_, _, _, _, -, -, ⟨-, -, heff, -⟩, -⟩ := hrun.exists_step hseg
  exact heff

/-- A run of segments is a play. -/
theorem segments_play (hrun : Run (SegmentStep (Described d)) s l s') (g : Bytes32) :
    Run rules.Step (s.table g) (l.filterMap (GameSegment.move? d g)) (s'.table g) := by
  have hstep : ∀ a seg b, SegmentStep (Described d) a seg b →
      TableStep (a.table g) (GameSegment.move? d g seg) (b.table g) := by
    rintro _ seg _ ⟨rfl, rfl, heff, hwins⟩
    exact heff.tableStep hwins g
  refine @Run.project _ _ _ _ _ _ _ _ _ (fun s => s.table g) _ hrun ?_ ?_
  · intro a seg b m he hm
    have htable := hstep a seg b he
    rwa [hm] at htable
  · intro a seg b he hm
    have htable := hstep a seg b he
    rwa [hm] at htable

/-- **Every game is bingo, whatever the token does.**  Under any callbacks, the
    segments in effect make a play of each game, and its table is the game's
    record and cards. -/
theorem reentrant_game_is_play {acts : List (Act Entry)} {c : GameConfig}
    (hrun : ReentrantRun d acts c) (htime : ∀ a ∈ acts, a.Enters ValidEntry) (g : Bytes32) :
    Run rules.Step Table.empty (c.now.log.filterMap (GameSegment.move? d g))
      (c.now.storage.table g) :=
  segments_play (hrun.described htime) g

theorem reentrant_game_is_play_sample :
    ((Sample.reentered 29).2.now.storage.table Sample.gameId).pot = 1000 ∧
    Run rules.Step Table.empty
      ((Sample.reentered 29).2.now.log.filterMap
        (GameSegment.move? Sample.deployment Sample.gameId))
      ((Sample.reentered 29).2.now.storage.table Sample.gameId) := by
  have hrun : ReentrantRun Sample.deployment (Sample.reentered 29).1 (Sample.reentered 29).2 :=
    Config.play_run ..
  exact ⟨by decide +kernel, reentrant_game_is_play hrun (by decide +kernel) Sample.gameId⟩

-- ============================================================================
-- What a play says of the segments
-- ============================================================================

namespace GameSegment

def sender (seg : GameSegment) : Address := seg.entry.1.sender

def draws (g : Bytes32) (seg : GameSegment) : Prop := seg.entry.2 = .drawNumber g

def marks (g : Bytes32) (seg : GameSegment) : Prop := seg.entry.2 = .markNumberOnCard g

/-- The caller of a `createGame` or `joinGame` is dealt a card of the game. -/
def deals (g : Bytes32) (seg : GameSegment) : Prop :=
  (seg.entry.2 = .createGame ∧ seg.outcome = .inr (.gameId g)) ∨
    (seg.entry.2 = .joinGame g ∧ seg.outcome = .inr .unit)

/-- A move was made by a call of its function. -/
theorem of_move? {m : Move Address Uint256 Nat} (h : seg.move? d g = some m) :
    match m with
    | .draw p n => seg.draws g ∧ seg.sender = p ∧ drawnNumber d seg.entry.1.block = n
    | .mark p => seg.marks g ∧ seg.sender = p
    | .claim p _ => seg.takes g ∧ seg.sender = p
    | .create _ _ _ | .join _ _ _ => True := by
  rw [move?] at h
  split at h
  all_goals first
    | cases h
    | obtain ⟨rfl, hm⟩ := Option.ite_none_right_eq_some.mp h
      obtain rfl := Option.some.inj hm
  · trivial
  · trivial
  · next hcall _ _ _ => exact ⟨hcall, rfl, rfl⟩
  · next hcall _ _ _ => exact ⟨hcall, rfl⟩
  · next hcall hresumed _ _ => exact ⟨⟨hcall, hresumed⟩, rfl⟩

end GameSegment

namespace SegmentEffect

theorem move?_draws (h : SegmentEffect d seg) (hdraws : seg.draws g) :
    seg.move? d g = some (.draw seg.sender (drawnNumber d seg.entry.1.block)) := by
  obtain ⟨⟨msg, c⟩, resumed, s, s', outcome⟩ := seg
  obtain rfl : c = .drawNumber g := hdraws
  cases h with
  | runs => exact if_pos rfl

theorem move?_marks (h : SegmentEffect d seg) (hmarks : seg.marks g) :
    seg.move? d g = some (.mark seg.sender) := by
  obtain ⟨⟨msg, c⟩, resumed, s, s', outcome⟩ := seg
  obtain rfl : c = .markNumberOnCard g := hmarks
  cases h with
  | runs => exact if_pos rfl

theorem move?_takes (h : SegmentEffect d seg) (htakes : seg.takes g) :
    seg.move? d g = some (.claim seg.sender (seg.taken g)) := by
  obtain ⟨⟨msg, c⟩, resumed, s, s', outcome⟩ := seg
  obtain ⟨rfl, rfl⟩ : c = .claimPrize g ∧ resumed = none := htakes
  cases h with
  | runs hcalls => cases hcalls
  | claims => exact if_pos rfl

theorem move?_deals (h : SegmentEffect d seg) (hdeals : seg.deals g) :
    ∃ m, seg.move? d g = some m ∧ m.Deals seg.sender := by
  obtain ⟨⟨msg, c⟩, resumed, s, s', outcome⟩ := seg
  rcases hdeals with ⟨hcall, hout⟩ | ⟨hcall, hout⟩
  · obtain rfl : c = .createGame := hcall
    obtain rfl : outcome = .inr (.gameId g) := hout
    cases h with
    | runs hcalls => cases hcalls
    | creates => exact ⟨_, if_pos rfl, rfl⟩
  · obtain rfl : c = .joinGame g := hcall
    obtain rfl : outcome = .inr .unit := hout
    cases h with
    | runs hcalls => cases hcalls
    | joins => exact ⟨_, if_pos rfl, rfl⟩

/-- The fees of the moves are what the segments credit. -/
theorem fees_eq (d : Deployment) (g : Bytes32) (l : List GameSegment) :
    ((l.filterMap (GameSegment.move? d g)).map Move.fee).sum
      = (l.map (GameSegment.credited g)).sum := by
  induction l with
  | nil => rfl
  | cons seg l ih =>
      have hfee : ((seg.move? d g).map Move.fee).getD 0 = seg.credited g := by
        rw [GameSegment.move?, GameSegment.credited]
        repeat' split
        all_goals grind [Move.fee]
      rw [List.map_cons, List.sum_cons, ← ih, ← hfee]
      cases hm : seg.move? d g with
      | none => rw [List.filterMap_cons_none hm, Option.map_none, Option.getD_none, Nat.zero_add]
      | some m =>
          rw [List.filterMap_cons_some hm, List.map_cons, List.sum_cons, Option.map_some,
            Option.getD_some]

end SegmentEffect

-- ============================================================================
-- Fair claims
-- ============================================================================

/-- What is picked out of a list stands somewhere in it. -/
private theorem exists_of_filterMap {α β : Type} {f : α → Option β} {l : List α} {k₁ k₂ : List β}
    {b : β} (h : l.filterMap f = k₁ ++ b :: k₂) :
    ∃ l₁ a l₂, l = l₁ ++ a :: l₂ ∧ l₁.filterMap f = k₁ ∧ f a = some b ∧ l₂.filterMap f = k₂ := by
  obtain ⟨l₁, l', rfl, hl₁, hl'⟩ := List.filterMap_eq_append_iff.mp h
  obtain ⟨skipped, a, l₂, rfl, hskipped, ha, hl₂⟩ := List.filterMap_eq_cons_iff.mp hl'
  refine ⟨l₁ ++ skipped, a, l₂, by rw [List.append_assoc], ?_, ha, hl₂⟩
  rw [List.filterMap_append, hl₁, List.filterMap_eq_nil_iff.mpr hskipped, List.append_nil]

/-- Player `p` covered tile `i` of a card fairly in the segments `l`: some draw
    gave the number for it, the player marked it before the next draw, and was
    not dealt a card since. -/
def Covered (d : Deployment) (g : Bytes32) (p : Address) (card : Uint256) (i : Nat)
    (l : List GameSegment) : Prop :=
  ∃ (l₁ l₂ l₃ : List GameSegment) (draw mark : GameSegment),
    l = l₁ ++ draw :: (l₂ ++ mark :: l₃) ∧
    draw.draws g ∧ (∀ seg ∈ l₂, ¬ seg.draws g) ∧
    mark.marks g ∧ mark.sender = p ∧ (∀ seg ∈ l₃, ¬ (seg.deals g ∧ seg.sender = p)) ∧
    drawnNumber d draw.entry.1.block ∈ cardTiles card ∧
    (cardTiles card).idxOf (drawnNumber d draw.entry.1.block) = i

/-- A tile that is backed in the play was covered by segments. -/
theorem covered_of_backed {card : Uint256} {i : Nat} (hall : ∀ seg ∈ l, SegmentEffect d seg)
    (h : rules.Backed p card i (l.filterMap (GameSegment.move? d g))) :
    Covered d g p card i l := by
  obtain ⟨k₁, k₂, n, hplay, hcalled, htile, hsince⟩ := h
  obtain ⟨l₁, mark, l₃, rfl, hl₁, hmark, hl₃⟩ := exists_of_filterMap hplay
  obtain ⟨j₁, q, j₂, rfl, hlast⟩ := Bingo.exists_call hcalled
  obtain ⟨l₁, draw, l₂, rfl, -, hdraw, hl₂⟩ := exists_of_filterMap hl₁
  obtain ⟨hdraws, -, rfl⟩ := GameSegment.of_move? hdraw
  obtain ⟨hmarks, hsender⟩ := GameSegment.of_move? hmark
  obtain ⟨hmem, hidx⟩ := Option.ite_none_right_eq_some.mp htile
  refine ⟨l₁, l₂, l₃, draw, mark, by rw [List.append_assoc, List.cons_append], hdraws, ?_, hmarks,
    hsender, ?_, hmem, Option.some.inj hidx⟩
  · intro seg hseg hagain
    have hmove := (hall seg (by simp [hseg])).move?_draws hagain
    have hnone := hlast _ (hl₂ ▸ List.mem_filterMap.mpr ⟨seg, hseg, hmove⟩)
    cases hnone
  · rintro seg hseg ⟨hdeals, rfl⟩
    obtain ⟨m, hmove, hm⟩ := (hall seg (by simp [hseg])).move?_deals hdeals
    exact hsince m (hl₃ ▸ List.mem_filterMap.mpr ⟨seg, hseg, hmove⟩) hm

/-- **Claims are fair under re-entrancy.**  Under any callbacks, a claim that
    gets to the token is of a player with a line of tiles covered fairly, takes
    what was credited until then, and is the last of the game but for joins. -/
theorem reentrant_claim_fair {acts : List (Act Entry)} {c : GameConfig}
    (hrun : ReentrantRun d acts c) (htime : ∀ a ∈ acts, a.Enters ValidEntry)
    {l₁ l₂ : List GameSegment} (hlog : c.now.log = l₁ ++ seg :: l₂) (htakes : seg.takes g) :
    (∃ ℓ : Line, ∀ k, ℓ.tile k ≠ 12 →
      Covered d g seg.sender (seg.before.playerRegistry seg.sender g).numberStorage
        (ℓ.tile k) l₁) ∧
    seg.taken g = (l₁.map (GameSegment.credited g)).sum ∧
    ∀ later ∈ l₂, ¬ later.draws g ∧ ¬ later.marks g ∧ ¬ later.takes g := by
  have hsegments := hrun.described htime
  rw [hlog] at hsegments
  obtain ⟨s, s', hbefore, ⟨rfl, rfl, heff, hwins⟩, hafter⟩ := hsegments.split_at
  have hstep := heff.tableStep hwins g
  rw [heff.move?_takes htakes] at hstep
  obtain ⟨⟨card, hcard, line, ⟨ℓ, rfl⟩, hbacked⟩, hprize, hjoins⟩ :=
    Bingo.claim_fair (segments_play hbefore g) hstep (segments_play hafter g)
  obtain ⟨-, hdeal⟩ := Option.ite_none_left_eq_some.mp hcard
  obtain rfl := Option.some.inj hdeal
  refine ⟨⟨ℓ, fun k hk => ?_⟩, ?_, ?_⟩
  · have hback := (hbacked (ℓ.tile k) ⟨k, rfl⟩).resolve_left hk
    exact covered_of_backed (segments_effect hbefore) hback
  · rw [hprize, SegmentEffect.fees_eq]
  · intro later hlater
    have heffect := segments_effect hafter later hlater
    have hjoin : ∀ m, later.move? d g = some m → ∃ p deal? fee, m = .join p deal? fee :=
      fun m hm => hjoins m (List.mem_filterMap.mpr ⟨later, hlater, hm⟩)
    refine ⟨fun hdraws => ?_, fun hmarks => ?_, fun htakes => ?_⟩
    · obtain ⟨_, _, _, hm⟩ := hjoin _ (heffect.move?_draws hdraws)
      cases hm
    · obtain ⟨_, _, _, hm⟩ := hjoin _ (heffect.move?_marks hmarks)
      cases hm
    · obtain ⟨_, _, _, hm⟩ := hjoin _ (heffect.move?_takes htakes)
      cases hm

namespace Sample

/-- Player 17 claims while player 51 pays for joining; the join ends later. -/
def claimSegment : GameSegment := (reentered 29).2.now.log.get ⟨14, by decide +kernel⟩

end Sample

open Sample in
theorem reentrant_claim_fair_sample :
    ∃ l₁ l₂, (reentered 29).2.now.log = l₁ ++ claimSegment :: l₂ ∧ l₂.length = 3 ∧
      claimSegment.taken gameId = (l₁.map (GameSegment.credited gameId)).sum ∧
      ∃ ℓ : Line, ∀ k, ℓ.tile k ≠ 12 →
        Covered deployment gameId claimSegment.sender
          (claimSegment.before.playerRegistry claimSegment.sender gameId).numberStorage
          (ℓ.tile k) l₁ := by
  have hrun : ReentrantRun deployment (reentered 29).1 (reentered 29).2 := Config.play_run ..
  have hlog : (reentered 29).2.now.log = (reentered 29).2.now.log.take 14
      ++ claimSegment :: (reentered 29).2.now.log.drop 15 := by
    rw [claimSegment, List.get_eq_getElem, ← List.drop_eq_getElem_cons, List.take_append_drop]
  have hfair := reentrant_claim_fair hrun (by decide +kernel) (g := gameId) hlog (by decide +kernel)
  exact ⟨_, _, hlog, by decide +kernel, hfair.2.1, hfair.1⟩

end BitmaskBingo
