/-
  BitmaskBingo.Events

  The functions of the game with the events they emit.  Each is the function
  of `Contract` again, with its `emit`s where the source has them; `Erases`
  says that nothing else changed, so what is known of the functions of
  `Contract` is known of these, also under a token that calls back.

  `events` says what a call has emitted when it succeeds, from the storage it
  started on.
-/

import BitmaskBingo.Segments
import BitmaskBingo.Lib.Logging

namespace BitmaskBingo

open Lib StorageUtils

/-- The events of the game contract. -/
inductive Event where
  | LogUint256 (val : Uint256)
  | GameCreated (creator : Address) (id : Bytes32) (creatorCardNumbers timestamp : Uint256)
  | PlayerJoined (id : Bytes32) (player : Address) (playerCardNumbers : Uint256)
  | GameNumberDrawn (gameId : Bytes32) (drawnBy : Address) (number : Uint256)
  | PlayerHitRecorded (player : Address) (gameId : Bytes32) (number hitPosition : Uint256)
  | GameEnded (gameId : Bytes32) (time : Uint256)
  | Bingo (gameId : Bytes32) (winner : Address) (prize : Uint256)
deriving Repr, DecidableEq

/-- Code of the contract that emits. -/
abbrev EmitM := LogCode Storage Event IERC20 Revert

namespace Emitting

open Lib.LogCode (sload sstore externalCall emit quietly)

-- ============================================================================
-- The functions that emit
-- ============================================================================

section Functions

variable (d : Deployment) (msg : Msg)

def createGame : EmitM Bytes32 := do
  let settings := (← sload).gameSettings
  let joinFee := settings.entryFee
  emit (.LogUint256 joinFee)
  externalCall (.transferFrom msg.sender d.this joinFee)
  let gameId := d.keccak256 (abiEncode [← msg.block.previousBlockhash, uint256 msg.sender])
  require (((← sload).gameRegistry gameId).createdAt = 0) "Duplicate Game ID"
  let newGame : Game :=
    { lastDrawnAt := uint64 msg.block.timestamp
      lastDrawnNumber := 999
      prizePool := uint64 joinFee
      createdAt := uint64 msg.block.timestamp }
  sstore fun s => s.setGame gameId newGame
  let playerNumbersForCard ←
    createBingoCardForPlayer d.keccak256 0 (← msg.block.previousBlockhash)
  sstore fun s => s.setCard msg.sender gameId
    { numberStorage := playerNumbersForCard, hitStorage := 4096 }
  emit (.GameCreated msg.sender gameId playerNumbersForCard msg.block.timestamp)
  return gameId

def joinGame (gameId : Bytes32) : EmitM Unit := do
  let gameJoined := (← sload).gameRegistry gameId
  require (gameJoined.createdAt > 0) "joinGame: Game does not exist"
  let settings := (← sload).gameSettings
  let joinEnd ← checkedAdd (uint256 gameJoined.createdAt) settings.minimumJoinDuration
  require (msg.block.timestamp < joinEnd) "joinGame: Game already started"
  let joinFee := (← sload).gameSettings.entryFee
  externalCall (.transferFrom msg.sender d.this joinFee)
  let g := (← sload).gameRegistry gameId
  let prizePool ← checkedAdd g.prizePool (uint64 joinFee)
  sstore fun s => s.setGame gameId { g with prizePool }
  let playerNumbersForCard ←
    createBingoCardForPlayer d.keccak256 0 (← msg.block.previousBlockhash)
  sstore fun s => s.setCard msg.sender gameId
    { numberStorage := playerNumbersForCard, hitStorage := 4096 }
  emit (.PlayerJoined gameId msg.sender playerNumbersForCard)

def drawNumber (gameId : Bytes32) : EmitM Unit := do
  quietly (onlyPlayer msg gameId)
  let game := (← sload).gameRegistry gameId
  let settings := (← sload).gameSettings
  let joinEnd ← checkedAdd (uint256 game.createdAt) settings.minimumJoinDuration
  require (msg.block.timestamp > joinEnd) "drawNumber: player are still joining"
  let turnEnd ← checkedAdd (uint256 game.lastDrawnAt) settings.minimumTurnDuration
  require (msg.block.timestamp > turnEnd) "drawNumber: turn duration pending"
  let random := d.keccak256 (abiEncode [← msg.block.previousBlockhash]) % 256
  sstore fun s => s.setGame gameId
    { game with
      lastDrawnNumber := uint64 random
      lastDrawnAt := uint64 msg.block.timestamp }
  emit (.GameNumberDrawn gameId msg.sender random)

def markNumberOnCard (gameId : Bytes32) : EmitM Unit := do
  quietly (onlyPlayer msg gameId)
  let playerCard := (← sload).playerRegistry msg.sender gameId
  let game := (← sload).gameRegistry gameId
  let lastDrawnNumber := uint256 game.lastDrawnNumber
  let numbers ← getNumbersArrayForCard playerCard.numberStorage
  let (hasNumber, location) := playerHasNumber numbers lastDrawnNumber
  require hasNumber "Player's card does not have last drawn number"
  let playerCardHits := setBitValueByIndex playerCard.hitStorage location
  sstore fun s => s.setCard msg.sender gameId { playerCard with hitStorage := playerCardHits }
  emit (.PlayerHitRecorded msg.sender gameId lastDrawnNumber (uint256 location))

def claimPrize (gameId : Bytes32) : EmitM Bool := do
  quietly (onlyPlayer msg gameId)
  let playerCard := (← sload).playerRegistry msg.sender gameId
  let playerHits := playerCard.hitStorage
  let isWinner := checkForBingo winningBingoMasks playerHits
  require isWinner "Player is not a winner"
  let game := (← sload).gameRegistry gameId
  let prize := uint256 game.prizePool
  sstore fun s => s.setGame gameId { game with lastDrawnNumber := 1000, prizePool := 0 }
  externalCall (.approve d.this prize)
  externalCall (.transferFrom d.this msg.sender prize)
  let success := true
  emit (.GameEnded gameId msg.block.timestamp)
  emit (.Bingo gameId msg.sender prize)
  return success

end Functions

/-- The code a call runs; the setters emit nothing. -/
def dispatch (d : Deployment) (msg : Msg) : Call → EmitM Returned
  | .createGame => do return .gameId (← createGame d msg)
  | .joinGame id => do joinGame d msg id; return .unit
  | .drawNumber id => do drawNumber d msg id; return .unit
  | .markNumberOnCard id => do markNumberOnCard msg id; return .unit
  | .claimPrize id => do return .success (← claimPrize d msg id)
  | .updateEntryFee fee => do quietly (updateEntryFee d msg fee); return .unit
  | .updateJoinDuration v => do quietly (updateJoinDuration d msg v); return .unit
  | .updateUpdateTurnDuration v => do quietly (updateUpdateTurnDuration d msg v); return .unit

-- ============================================================================
-- The same functions, apart from the events
-- ============================================================================

variable {d : Deployment} {msg : Msg} {g : Bytes32}

theorem createGame_erases : (createGame d msg).Erases (BitmaskBingo.createGame d msg) := by
  refine .bind .sload fun s => .emit (.bind (.externalCall _) fun _ => ?_)
  refine .bind (.lift _) fun hash => .bind .sload fun s' => .bind (.lift _) fun _ => ?_
  refine .bind (.sstore _) fun _ => .bind (.lift _) fun hash' => .bind (.lift _) fun card => ?_
  exact .bind (.sstore _) fun _ => .emit (.pure _)

theorem joinGame_erases : (joinGame d msg g).Erases (BitmaskBingo.joinGame d msg g) := by
  refine .bind .sload fun s => .bind (.lift _) fun _ => .bind .sload fun s' => ?_
  refine .bind (.lift _) fun joinEnd => .bind (.lift _) fun _ => .bind .sload fun s'' => ?_
  refine .bind (.externalCall _) fun _ => .bind .sload fun s₃ => .bind (.lift _) fun pot => ?_
  refine .bind (.sstore _) fun _ => .bind (.lift _) fun hash => .bind (.lift _) fun card => ?_
  exact .then_emit (.sstore _)

theorem drawNumber_erases : (drawNumber d msg g).Erases (BitmaskBingo.drawNumber d msg g) := by
  refine .bind (.quietly _) fun _ => .bind .sload fun s => .bind .sload fun s' => ?_
  refine .bind (.lift _) fun joinEnd => .bind (.lift _) fun _ => ?_
  refine .bind (.lift _) fun turnEnd => .bind (.lift _) fun _ => .bind (.lift _) fun hash => ?_
  exact .then_emit (.sstore _)

theorem markNumberOnCard_erases :
    (markNumberOnCard msg g).Erases (BitmaskBingo.markNumberOnCard msg g) := by
  refine .bind (.quietly _) fun _ => .bind .sload fun s => .bind .sload fun s' => ?_
  exact .bind (.lift _) fun numbers => .bind (.lift _) fun _ => .then_emit (.sstore _)

theorem claimPrize_erases : (claimPrize d msg g).Erases (BitmaskBingo.claimPrize d msg g) := by
  refine .bind (.quietly _) fun _ => .bind .sload fun s => .bind (.lift _) fun _ => ?_
  refine .bind .sload fun s' => .bind (.sstore _) fun _ => ?_
  refine .bind (.externalCall _) fun _ => .bind (.externalCall _) fun _ => ?_
  exact .emit (.emit (.pure _))

/-- A call does what it does without its events. -/
theorem dispatch_erases (c : Call) : (dispatch d msg c).Erases (BitmaskBingo.dispatch d msg c) := by
  cases c with
  | createGame => exact createGame_erases.bind fun _ => .pure _
  | joinGame id => exact joinGame_erases.bind fun _ => .pure _
  | drawNumber id => exact drawNumber_erases.bind fun _ => .pure _
  | markNumberOnCard id => exact markNumberOnCard_erases.bind fun _ => .pure _
  | claimPrize id => exact claimPrize_erases.bind fun _ => .pure _
  | updateEntryFee fee => exact (LogCode.Erases.quietly _).bind fun _ => .pure _
  | updateJoinDuration v => exact (LogCode.Erases.quietly _).bind fun _ => .pure _
  | updateUpdateTurnDuration v => exact (LogCode.Erases.quietly _).bind fun _ => .pure _

end Emitting

-- ============================================================================
-- What is emitted
-- ============================================================================

/-- The events of a call that succeeds. -/
def events (d : Deployment) (msg : Msg) (s : Storage) : Call → List Event
  | .createGame =>
      [.LogUint256 s.gameSettings.entryFee,
        .GameCreated msg.sender (newGameId d msg) (dealtCard d.keccak256 msg.block.entropy)
          msg.block.timestamp]
  | .joinGame g => [.PlayerJoined g msg.sender (dealtCard d.keccak256 msg.block.entropy)]
  | .drawNumber g => [.GameNumberDrawn g msg.sender (BitVec.ofNat 256 (drawnNumber d msg.block))]
  | .markNumberOnCard g =>
      [.PlayerHitRecorded msg.sender g (uint256 (s.gameRegistry g).lastDrawnNumber)
        (BitVec.ofNat 256 ((cardTiles (s.playerRegistry msg.sender g).numberStorage).idxOf
          (s.gameRegistry g).lastDrawnNumber.toNat))]
  | .claimPrize g =>
      [.GameEnded g msg.block.timestamp,
        .Bingo g msg.sender (uint256 (s.gameRegistry g).prizePool)]
  | _ => []

namespace Emitting

section Run

variable {τ α : Type} {callee : IERC20 → τ → Except Revert τ} {t t' : τ}
  {s s' : Logged Storage Event} {r : Returned}

theorem require_eq_ok {c : Prop} [Decidable c] {m : String} {a : Unit} :
    require c m = .ok a ↔ c := by
  by_cases h : c <;> simp [require, h]

theorem previousBlockhash_eq_ok {b : Block} {a : Bytes32} :
    b.previousBlockhash = .ok a ↔ b.number ≠ 0 ∧ b.entropy = a := by
  by_cases h : b.number = 0
  · simp [Block.previousBlockhash_error h, h]
  · simpa [Block.previousBlockhash_ok h] using fun _ => h

/-- A run past the modifier had a player call. -/
theorem run_onlyPlayer_bind
    {f : Unit → Logged Storage Event → Resumption (Logged Storage Event) IERC20 Revert α}
    {y : Logged Storage Event × τ × α} :
    (((LogCode.quietly (onlyPlayer msg g) : EmitM Unit) s).bind f).runWith callee t = .ok y ↔
      s.state.OnlyPlayer msg.sender g ∧ (f () s).runWith callee t = .ok y := by
  have hguard : (onlyPlayer msg g s.state).Guarded (s.state.OnlyPlayer msg.sender g)
      (.done s.state ()) := by
    by_cases h : s.state.OnlyPlayer msg.sender g
    · exact .pass h (onlyPlayer_ok h)
    · obtain ⟨e, _, he⟩ := onlyPlayer_error h
      exact .refuse h e he
  exact ((LogCode.quietly_guarded hguard).bind f).runWith_eq_ok

/-! ## One function at a time -/

theorem createGame_log
    (hrun : (dispatch d msg .createGame s).runWith callee t = .ok (s', t', r)) :
    s'.log = s.log ++ events d msg s.state .createGame := by
  simp [dispatch, createGame, Resumption.bind_assoc, Code.runWith_lift_bind,
    Resumption.runWith_call_eq_ok, require_eq_ok, previousBlockhash_eq_ok,
    createBingoCardForPlayer_eq] at hrun
  obtain ⟨-, -, -, -, rfl, -⟩ := hrun
  simp only [events, newGameId]

theorem joinGame_log
    (hrun : (dispatch d msg (.joinGame g) s).runWith callee t = .ok (s', t', r)) :
    s'.log = s.log ++ events d msg s.state (.joinGame g) := by
  simp [dispatch, joinGame, Resumption.bind_assoc, Code.runWith_lift_bind,
    Resumption.runWith_call_eq_ok, require_eq_ok, previousBlockhash_eq_ok,
    createBingoCardForPlayer_eq] at hrun
  obtain ⟨-, _, -, -, -, _, -, -, rfl, -⟩ := hrun
  simp only [events]

theorem drawNumber_log
    (hrun : (dispatch d msg (.drawNumber g) s).runWith callee t = .ok (s', t', r)) :
    s'.log = s.log ++ events d msg s.state (.drawNumber g) := by
  simp [dispatch, drawNumber, Resumption.bind_assoc, run_onlyPlayer_bind, Code.runWith_lift_bind,
    require_eq_ok, previousBlockhash_eq_ok] at hrun
  obtain ⟨-, _, -, -, _, -, -, -, rfl, -⟩ := hrun
  have hrandom : d.keccak256 (abiEncode [msg.block.entropy]) % 256#256
      = BitVec.ofNat 256 (drawnNumber d msg.block) := by
    have hlt := drawnNumber_lt d msg.block
    apply BitVec.eq_of_toNat_eq
    rw [BitVec.toNat_ofNat, Nat.mod_eq_of_lt (by omega), BitVec.toNat_umod]
    rfl
  simp only [events, hrandom]

theorem markNumberOnCard_log
    (hmem : (s.state.gameRegistry g).lastDrawnNumber.toNat
      ∈ cardTiles (s.state.playerRegistry msg.sender g).numberStorage)
    (hrun : (dispatch d msg (.markNumberOnCard g) s).runWith callee t = .ok (s', t', r)) :
    s'.log = s.log ++ events d msg s.state (.markNumberOnCard g) := by
  have hidx := List.idxOf_lt_length_of_mem hmem
  rw [cardTiles_length] at hidx
  have hposition : ∀ n < 25, uint256 (BitVec.ofNat 32 n) = BitVec.ofNat 256 n := by decide
  rw [← mem_numbers_iff] at hmem
  simp only [dispatch, markNumberOnCard, Code.bind_apply, Resumption.bind_assoc,
    run_onlyPlayer_bind, LogCode.sload_apply, Resumption.bind_done, getNumbersArrayForCard_eq,
    Code.lift_ok_apply, playerHasNumber_eq, if_pos hmem, Code.runWith_lift_bind, require_eq_ok,
    idxOf_numbers, hposition _ hidx] at hrun
  obtain ⟨-, _, -, hrun⟩ := hrun
  simp at hrun
  obtain ⟨rfl, -⟩ := hrun
  simp only [events]

theorem claimPrize_log
    (hrun : (dispatch d msg (.claimPrize g) s).runWith callee t = .ok (s', t', r)) :
    s'.log = s.log ++ events d msg s.state (.claimPrize g) := by
  simp [dispatch, claimPrize, Resumption.bind_assoc, run_onlyPlayer_bind, Code.runWith_lift_bind,
    Resumption.runWith_call_eq_ok, require_eq_ok] at hrun
  obtain ⟨-, -, _, -, -, rfl, -⟩ := hrun
  simp only [events]

/-- The setters are quiet. -/
theorem setter_log {f : Storage → Storage}
    (hrun : ((do LogCode.quietly (do onlyOwner d msg; Code.sstore f : GameM Unit)
                 return .unit : EmitM Returned) s).runWith callee t = .ok (s', t', r)) :
    s'.log = s.log := by
  have hsetter : ((do onlyOwner d msg; Code.sstore f : GameM Unit) s.state).Guarded _ _ :=
    setter_guarded f
  have hguard := (LogCode.quietly_guarded hsetter).bind fun _ s => .done s Returned.unit
  have hdone := (hguard.runWith_eq_ok.mp hrun).2
  simp at hdone
  rw [← hdone.1]

/-- **What the events of a call are.**  A call that emits succeeds exactly
    when it has an effect and the token accepts its calls, and it appends
    exactly its events. -/
theorem run_dispatch_iff (c : Call) :
    (dispatch d msg c s).runWith callee t = .ok (s', t', r) ↔
      Effect d msg s.state c r s'.state ∧
        runCalls callee (tokenCalls d msg s.state c) t = .ok t' ∧
        s'.log = s.log ++ events d msg s.state c := by
  have hlog : ∀ s' : Logged Storage Event, Effect d msg s.state c r s'.state →
      (dispatch d msg c s).runWith callee t = .ok (s', t', r) →
        s'.log = s.log ++ events d msg s.state c := by
    intro s' heff hrun
    cases c with
    | createGame => exact createGame_log hrun
    | joinGame g => exact joinGame_log hrun
    | drawNumber g => exact drawNumber_log hrun
    | markNumberOnCard g =>
        generalize hs : s'.state = s₁ at heff
        cases heff with
        | markNumberOnCard hplayer hmem => exact markNumberOnCard_log hmem hrun
    | claimPrize g => exact claimPrize_log hrun
    | updateEntryFee fee => simpa [events] using setter_log hrun
    | updateJoinDuration v => simpa [events] using setter_log hrun
    | updateUpdateTurnDuration v => simpa [events] using setter_log hrun
  refine ⟨fun hrun => ?_, ?_⟩
  · obtain ⟨heff, hcalls⟩ := BitmaskBingo.run_dispatch_iff c |>.mp
      ((dispatch_erases c s).runWith_ok hrun)
    exact ⟨heff, hcalls, hlog s' heff hrun⟩
  · rintro ⟨heff, hcalls, hl⟩
    obtain ⟨log, hrun⟩ := (dispatch_erases c s).exists_runWith
      ((BitmaskBingo.run_dispatch_iff c).mpr ⟨heff, hcalls⟩)
    have hlog' := hlog ⟨s'.state, log⟩ heff hrun
    obtain ⟨s₁, log'⟩ := s'
    obtain rfl : log = log' := hlog'.trans hl.symm
    exact hrun

end Run

end Emitting
end BitmaskBingo
