/-
  BitmaskBingo.Contract

  The contract `BitmaskBingo`.  Its functions are code over the contract's
  storage that calls out to the token: what the token does at those points is
  not fixed here, so that the same functions run against `BingoToken` and
  against a token that calls back.

  The events the functions emit are left to `Events`: no contract can read
  them.
-/

import BitmaskBingo.GameMechanics
import BitmaskBingo.Lib.Resumption

namespace BitmaskBingo

open StorageUtils
open Lib.Code (sload sstore externalCall)

/-- What is fixed once the contract is deployed: the hash function of the
    chain, the contract's own address and its immutable owner. -/
structure Deployment where
  keccak256 : List Byte → Bytes32
  this : Address
  owner : Address
  this_ne_zero : this ≠ 0

/-- The storage of the contract. -/
structure Storage where
  gameSettings : GlobalGameSettings
  gameRegistry : Bytes32 → Game
  playerRegistry : Address → Bytes32 → BingoCard

namespace Storage

/-- The storage after the constructor: an entry fee of 1000, one hour to join
    and five minutes for a turn. -/
def initial : Storage where
  gameSettings := { entryFee := 1000, minimumJoinDuration := 3600, minimumTurnDuration := 300 }
  gameRegistry _ := Game.zero
  playerRegistry _ _ := BingoCard.zero

def setGame (s : Storage) (gameId : Bytes32) (game : Game) : Storage :=
  { s with gameRegistry := Function.update s.gameRegistry gameId game }

def setCard (s : Storage) (player : Address) (gameId : Bytes32) (card : BingoCard) : Storage :=
  let ofPlayer := Function.update (s.playerRegistry player) gameId card
  { s with playerRegistry := Function.update s.playerRegistry player ofPlayer }

@[simp] theorem setGame_gameSettings (s : Storage) (g : Bytes32) (r : Game) :
    (s.setGame g r).gameSettings = s.gameSettings := rfl

@[simp] theorem setGame_playerRegistry (s : Storage) (g : Bytes32) (r : Game) :
    (s.setGame g r).playerRegistry = s.playerRegistry := rfl

@[simp] theorem setGame_gameRegistry (s : Storage) (g g' : Bytes32) (r : Game) :
    (s.setGame g r).gameRegistry g' = if g' = g then r else s.gameRegistry g' := by
  simp only [setGame, Function.update_apply]

@[simp] theorem setCard_gameSettings (s : Storage) (p : Address) (g : Bytes32) (c : BingoCard) :
    (s.setCard p g c).gameSettings = s.gameSettings := rfl

@[simp] theorem setCard_gameRegistry (s : Storage) (p : Address) (g : Bytes32) (c : BingoCard) :
    (s.setCard p g c).gameRegistry = s.gameRegistry := rfl

@[simp] theorem setCard_playerRegistry (s : Storage) (p p' : Address) (g g' : Bytes32)
    (c : BingoCard) :
    (s.setCard p g c).playerRegistry p' g'
      = if p' = p ∧ g' = g then c else s.playerRegistry p' g' := by
  simp only [setCard, Function.update_apply]
  by_cases hp : p' = p
  · subst hp
    by_cases hg : g' = g <;> simp [hg]
  · simp [hp]

end Storage

/-- The external calls the contract makes, on `IERC20(bingoToken)`. -/
inductive IERC20 where
  | transferFrom (from_ to_ : Address) (amount : Uint256)
  | approve (spender : Address) (amount : Uint256)
deriving Repr, DecidableEq

/-- Code of the contract. -/
abbrev GameM := Lib.Code Storage IERC20 Revert

section Functions

variable (d : Deployment) (msg : Msg)

-- ============================================================================
-- Modifiers
-- ============================================================================

def onlyOwner : GameM Unit := do
  require (msg.sender = d.owner) "!owner"

/-- Checks that the game exists, that it has not ended, and that the player is
    a member. -/
def onlyPlayer (gameId : Bytes32) : GameM Unit := do
  let game := (← sload).gameRegistry gameId
  require (game.createdAt > 0) "Game does not exist"
  require (game.lastDrawnNumber ≠ 1000) "Game is over"
  let playerCard := (← sload).playerRegistry msg.sender gameId
  let playerIsMember := playerCard.numberStorage > 0
  require playerIsMember "Not a member of this game"

-- ============================================================================
-- Player functions
-- ============================================================================

def createGame : GameM Bytes32 := do
  let settings := (← sload).gameSettings
  let joinFee := settings.entryFee
  -- this will revert if balances are not sufficient
  externalCall (.transferFrom msg.sender d.this joinFee)
  -- generate a uuid for the game and check that it doesn't already exist
  let gameId := d.keccak256 (abiEncode [← msg.block.previousBlockhash, uint256 msg.sender])
  require (((← sload).gameRegistry gameId).createdAt = 0) "Duplicate Game ID"
  let newGame : Game :=
    { lastDrawnAt := uint64 msg.block.timestamp
      lastDrawnNumber := 999
      prizePool := uint64 joinFee
      createdAt := uint64 msg.block.timestamp }
  sstore fun s => s.setGame gameId newGame
  let playerNumbersForCard ←
    createBingoCardForPlayer d.keccak256 0 (← msg.block.previousBlockhash)
  sstore fun s => s.setCard msg.sender gameId
    { numberStorage := playerNumbersForCard, hitStorage := 4096 }
  return gameId

def joinGame (gameId : Bytes32) : GameM Unit := do
  let gameJoined := (← sload).gameRegistry gameId
  require (gameJoined.createdAt > 0) "joinGame: Game does not exist"
  let settings := (← sload).gameSettings
  -- player can't rejoin the game to reset their card once the game has started
  let joinEnd ← checkedAdd (uint256 gameJoined.createdAt) settings.minimumJoinDuration
  require (msg.block.timestamp < joinEnd) "joinGame: Game already started"
  let joinFee := (← sload).gameSettings.entryFee
  externalCall (.transferFrom msg.sender d.this joinFee)
  -- `g.prizePool += uint64(joinFee)` on the storage reference
  let g := (← sload).gameRegistry gameId
  let prizePool ← checkedAdd g.prizePool (uint64 joinFee)
  sstore fun s => s.setGame gameId { g with prizePool }
  let playerNumbersForCard ←
    createBingoCardForPlayer d.keccak256 0 (← msg.block.previousBlockhash)
  sstore fun s => s.setCard msg.sender gameId
    { numberStorage := playerNumbersForCard, hitStorage := 4096 }

def drawNumber (gameId : Bytes32) : GameM Unit := do
  onlyPlayer msg gameId
  let game := (← sload).gameRegistry gameId
  let settings := (← sload).gameSettings
  let joinEnd ← checkedAdd (uint256 game.createdAt) settings.minimumJoinDuration
  require (msg.block.timestamp > joinEnd) "drawNumber: player are still joining"
  let turnEnd ← checkedAdd (uint256 game.lastDrawnAt) settings.minimumTurnDuration
  require (msg.block.timestamp > turnEnd) "drawNumber: turn duration pending"
  let random := d.keccak256 (abiEncode [← msg.block.previousBlockhash]) % 256
  sstore fun s => s.setGame gameId
    { game with
      lastDrawnNumber := uint64 random
      lastDrawnAt := uint64 msg.block.timestamp }

def markNumberOnCard (gameId : Bytes32) : GameM Unit := do
  onlyPlayer msg gameId
  let playerCard := (← sload).playerRegistry msg.sender gameId
  let game := (← sload).gameRegistry gameId
  let lastDrawnNumber := uint256 game.lastDrawnNumber
  let numbers ← getNumbersArrayForCard playerCard.numberStorage
  let (hasNumber, location) := playerHasNumber numbers lastDrawnNumber
  require hasNumber "Player's card does not have last drawn number"
  let playerCardHits := setBitValueByIndex playerCard.hitStorage location
  sstore fun s => s.setCard msg.sender gameId { playerCard with hitStorage := playerCardHits }

def claimPrize (gameId : Bytes32) : GameM Bool := do
  onlyPlayer msg gameId
  -- confirm winner
  let playerCard := (← sload).playerRegistry msg.sender gameId
  let playerHits := playerCard.hitStorage
  let isWinner := checkForBingo winningBingoMasks playerHits
  require isWinner "Player is not a winner"
  -- mark as game completed
  let game := (← sload).gameRegistry gameId
  let prize := uint256 game.prizePool
  sstore fun s => s.setGame gameId { game with lastDrawnNumber := 1000, prizePool := 0 }
  -- transfer prize
  externalCall (.approve d.this prize)
  externalCall (.transferFrom d.this msg.sender prize)
  return true

-- ============================================================================
-- Admin functions
-- ============================================================================

def updateEntryFee (fee : Uint256) : GameM Unit := do
  onlyOwner d msg
  sstore fun s => { s with gameSettings := { s.gameSettings with entryFee := fee } }

def updateJoinDuration (joinDuration : Uint256) : GameM Unit := do
  onlyOwner d msg
  sstore fun s =>
    { s with gameSettings := { s.gameSettings with minimumJoinDuration := joinDuration } }

def updateUpdateTurnDuration (turnDuration : Uint256) : GameM Unit := do
  onlyOwner d msg
  sstore fun s =>
    { s with gameSettings := { s.gameSettings with minimumTurnDuration := turnDuration } }

end Functions

-- ============================================================================
-- Convenience functions
-- ============================================================================

namespace Storage

variable (s : Storage)

/-- The entry fee, the turn duration and the join duration. -/
def getGameSettings : Uint256 × Uint256 × Uint256 :=
  (s.gameSettings.entryFee, s.gameSettings.minimumTurnDuration, s.gameSettings.minimumJoinDuration)

/-- The last drawn number, when it was drawn, the pot and the creation time. -/
def getGameById (gameId : Bytes32) : Except Revert (Uint256 × Uint256 × Uint256 × Uint256) := do
  let game := s.gameRegistry gameId
  require (game.createdAt > 0) "Game does not exist"
  return (uint256 game.lastDrawnNumber, uint256 game.lastDrawnAt, uint256 game.prizePool,
    uint256 game.createdAt)

def getPlayerCardNumbersForGame (player : Address) (gameId : Bytes32) :
    Except Revert (List Uint256) :=
  let playerCard := s.playerRegistry player gameId
  (List.range 25).mapM fun i => getBucketValueByIndex playerCard.numberStorage (BitVec.ofNat 256 i)

def checkForWinner (player : Address) (gameId : Bytes32) : Bool :=
  let playerCard := s.playerRegistry player gameId
  checkForBingo winningBingoMasks playerCard.hitStorage

def getLastDrawnNumberForGame (gameId : Bytes32) : Uint256 :=
  uint256 (s.gameRegistry gameId).lastDrawnNumber

/-- The numbers, the hits and the two words they are decoded from. -/
def getPlayerBingoCardForGame (player : Address) (gameId : Bytes32) :
    Except Revert (List Uint256 × List Uint256 × Uint256 × Uint32) := do
  let playerCard := s.playerRegistry player gameId
  let cardNumbers ← getNumbersArrayForCard playerCard.numberStorage
  let cardHits := getHitsArrayForCard playerCard.hitStorage
  return (cardNumbers, cardHits, playerCard.numberStorage, playerCard.hitStorage)

def checkGameHasPlayer (player : Address) (gameId : Bytes32) : Bool :=
  let playerCard := s.playerRegistry player gameId
  decide (playerCard.hitStorage > 0)

end Storage

/-! ## Dispatch -/

/-- The external functions of the contract that change its state. -/
inductive Call where
  | createGame
  | joinGame (gameId : Bytes32)
  | drawNumber (gameId : Bytes32)
  | markNumberOnCard (gameId : Bytes32)
  | claimPrize (gameId : Bytes32)
  | updateEntryFee (fee : Uint256)
  | updateJoinDuration (joinDuration : Uint256)
  | updateUpdateTurnDuration (turnDuration : Uint256)
deriving Repr, DecidableEq

/-- What a call returns to its caller. -/
inductive Returned where
  | unit
  | gameId (id : Bytes32)
  | success (b : Bool)
deriving Repr, DecidableEq

/-- The code a call runs. -/
def dispatch (d : Deployment) (msg : Msg) : Call → GameM Returned
  | .createGame => do return .gameId (← createGame d msg)
  | .joinGame id => do joinGame d msg id; return .unit
  | .drawNumber id => do drawNumber d msg id; return .unit
  | .markNumberOnCard id => do markNumberOnCard msg id; return .unit
  | .claimPrize id => do return .success (← claimPrize d msg id)
  | .updateEntryFee fee => do updateEntryFee d msg fee; return .unit
  | .updateJoinDuration v => do updateJoinDuration d msg v; return .unit
  | .updateUpdateTurnDuration v => do updateUpdateTurnDuration d msg v; return .unit

end BitmaskBingo
