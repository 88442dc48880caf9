/-
  BitmaskBingo.PlainGame

  The game without packed words: a reference for the contract.  A card is a
  list of 25 numbers and a list of 25 flags; a game or a card that does not
  exist is `none`.  Records, deadlines, fees and pots are those of the
  contract, and the money lies in the same `BingoToken`.
-/

import BitmaskBingo.Bank
import BitmaskBingo.Lines
import BitmaskBingo.Lib.Refinement

namespace BitmaskBingo

-- ============================================================================
-- Cards
-- ============================================================================

/-- A card: 25 numbers, and for each whether it is hit. -/
@[ext] structure PlainCard where
  numbers : List Nat
  hits : List Bool
  numbers_length : numbers.length = 25
  hits_length : hits.length = 25

namespace PlainCard

/-- The card dealt from an entropy: only tile 12 is hit. -/
def deal (keccak256 : List Byte → Bytes32) (entropy : Bytes32) : PlainCard where
  numbers := (List.range 25).map fun i =>
    (keccak256 (abiEncode [entropy, BitVec.ofNat 256 i])).toNat % 255
  hits := (List.range 25).map fun i => decide (i = 12)
  numbers_length := by simp
  hits_length := by simp

/-- Hit the first tile with the number. -/
def mark (c : PlainCard) (n : Nat) : PlainCard where
  numbers := c.numbers
  hits := c.hits.set (c.numbers.idxOf n) true
  numbers_length := c.numbers_length
  hits_length := by rw [List.length_set, c.hits_length]

/-- Some row, column or diagonal is hit throughout. -/
def wins (c : PlainCard) : Bool :=
  Line.all.any fun ℓ => (List.finRange 5).all fun k => c.hits.getD (ℓ.tile k) false

end PlainCard

-- ============================================================================
-- The game
-- ============================================================================

@[ext] structure PlainGame where
  settings : GlobalGameSettings
  games : Bytes32 → Option Game
  cards : Address → Bytes32 → Option PlainCard
  token : BingoToken

namespace PlainGame

/-- The plain game after its constructor. -/
def initial (token : BingoToken) : PlainGame where
  settings := { entryFee := 1000, minimumJoinDuration := 3600, minimumTurnDuration := 300 }
  games _ := none
  cards _ _ := none
  token := token

def setGame (r : PlainGame) (gameId : Bytes32) (game : Game) : PlainGame :=
  { r with games := Function.update r.games gameId (some game) }

def setCard (r : PlainGame) (player : Address) (gameId : Bytes32) (card : PlainCard) : PlainGame :=
  let ofPlayer := Function.update (r.cards player) gameId (some card)
  { r with cards := Function.update r.cards player ofPlayer }

def found {α : Type} (reason : String) : Option α → Except Revert α
  | some a => .ok a
  | none => .error (.error reason)

section Functions

variable (d : Deployment) (msg : Msg) (r : PlainGame)

/-- The game and the card of a player who may play. -/
def player (gameId : Bytes32) : Except Revert (Game × PlainCard) := do
  let game ← found "Game does not exist" (r.games gameId)
  require (game.lastDrawnNumber ≠ 1000) "Game is over"
  let card ← found "Not a member of this game" (r.cards msg.sender gameId)
  return (game, card)

def createGame : Except Revert (PlainGame × Returned) := do
  let token ← r.token.transferFrom d.this msg.sender d.this r.settings.entryFee
  let entropy ← msg.block.previousBlockhash
  let gameId := d.keccak256 (abiEncode [entropy, uint256 msg.sender])
  require (r.games gameId).isNone "Duplicate Game ID"
  let game : Game :=
    { lastDrawnAt := uint64 msg.block.timestamp
      lastDrawnNumber := 999
      prizePool := uint64 r.settings.entryFee
      createdAt := uint64 msg.block.timestamp }
  let r := ({ r with token }.setGame gameId game).setCard msg.sender gameId
    (.deal d.keccak256 entropy)
  return (r, .gameId gameId)

def joinGame (gameId : Bytes32) : Except Revert (PlainGame × Returned) := do
  let game ← found "joinGame: Game does not exist" (r.games gameId)
  let joinEnd ← checkedAdd (uint256 game.createdAt) r.settings.minimumJoinDuration
  require (msg.block.timestamp < joinEnd) "joinGame: Game already started"
  let token ← r.token.transferFrom d.this msg.sender d.this r.settings.entryFee
  let prizePool ← checkedAdd game.prizePool (uint64 r.settings.entryFee)
  let entropy ← msg.block.previousBlockhash
  let r := ({ r with token }.setGame gameId { game with prizePool }).setCard msg.sender gameId
    (.deal d.keccak256 entropy)
  return (r, .unit)

def drawNumber (gameId : Bytes32) : Except Revert (PlainGame × Returned) := do
  let (game, _) ← r.player msg gameId
  let joinEnd ← checkedAdd (uint256 game.createdAt) r.settings.minimumJoinDuration
  require (msg.block.timestamp > joinEnd) "drawNumber: player are still joining"
  let turnEnd ← checkedAdd (uint256 game.lastDrawnAt) r.settings.minimumTurnDuration
  require (msg.block.timestamp > turnEnd) "drawNumber: turn duration pending"
  let entropy ← msg.block.previousBlockhash
  let random := (d.keccak256 (abiEncode [entropy])).toNat % 256
  let game :=
    { game with
      lastDrawnNumber := BitVec.ofNat 64 random
      lastDrawnAt := uint64 msg.block.timestamp }
  return (r.setGame gameId game, .unit)

def markNumberOnCard (gameId : Bytes32) : Except Revert (PlainGame × Returned) := do
  let (game, card) ← r.player msg gameId
  let lastDrawnNumber := game.lastDrawnNumber.toNat
  require (lastDrawnNumber ∈ card.numbers) "Player's card does not have last drawn number"
  return (r.setCard msg.sender gameId (card.mark lastDrawnNumber), .unit)

def claimPrize (gameId : Bytes32) : Except Revert (PlainGame × Returned) := do
  let (game, card) ← r.player msg gameId
  require card.wins "Player is not a winner"
  let prize := uint256 game.prizePool
  let token ← r.token.approve d.this d.this prize
  let token ← token.transferFrom d.this d.this msg.sender prize
  let game := { game with lastDrawnNumber := 1000, prizePool := 0 }
  return ({ r with token }.setGame gameId game, .success true)

/-- The three setters of the owner. -/
def updateSettings (settings : GlobalGameSettings) : Except Revert (PlainGame × Returned) := do
  require (msg.sender = d.owner) "!owner"
  return ({ r with settings }, .unit)

def call : Call → Except Revert (PlainGame × Returned)
  | .createGame => r.createGame d msg
  | .joinGame gameId => r.joinGame d msg gameId
  | .drawNumber gameId => r.drawNumber d msg gameId
  | .markNumberOnCard gameId => r.markNumberOnCard msg gameId
  | .claimPrize gameId => r.claimPrize d msg gameId
  | .updateEntryFee fee => r.updateSettings d msg { r.settings with entryFee := fee }
  | .updateJoinDuration v => r.updateSettings d msg { r.settings with minimumJoinDuration := v }
  | .updateUpdateTurnDuration v =>
      r.updateSettings d msg { r.settings with minimumTurnDuration := v }

end Functions

/-- Execute a transaction on the game or on the token. -/
def exec (d : Deployment) (r : PlainGame) (tx : Tx bingoToken) :
    Except Revert (PlainGame × Returned) :=
  match tx.action with
  | .game c => r.call d tx.msg c
  | .token op => do
      let token ← r.token.call tx.msg.sender op
      return ({ r with token }, .unit)

-- ============================================================================
-- Views
-- ============================================================================

section Views

variable (r : PlainGame) (p : Address) (g : Bytes32)

/-- The numbers on the card of a player; 25 zeros for who has none. -/
def cardNumbers : List Nat := ((r.cards p g).map PlainCard.numbers).getD (List.replicate 25 0)

/-- The hits on the card of a player. -/
def cardHits : List Bool := ((r.cards p g).map PlainCard.hits).getD (List.replicate 25 false)

def hasPlayer : Bool := (r.cards p g).isSome

def isWinner : Bool := ((r.cards p g).map PlainCard.wins).getD false

def gameById : Except Revert (Uint256 × Uint256 × Uint256 × Uint256) := do
  let game ← found "Game does not exist" (r.games g)
  return (uint256 game.lastDrawnNumber, uint256 game.lastDrawnAt, uint256 game.prizePool,
    uint256 game.createdAt)

end Views

end PlainGame
end BitmaskBingo
