/-
  BitmaskBingo.Effect

  What the functions of the contract do, said once.  `Effect` has one
  constructor per external function: the conditions under which it succeeds
  and the storage it leaves, with the checks of the source turned into facts
  about numbers.  `tokenCalls` lists the calls it makes to the token.

  `Segments.run_dispatch_iff` is the link to the code: against a token that
  does not call back, a call succeeds exactly when it has an effect and the
  token accepts its calls.  Every invariant is proved by cases on `Effect`.
-/

import BitmaskBingo.Contract

namespace BitmaskBingo

open Lib StorageUtils

-- ============================================================================
-- Vocabulary of the effects
-- ============================================================================

/-- What the modifier `onlyPlayer` checks. -/
structure Storage.OnlyPlayer (s : Storage) (player : Address) (gameId : Bytes32) : Prop where
  exists_ : (s.gameRegistry gameId).createdAt ≠ 0
  not_over : (s.gameRegistry gameId).lastDrawnNumber ≠ 1000
  member : (s.playerRegistry player gameId).numberStorage ≠ 0

/-- What `joinGame` checks before it takes the fee. -/
structure Storage.JoinOpen (s : Storage) (time : Uint256) (gameId : Bytes32) : Prop where
  exists_ : (s.gameRegistry gameId).createdAt ≠ 0
  fits : (s.gameRegistry gameId).createdAt.toNat + s.gameSettings.minimumJoinDuration.toNat
    < 2 ^ 256
  before : time.toNat
    < (s.gameRegistry gameId).createdAt.toNat + s.gameSettings.minimumJoinDuration.toNat

/-- What `drawNumber` checks of the clock. -/
structure Storage.DrawOpen (s : Storage) (time : Uint256) (gameId : Bytes32) : Prop where
  joined : (s.gameRegistry gameId).createdAt.toNat + s.gameSettings.minimumJoinDuration.toNat
    < time.toNat
  turned : (s.gameRegistry gameId).lastDrawnAt.toNat + s.gameSettings.minimumTurnDuration.toNat
    < time.toNat

/-- The 25 numbers packed in a card word. -/
def cardTiles (card : Uint256) : List Nat := (List.range 25).map (bucket card)

@[simp] theorem cardTiles_length (card : Uint256) : (cardTiles card).length = 25 := by
  simp [cardTiles]

theorem cardTiles_getElem (card : Uint256) {i : Nat} (hi : i < (cardTiles card).length) :
    (cardTiles card)[i] = bucket card i := by
  simp [cardTiles]

theorem cardTiles_lt (card : Uint256) : ∀ x ∈ cardTiles card, x < 256 := by
  intro x hx
  obtain ⟨i, _, rfl⟩ := List.mem_map.mp hx
  exact bucket_lt card i

section Vocabulary

variable (d : Deployment) (msg : Msg)

/-- The id of a game created by this message. -/
def newGameId : Bytes32 := d.keccak256 (abiEncode [msg.block.entropy, uint256 msg.sender])

/-- The record of a game created by this message for a fee. -/
def newGame (fee : Uint256) : Game where
  lastDrawnAt := uint64 msg.block.timestamp
  lastDrawnNumber := 999
  prizePool := uint64 fee
  createdAt := uint64 msg.block.timestamp

/-- The card dealt in a block: only the centre is hit. -/
def newCard (block : Block) : BingoCard := ⟨dealtCard d.keccak256 block.entropy, 4096⟩

/-- The number drawn in a block. -/
def drawnNumber (block : Block) : Nat :=
  (d.keccak256 (abiEncode [block.entropy])).toNat % 256

/-- A game after a draw in a block. -/
def Game.drawn (game : Game) (block : Block) : Game :=
  { game with
    lastDrawnNumber := BitVec.ofNat 64 (drawnNumber d block)
    lastDrawnAt := uint64 block.timestamp }

/-- A card after the number `n` was marked on it. -/
def BingoCard.marked (card : BingoCard) (n : Nat) : BingoCard :=
  { card with
    hitStorage := setBitValueByIndex card.hitStorage
      (BitVec.ofNat 32 ((cardTiles card.numberStorage).idxOf n)) }

/-- A game after its prize was claimed. -/
def Game.finished (game : Game) : Game := { game with lastDrawnNumber := 1000, prizePool := 0 }

theorem drawnNumber_lt (block : Block) : drawnNumber d block < 256 := Nat.mod_lt _ (by decide)

end Vocabulary

-- ============================================================================
-- The effects
-- ============================================================================

/-- The calls a function makes to the token when nothing refuses it. -/
def tokenCalls (d : Deployment) (msg : Msg) (s : Storage) : Call → List IERC20
  | .createGame => [.transferFrom msg.sender d.this s.gameSettings.entryFee]
  | .joinGame _ => [.transferFrom msg.sender d.this s.gameSettings.entryFee]
  | .claimPrize g =>
      [.approve d.this (uint256 (s.gameRegistry g).prizePool),
        .transferFrom d.this msg.sender (uint256 (s.gameRegistry g).prizePool)]
  | _ => []

/-- What a successful call returns and leaves in storage. -/
inductive Effect (d : Deployment) (msg : Msg) (s : Storage) : Call → Returned → Storage → Prop where
  | createGame
      (hblock : msg.block.number ≠ 0)
      (hnew : (s.gameRegistry (newGameId d msg)).createdAt = 0) :
      Effect d msg s .createGame (.gameId (newGameId d msg))
        ((s.setGame (newGameId d msg) (newGame msg s.gameSettings.entryFee)).setCard
          msg.sender (newGameId d msg) (newCard d msg.block))
  | joinGame {g : Bytes32} {pot : Uint64}
      (hopen : s.JoinOpen msg.block.timestamp g)
      (hpot : pot.toNat = (s.gameRegistry g).prizePool.toNat
        + (uint64 s.gameSettings.entryFee).toNat)
      (hblock : msg.block.number ≠ 0) :
      Effect d msg s (.joinGame g) .unit
        ((s.setGame g { s.gameRegistry g with prizePool := pot }).setCard
          msg.sender g (newCard d msg.block))
  | drawNumber {g : Bytes32}
      (hplayer : s.OnlyPlayer msg.sender g)
      (hopen : s.DrawOpen msg.block.timestamp g)
      (hblock : msg.block.number ≠ 0) :
      Effect d msg s (.drawNumber g) .unit
        (s.setGame g ((s.gameRegistry g).drawn d msg.block))
  | markNumberOnCard {g : Bytes32}
      (hplayer : s.OnlyPlayer msg.sender g)
      (hmem : (s.gameRegistry g).lastDrawnNumber.toNat
        ∈ cardTiles (s.playerRegistry msg.sender g).numberStorage) :
      Effect d msg s (.markNumberOnCard g) .unit
        (s.setCard msg.sender g
          ((s.playerRegistry msg.sender g).marked (s.gameRegistry g).lastDrawnNumber.toNat))
  | claimPrize {g : Bytes32}
      (hplayer : s.OnlyPlayer msg.sender g)
      (hwin : s.checkForWinner msg.sender g = true) :
      Effect d msg s (.claimPrize g) (.success true) (s.setGame g (s.gameRegistry g).finished)
  | updateEntryFee {fee : Uint256} (howner : msg.sender = d.owner) :
      Effect d msg s (.updateEntryFee fee) .unit
        { s with gameSettings := { s.gameSettings with entryFee := fee } }
  | updateJoinDuration {v : Uint256} (howner : msg.sender = d.owner) :
      Effect d msg s (.updateJoinDuration v) .unit
        { s with gameSettings := { s.gameSettings with minimumJoinDuration := v } }
  | updateUpdateTurnDuration {v : Uint256} (howner : msg.sender = d.owner) :
      Effect d msg s (.updateUpdateTurnDuration v) .unit
        { s with gameSettings := { s.gameSettings with minimumTurnDuration := v } }

end BitmaskBingo
