/-
  BitmaskBingo.GameMechanics

  The abstract contract `GameMechanics`: the records of a game and of a card,
  the twelve winning masks, and the pure functions that deal a card, decode
  it, look a number up on it and detect a bingo.

  `keccak256` is a parameter: nothing here depends on its values.
-/

import BitmaskBingo.StorageUtils

namespace BitmaskBingo

open StorageUtils

-- ============================================================================
-- Structs
-- ============================================================================

structure GlobalGameSettings where
  entryFee : Uint256
  minimumTurnDuration : Uint256
  minimumJoinDuration : Uint256
deriving Repr, DecidableEq

structure BingoCard where
  numberStorage : Uint256
  hitStorage : Uint32
deriving Repr, DecidableEq

/-- `lastDrawnNumber` is 999 while the players join, 0-255 while numbers are
    drawn, 1000 once the prize is claimed. -/
structure Game where
  lastDrawnNumber : Uint64
  lastDrawnAt : Uint64
  prizePool : Uint64
  createdAt : Uint64
deriving Repr, DecidableEq

/-- The card of a storage slot nobody wrote. -/
def BingoCard.zero : BingoCard := ⟨0, 0⟩

/-- The record of a storage slot nobody wrote. -/
def Game.zero : Game := ⟨0, 0, 0, 0⟩

/-- ```
    24 23 22 21 20  --  y4
    19 18 17 16 15  --  y3
    14 13 12 11 10  --  y2
    9  8  7  6  5   --  y1
    4  3  2  1  0   --  y0
    ``` -/
def winningBingoMasks : List Uint32 :=
  [ 1082401,  -- x0
    2164802,  -- x1
    4329604,  -- x2
    8659208,  -- x3
    17318416, -- x4
    31,       -- y0
    992,      -- y1
    31744,    -- y2
    1015808,  -- y3
    32505856, -- y4
    17043521, -- d0
    1118480 ] -- d1

-- ============================================================================
-- Dealing
-- ============================================================================

section Dealing

variable (keccak256 : List Byte → Bytes32)

/-- `uint256(keccak256(abi.encode(_entropy, i))) % 255`. -/
def tileRand (entropy : Bytes32) (i : Nat) : Uint256 :=
  keccak256 (abiEncode [entropy, BitVec.ofNat 256 i]) % 255

/-- Writes a random number into each of the 25 buckets of the card. -/
def createBingoCardForPlayer (card : Uint256) (entropy : Bytes32) : Except Revert Uint256 :=
  (List.range 25).foldlM
    (fun updatedCard i =>
      setBucketValueByIndex updatedCard (BitVec.ofNat 256 i) (tileRand keccak256 entropy i))
    card

end Dealing

-- ============================================================================
-- Reading a card
-- ============================================================================

/-- Index of the first number equal to the target, or `(false, 99)`. -/
def playerHasNumber (playerNumbers : List Uint256) (target : Uint256) : Bool × Uint32 :=
  scan 0 playerNumbers
where
  scan (i : Nat) : List Uint256 → Bool × Uint32
    | [] => (false, 99)
    | n :: rest => if n = target then (true, BitVec.ofNat 32 i) else scan (i + 1) rest

def getNumbersArrayForCard (card : Uint256) : Except Revert (List Uint256) :=
  (List.range 25).mapM fun i => getBucketValueByIndex card (BitVec.ofNat 256 i)

/-- The hit state by index, as integers 0 or 1. -/
def getHitsArrayForCard (hits : Uint32) : List Uint256 :=
  (List.range 25).map fun i => getBitValueByIndex hits (BitVec.ofNat 32 i)

/-- If the bitwise AND between the player's hits and a mask is the mask itself,
    all the mask's tiles are hit. -/
def checkForBingo (hitMasks : List Uint32) (playerHits : Uint32) : Bool :=
  hitMasks.any fun mask => playerHits &&& mask == mask

/-! ## The card that is dealt -/

/-- The loop that fills the first `k` buckets packs the written values. -/
theorem fill_buckets (f : Nat → Uint256) (hf : ∀ i, (f i).toNat < 256) :
    ∀ {k : Nat}, k ≤ 32 →
      ∃ c, (List.range k).foldlM
          (fun card i => setBucketValueByIndex card (BitVec.ofNat 256 i) (f i)) 0
          = (.ok c : Except Revert Uint256) ∧
        c.toNat = Nat.ofDigits 256 ((List.range k).map fun i => (f i).toNat) := by
  intro k
  induction k with
  | zero => intro _; exact ⟨0, rfl, by simp⟩
  | succ k ih =>
      intro hk
      obtain ⟨c, hfold, hc⟩ := ih (by omega)
      have hlt : c.toNat < 256 ^ k := by
        rw [hc]
        apply Lib.ofDigits_lt_pow _ (by simp) (by decide)
        intro x hx
        obtain ⟨i, _, rfl⟩ := List.mem_map.mp hx
        exact hf i
      obtain ⟨c', hset, hc'⟩ := setBucketValueByIndex_eq (by omega : k < 32) hlt (hf k)
      refine ⟨c', ?_, ?_⟩
      · rw [List.range_succ, List.foldlM_append, hfold]
        simp only [List.foldlM_cons, List.foldlM_nil, bind, Except.bind, hset]
        rfl
      · rw [hc', hc, List.range_succ, List.map_append, List.map_singleton, Lib.ofDigits_concat]
        simp

/-- The word that packs 25 tiles. -/
def packTiles (tiles : List Nat) : Uint256 := BitVec.ofNat 256 (Nat.ofDigits 256 tiles)

theorem packTiles_toNat {tiles : List Nat} (hlen : tiles.length ≤ 25)
    (htiles : ∀ x ∈ tiles, x < 256) :
    (packTiles tiles).toNat = Nat.ofDigits 256 tiles := by
  have hlt : Nat.ofDigits 256 tiles < 256 ^ 32 :=
    Lib.ofDigits_lt_pow htiles (by omega) (by decide)
  rw [packTiles, BitVec.toNat_ofNat]
  exact Nat.mod_eq_of_lt hlt

theorem bucket_packTiles {tiles : List Nat} (hlen : tiles.length ≤ 25)
    (htiles : ∀ x ∈ tiles, x < 256) (i : Nat) :
    bucket (packTiles tiles) i = tiles.getD i 0 := by
  rw [bucket, packTiles_toNat hlen htiles]
  exact Lib.digit_ofDigits htiles i (by decide)

section Dealing

variable (keccak256 : List Byte → Bytes32)

/-- The 25 numbers dealt from an entropy. -/
def dealtTiles (entropy : Bytes32) : List Nat :=
  (List.range 25).map fun i => (tileRand keccak256 entropy i).toNat

/-- The number word dealt from an entropy. -/
def dealtCard (entropy : Bytes32) : Uint256 := packTiles (dealtTiles keccak256 entropy)

theorem tileRand_lt (entropy : Bytes32) (i : Nat) :
    (tileRand keccak256 entropy i).toNat < 255 := by
  rw [tileRand, BitVec.toNat_umod]
  exact Nat.mod_lt _ (by decide)

@[simp] theorem dealtTiles_length (entropy : Bytes32) :
    (dealtTiles keccak256 entropy).length = 25 := by
  simp [dealtTiles]

theorem dealtTiles_lt (entropy : Bytes32) : ∀ x ∈ dealtTiles keccak256 entropy, x < 255 := by
  intro x hx
  obtain ⟨i, _, rfl⟩ := List.mem_map.mp hx
  exact tileRand_lt keccak256 entropy i

theorem dealtTiles_byte (entropy : Bytes32) : ∀ x ∈ dealtTiles keccak256 entropy, x < 256 :=
  fun x hx => Nat.lt_succ_of_lt (dealtTiles_lt keccak256 entropy x hx)

/-- The number on tile `i` of a dealt card. -/
theorem bucket_dealtCard (entropy : Bytes32) {i : Nat} (hi : i < 25) :
    bucket (dealtCard keccak256 entropy) i = (tileRand keccak256 entropy i).toNat := by
  have hlen := dealtTiles_length keccak256 entropy
  rw [dealtCard, bucket_packTiles (Nat.le_of_eq hlen) (dealtTiles_byte keccak256 entropy),
    List.getD_eq_getElem _ _ (by omega)]
  simp only [dealtTiles, List.getElem_map, List.getElem_range]

/-- Dealing onto an empty card never panics. -/
theorem createBingoCardForPlayer_eq (entropy : Bytes32) :
    createBingoCardForPlayer keccak256 0#256 entropy = .ok (dealtCard keccak256 entropy) := by
  obtain ⟨c, hfold, hc⟩ := fill_buckets (tileRand keccak256 entropy)
    (fun i => Nat.lt_succ_of_lt (tileRand_lt keccak256 entropy i)) (by decide : 25 ≤ 32)
  have hcard : c = dealtCard keccak256 entropy := by
    rw [dealtCard, packTiles, dealtTiles, ← hc, BitVec.ofNat_toNat, BitVec.setWidth_eq]
  rw [createBingoCardForPlayer, ← hcard]
  exact hfold

end Dealing

/-! ## The card that is read -/

theorem getNumbersArrayForCard_eq (card : Uint256) :
    getNumbersArrayForCard card
      = .ok ((List.range 25).map fun i => BitVec.ofNat 256 (bucket card i)) := by
  have h : ∀ l : List Nat, (∀ i ∈ l, i < 32) →
      l.mapM (fun i => getBucketValueByIndex card (BitVec.ofNat 256 i))
        = (.ok (l.map fun i => BitVec.ofNat 256 (bucket card i)) : Except Revert _) := by
    intro l hl
    induction l with
    | nil => rfl
    | cons i rest ih =>
        rw [List.mapM_cons, getBucketValueByIndex_eq card (hl i (List.mem_cons_self ..)),
          ih fun j hj => hl j (List.mem_cons_of_mem _ hj)]
        rfl
  exact h _ fun i hi => Nat.lt_trans (List.mem_range.mp hi) (by decide)

/-! ## Packing and reading back -/

/-- Writes the numbers into the buckets of an empty card, in index order. -/
def packNumbers (numbers : List Uint256) : Except Revert Uint256 :=
  (List.range numbers.length).foldlM
    (fun card i => setBucketValueByIndex card (BitVec.ofNat 256 i) (numbers.getD i 0)) 0

/-- Packing 25 bytes never overflows. -/
theorem packNumbers_eq {numbers : List Uint256} (hlen : numbers.length = 25)
    (hbytes : ∀ x ∈ numbers, x.toNat < 256) :
    packNumbers numbers = .ok (packTiles (numbers.map BitVec.toNat)) := by
  have hget : ∀ i, (numbers.getD i 0).toNat < 256 := by
    intro i
    by_cases hi : i < numbers.length
    · rw [List.getD_eq_getElem _ _ hi]
      exact hbytes _ (List.getElem_mem hi)
    · rw [List.getD_eq_default _ _ (by omega)]
      decide
  obtain ⟨c, hfold, hc⟩ := fill_buckets (fun i => numbers.getD i 0) hget (by omega :
    numbers.length ≤ 32)
  have hlist : (List.range numbers.length).map (fun i => (numbers.getD i 0).toNat)
      = numbers.map BitVec.toNat := by
    apply List.ext_getElem
    · simp
    · intro i hi _
      have hi' : i < numbers.length := by simpa using hi
      simp [hi']
  rw [hlist] at hc
  have hcard : c = packTiles (numbers.map BitVec.toNat) := by
    rw [packTiles, ← hc, BitVec.ofNat_toNat, BitVec.setWidth_eq]
  rw [packNumbers, ← hcard]
  exact hfold

/-- Dealing is packing the random numbers. -/
theorem createBingoCardForPlayer_eq_packNumbers (keccak256 : List Byte → Bytes32)
    (entropy : Bytes32) : createBingoCardForPlayer keccak256 0 entropy
      = packNumbers ((List.range 25).map (tileRand keccak256 entropy)) := by
  rw [packNumbers_eq (by simp)]
  · rw [List.map_map]
    exact createBingoCardForPlayer_eq keccak256 entropy
  · intro x hx
    obtain ⟨i, _, rfl⟩ := List.mem_map.mp hx
    exact Nat.lt_succ_of_lt (tileRand_lt keccak256 entropy i)

theorem getNumbersArrayForCard_packTiles {numbers : List Uint256} (hlen : numbers.length = 25)
    (hbytes : ∀ x ∈ numbers, x.toNat < 256) :
    getNumbersArrayForCard (packTiles (numbers.map BitVec.toNat)) = .ok numbers := by
  have htiles : ∀ x ∈ numbers.map BitVec.toNat, x < 256 := by
    intro x hx
    obtain ⟨n, hn, rfl⟩ := List.mem_map.mp hx
    exact hbytes n hn
  rw [getNumbersArrayForCard_eq, Except.ok.injEq]
  apply List.ext_getElem
  · simp [hlen]
  · intro i hi hi'
    rw [List.getElem_map, List.getElem_range, bucket_packTiles (by simp [hlen]) htiles,
      List.getD_eq_getElem _ _ (by simpa using hi'), List.getElem_map, BitVec.ofNat_toNat,
      BitVec.setWidth_eq]

/-- A card below `2 ^ 200` is packed from its buckets. -/
theorem packTiles_buckets {card : Uint256} (hcard : card.toNat < 2 ^ 200) :
    packTiles ((List.range 25).map (bucket card)) = card := by
  have hdigits := Lib.ofDigits_map_digit 256 card.toNat 25
  rw [Nat.mod_eq_of_lt (show card.toNat < 256 ^ 25 from hcard)] at hdigits
  rw [packTiles]
  apply BitVec.eq_of_toNat_eq
  rw [show (List.range 25).map (bucket card)
    = (List.range 25).map fun i => card.toNat / 256 ^ i % 256 from rfl, hdigits,
    BitVec.toNat_ofNat, Nat.mod_eq_of_lt card.isLt]

/-- **Card packing round-trips**, from the numbers and from the word. -/
theorem card_packing_round_trips :
    (∀ numbers : List Uint256, numbers.length = 25 → (∀ x ∈ numbers, x.toNat ≤ 255) →
      ∃ card, packNumbers numbers = .ok card ∧ getNumbersArrayForCard card = .ok numbers) ∧
    (∀ card : Uint256, card.toNat < 2 ^ 200 →
      ∃ numbers, getNumbersArrayForCard card = .ok numbers ∧ packNumbers numbers = .ok card) ∧
    (∀ (keccak256 : List Byte → Bytes32) (entropy : Bytes32),
      ∃ card, createBingoCardForPlayer keccak256 0 entropy = .ok card ∧
        getNumbersArrayForCard card = .ok ((List.range 25).map fun i =>
          keccak256 (abiEncode [entropy, BitVec.ofNat 256 i]) % 255)) := by
  have hread : ∀ numbers : List Uint256, numbers.length = 25 → (∀ x ∈ numbers, x.toNat ≤ 255) →
      ∃ card, packNumbers numbers = .ok card ∧ getNumbersArrayForCard card = .ok numbers := by
    intro numbers hlen hbytes
    have hlt : ∀ x ∈ numbers, x.toNat < 256 := fun x hx => Nat.lt_succ_of_le (hbytes x hx)
    exact ⟨_, packNumbers_eq hlen hlt, getNumbersArrayForCard_packTiles hlen hlt⟩
  refine ⟨hread, fun card hcard => ?_, fun keccak256 entropy => ?_⟩
  · have hlt : ∀ x ∈ (List.range 25).map (fun i => BitVec.ofNat 256 (bucket card i)),
        x.toNat < 256 := by
      intro x hx
      obtain ⟨i, _, rfl⟩ := List.mem_map.mp hx
      rw [BitVec.toNat_ofNat]
      exact Nat.lt_of_le_of_lt (Nat.mod_le _ _) (bucket_lt card i)
    refine ⟨_, getNumbersArrayForCard_eq card, ?_⟩
    rw [packNumbers_eq (by simp) hlt, List.map_map]
    have hbuckets : (List.range 25).map (BitVec.toNat ∘ fun i => BitVec.ofNat 256 (bucket card i))
        = (List.range 25).map (bucket card) := by
      apply List.map_congr_left
      intro i _
      have hb := bucket_lt card i
      show (BitVec.ofNat 256 (bucket card i)).toNat = bucket card i
      rw [BitVec.toNat_ofNat, Nat.mod_eq_of_lt (by omega)]
    rw [hbuckets, packTiles_buckets hcard]
  · rw [createBingoCardForPlayer_eq_packNumbers]
    refine hread _ (by simp) ?_
    intro x hx
    obtain ⟨i, _, rfl⟩ := List.mem_map.mp hx
    exact Nat.le_of_lt (tileRand_lt keccak256 entropy i)

/-- The card of the numbers 0 to 24, packed and read back. -/
theorem card_packing_sample :
    ∃ card, packNumbers ((List.range 25).map (BitVec.ofNat 256)) = .ok card ∧
      getNumbersArrayForCard card = .ok ((List.range 25).map (BitVec.ofNat 256)) := by
  refine card_packing_round_trips.1 _ (by simp) fun x hx => ?_
  obtain ⟨i, hi, rfl⟩ := List.mem_map.mp hx
  have hlt := List.mem_range.mp hi
  rw [BitVec.toNat_ofNat]
  omega

/-! ## Looking a number up -/

/-- The scan returns the first index that holds the target. -/
theorem playerHasNumber_eq (numbers : List Uint256) (target : Uint256) :
    playerHasNumber numbers target
      = if target ∈ numbers then (true, BitVec.ofNat 32 (numbers.idxOf target))
        else (false, 99) := by
  have h : ∀ (l : List Uint256) (i : Nat),
      playerHasNumber.scan target i l
        = if target ∈ l then (true, BitVec.ofNat 32 (i + l.idxOf target)) else (false, 99) := by
    intro l
    induction l with
    | nil => intro i; rfl
    | cons n rest ih =>
        intro i
        by_cases hn : n = target
        · subst hn; simp [playerHasNumber.scan]
        · have hne : target ≠ n := fun h => hn h.symm
          simp only [playerHasNumber.scan, if_neg hn, ih, List.mem_cons, hne, false_or,
            List.idxOf_cons_ne _ hn]
          rw [Nat.add_right_comm, Nat.add_assoc]
  rw [playerHasNumber, h numbers 0, Nat.zero_add]

end BitmaskBingo
