/-
  BitmaskBingo.StorageUtils

  The library `StorageUtils`: 32 buckets of 8 bits in a `uint256`, and a
  bitmap in a `uint32`.  A bucket is written by adding the shifted value, so
  that a write is only a write when the bucket was empty; it is read by a
  shift and a mask.
-/

import BitmaskBingo.Evm
import BitmaskBingo.Lib.Digits

namespace BitmaskBingo
namespace StorageUtils

def bucketSizeInBits : Uint256 := 8

-- ============================================================================
-- Bingo tiles
-- ============================================================================

/-- Sets the uint8 value stored in a bucket: adds `newValue << (8 * index)`. -/
def setBucketValueByIndex (storageContainer bucketIndex newValue : Uint256) :
    Except Revert Uint256 := do
  let numBitsToShiftLeft ← checkedMul bucketSizeInBits bucketIndex
  checkedAdd storageContainer (newValue <<< numBitsToShiftLeft)

/-- Gets the uint8 value stored in a bucket using the bucket index. -/
def getBucketValueByIndex (storageContainer bucketIndex : Uint256) :
    Except Revert Uint256 := do
  let mask ← checkedSub ((1 : Uint256) <<< bucketSizeInBits) 1
  let numBitsToShiftRight ← checkedMul bucketSizeInBits bucketIndex
  return (storageContainer >>> numBitsToShiftRight) &&& mask

-- ============================================================================
-- Bingo hits
-- ============================================================================

/-- Returns a copy of the board with the bit at the location set. -/
def setBitValueByIndex (board location : Uint32) : Uint32 :=
  board ||| ((1 : Uint32) <<< location)

def getBitValueByIndex (hitStorage index : Uint32) : Uint256 :=
  if hitStorage &&& ((1 : Uint32) <<< index) > 0 then 1 else 0

/-! ## What the buckets hold -/

/-- The value of bucket `i` of a container. -/
def bucket (c : Uint256) (i : Nat) : Nat := c.toNat / 256 ^ i % 256

theorem bucket_lt (c : Uint256) (i : Nat) : bucket c i < 256 := Nat.mod_lt _ (by decide)

@[simp] theorem bucket_zero (i : Nat) : bucket 0 i = 0 := by simp [bucket]

private theorem pow_two_mul_eight (i : Nat) : 2 ^ (8 * i) = 256 ^ i := by
  rw [Nat.pow_mul]

private theorem ofNat_toNat {w i : Nat} (hi : i < 2 ^ w) : (BitVec.ofNat w i).toNat = i := by
  rw [BitVec.toNat_ofNat, Nat.mod_eq_of_lt hi]

private theorem shift_lt {i : Nat} (hi : i < 32) :
    bucketSizeInBits.toNat * (BitVec.ofNat 256 i).toNat < 2 ^ 256 := by
  rw [show bucketSizeInBits.toNat = 8 from rfl, ofNat_toNat (by omega)]
  omega

/-- The shift amount of a bucket index below 32. -/
theorem shift_toNat {i : Nat} (hi : i < 32) :
    (bucketSizeInBits * BitVec.ofNat 256 i).toNat = 8 * i := by
  rw [BitVec.toNat_mul, Nat.mod_eq_of_lt (shift_lt hi), ofNat_toNat (by omega)]
  rfl

theorem shift_ok {i : Nat} (hi : i < 32) :
    checkedMul bucketSizeInBits (BitVec.ofNat 256 i)
      = .ok (bucketSizeInBits * BitVec.ofNat 256 i) :=
  checkedMul_ok (shift_lt hi)

/-- Reading a bucket of the container never panics below index 32. -/
theorem getBucketValueByIndex_eq (c : Uint256) {i : Nat} (hi : i < 32) :
    getBucketValueByIndex c (BitVec.ofNat 256 i) = .ok (BitVec.ofNat 256 (bucket c i)) := by
  have hmask : checkedSub ((1 : Uint256) <<< bucketSizeInBits) 1 = .ok (255#256) := by decide
  simp only [getBucketValueByIndex, hmask, shift_ok hi, bind, Except.bind, pure, Except.pure]
  congr 1
  apply BitVec.eq_of_toNat_eq
  have hb := bucket_lt c i
  rw [BitVec.toNat_and, BitVec.ushiftRight_eq', BitVec.toNat_ushiftRight, shift_toNat hi,
    Nat.shiftRight_eq_div_pow, pow_two_mul_eight, BitVec.toNat_ofNat, BitVec.toNat_ofNat,
    show 255 % 2 ^ 256 = 2 ^ 8 - 1 from rfl, Nat.and_two_pow_sub_one_eq_mod,
    Nat.mod_eq_of_lt (by omega : bucket c i < 2 ^ 256)]
  rfl

/-- The value written, shifted to its bucket. -/
private theorem shiftLeft_toNat {i : Nat} {v : Uint256} (hi : i < 32) (hv : v.toNat < 256) :
    (v <<< (bucketSizeInBits * BitVec.ofNat 256 i)).toNat = v.toNat * 256 ^ i := by
  have hfits : 0 + v.toNat * 256 ^ i < 256 ^ 32 :=
    Lib.add_digit_lt hv (by simp) hi (Nat.pow_pos (by decide))
  rw [Nat.zero_add] at hfits
  rw [BitVec.shiftLeft_eq', BitVec.toNat_shiftLeft, shift_toNat hi, Nat.shiftLeft_eq,
    pow_two_mul_eight]
  exact Nat.mod_eq_of_lt hfits

/-- A write adds the shifted value, and reverts when the sum overflows. -/
theorem setBucketValueByIndex_eq_ok {c c' : Uint256} {i : Nat} {v : Uint256} (hi : i < 32)
    (hv : v.toNat < 256) :
    setBucketValueByIndex c (BitVec.ofNat 256 i) v = .ok c' ↔
      c'.toNat = c.toNat + v.toNat * 256 ^ i := by
  rw [← shiftLeft_toNat hi hv, setBucketValueByIndex, shift_ok hi]
  exact checkedAdd_eq_ok

/-- Writing an empty bucket: the sum does not carry. -/
theorem setBucketValueByIndex_empty {c : Uint256} {i : Nat} {v : Uint256} (hi : i < 32)
    (hempty : bucket c i = 0) (hv : v.toNat < 256) :
    ∃ c', setBucketValueByIndex c (BitVec.ofNat 256 i) v = .ok c' ∧
      c'.toNat = c.toNat + v.toNat * 256 ^ i := by
  have hfits : c.toNat + v.toNat * 256 ^ i < 2 ^ 256 :=
    Lib.add_digit_lt hv hempty hi c.isLt
  refine ⟨BitVec.ofNat 256 (c.toNat + v.toNat * 256 ^ i), ?_, ofNat_toNat hfits⟩
  rw [setBucketValueByIndex_eq_ok hi hv]
  exact ofNat_toNat hfits

/-- Writing above everything the container holds. -/
theorem setBucketValueByIndex_eq {c : Uint256} {i : Nat} {v : Uint256} (hi : i < 32)
    (hc : c.toNat < 256 ^ i) (hv : v.toNat < 256) :
    ∃ c', setBucketValueByIndex c (BitVec.ofNat 256 i) v = .ok c' ∧
      c'.toNat = c.toNat + v.toNat * 256 ^ i := by
  refine setBucketValueByIndex_empty hi ?_ hv
  rw [bucket, Nat.div_eq_of_lt hc]

/-! ## When a write is a write -/

/-- The bucket then reads as the value, and every other bucket as before. -/
def WritesBucket (c i v : Uint256) : Prop :=
  ∃ c', setBucketValueByIndex c i v = .ok c' ∧ getBucketValueByIndex c' i = .ok v ∧
    ∀ j : Uint256, j.toNat < 32 → j ≠ i →
      getBucketValueByIndex c' j = getBucketValueByIndex c j

/-- What a bucket reads as is what it holds. -/
private theorem getBucket_eq_iff {c i v : Uint256} (hi : i.toNat < 32) :
    getBucketValueByIndex c i = .ok v ↔ bucket c i.toNat = v.toNat := by
  have hread := getBucketValueByIndex_eq c hi
  have hlt := bucket_lt c i.toNat
  rw [BitVec.ofNat_toNat, BitVec.setWidth_eq] at hread
  rw [hread, Except.ok.injEq, ← BitVec.toNat_inj, ofNat_toNat (by omega)]

/-- **Setting a bucket is a write** exactly when the bucket is empty.  Otherwise
    the two values are added, and the sum may carry into the next bucket. -/
theorem setBucketValueByIndex_writes_iff (c i v : Uint256) (hi : i.toNat < 32)
    (hv : v.toNat < 256) : WritesBucket c i v ↔ bucket c i.toNat = 0 := by
  have hword : BitVec.ofNat 256 i.toNat = i := by rw [BitVec.ofNat_toNat, BitVec.setWidth_eq]
  refine ⟨?_, ?_⟩
  · rintro ⟨c', hset, hget, -⟩
    rw [← hword, setBucketValueByIndex_eq_ok hi hv] at hset
    rw [getBucket_eq_iff hi, bucket, hset, Lib.digit_add_self (by decide)] at hget
    -- the bucket now holds the sum of both values, modulo 256
    have hlt := bucket_lt c i.toNat
    rw [bucket] at hlt ⊢
    omega
  · intro hempty
    obtain ⟨c', hset, hc'⟩ := setBucketValueByIndex_empty hi hempty hv
    rw [hword] at hset
    refine ⟨c', hset, ?_, fun j hj hne => ?_⟩
    · rw [getBucket_eq_iff hi, bucket, hc', Lib.digit_add_self (by decide)]
      rw [bucket] at hempty
      rw [hempty, Nat.zero_add, Nat.mod_eq_of_lt hv]
    · have hji : j.toNat ≠ i.toNat := fun h => hne (BitVec.eq_of_toNat_eq h)
      have hread : BitVec.ofNat 256 j.toNat = j := by rw [BitVec.ofNat_toNat, BitVec.setWidth_eq]
      rw [← hread, getBucketValueByIndex_eq c' hj, getBucketValueByIndex_eq c hj, bucket, hc',
        Lib.digit_add_of_ne (by decide) hv hempty hji, bucket]

theorem setBucketValueByIndex_writes_sample :
    bucket 0x0700 1 = 7 ∧ bucket 0x0700 2 = 0 ∧
      (WritesBucket 0x0700 2 9 ↔ bucket 0x0700 (2 : Uint256).toNat = 0) :=
  ⟨by decide, by decide, setBucketValueByIndex_writes_iff 0x0700 2 9 (by decide) (by decide)⟩

/-- Setting the bucket that holds 1 to 1 makes it 2. -/
theorem setBucketValueByIndex_adds : ¬ ∀ c i v : Uint256, i.toNat < 32 → v.toNat < 256 →
    WritesBucket c i v := by
  intro hclaim
  obtain ⟨c', hset, hget, -⟩ := hclaim 1 0 1 (by decide) (by decide)
  obtain rfl : (2 : Uint256) = c' := Except.ok.inj hset
  exact absurd (Except.ok.inj hget) (by decide)

/-! ## What the bitmap holds -/

/-- The mask of a bit index is the power of two. -/
theorem bitMask_eq {i : Nat} (hi : i < 32) :
    (1 : Uint32) <<< BitVec.ofNat 32 i = BitVec.twoPow 32 i := by
  rw [BitVec.shiftLeft_eq', ofNat_toNat (by omega)]
  rfl

/-- Setting a bit sets that bit and no other. -/
theorem setBitValueByIndex_getLsbD (board : Uint32) {i : Nat} (hi : i < 32) (j : Nat) :
    (setBitValueByIndex board (BitVec.ofNat 32 i)).getLsbD j
      = (board.getLsbD j || decide (i = j)) := by
  rw [setBitValueByIndex, bitMask_eq hi, BitVec.getLsbD_or, BitVec.getLsbD_twoPow]
  simp [hi]

/-- A bit reads as 1 exactly when it is set. -/
theorem getBitValueByIndex_eq (h : Uint32) {i : Nat} (hi : i < 32) :
    getBitValueByIndex h (BitVec.ofNat 32 i) = if h.getLsbD i then 1 else 0 := by
  rw [getBitValueByIndex, bitMask_eq hi, BitVec.and_twoPow]
  cases hbit : h.getLsbD i with
  | false => simp
  | true =>
      have hpos : BitVec.twoPow 32 i ≠ 0#32 := by
        intro hzero
        have hself := congrArg (fun x => x.getLsbD i) hzero
        simp [hi] at hself
      simp [hpos]

end StorageUtils
end BitmaskBingo
