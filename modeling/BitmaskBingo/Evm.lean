/-
  BitmaskBingo.Evm

  The part of the EVM and of Solidity 0.8 the contracts use: fixed-width
  words, reverts, checked arithmetic, integer conversions, the block and the
  caller of a message, and `abi.encode` of static words.
-/

import Mathlib.Data.BitVec

namespace BitmaskBingo

abbrev Uint256 := BitVec 256
abbrev Uint64 := BitVec 64
abbrev Uint32 := BitVec 32
abbrev Bytes32 := BitVec 256
abbrev Address := BitVec 160
abbrev Byte := BitVec 8

/-- Why a call reverts: a `require` with its reason, or a Solidity panic. -/
inductive Revert where
  | error (reason : String)
  | panic (code : Nat)
deriving Repr, DecidableEq

/-- The panic of a checked arithmetic operation that overflows. -/
def arithmeticPanic : Revert := .panic 0x11

def require (c : Prop) [Decidable c] (reason : String) : Except Revert Unit :=
  if c then .ok () else .error (.error reason)

/-- A sequence succeeds when both parts do. -/
theorem bind_eq_ok {α β : Type} {x : Except Revert α} {f : α → Except Revert β} {b : β} :
    (x >>= f) = .ok b ↔ ∃ a, x = .ok a ∧ f a = .ok b := by
  cases x with
  | error e => simp [bind, Except.bind]
  | ok a => simp [bind, Except.bind]

/-- Whether a call succeeds can be computed. -/
theorem exists_of_isOk {α : Type} {x : Except Revert α} (h : x.isOk = true) : ∃ a, x = .ok a := by
  cases x with
  | error e => cases h
  | ok a => exact ⟨a, rfl⟩

theorem require_bind {α : Type} {c : Prop} {_ : Decidable c} {m : String}
    {f : Unit → Except Revert α} {a : α} :
    (require c m >>= f) = .ok a ↔ c ∧ f () = .ok a := by
  by_cases hc : c
  · simp [require, hc, bind, Except.bind]
  · simp [require, hc, bind, Except.bind]

/-! ## Checked arithmetic -/

def checkedAdd {w : Nat} (a b : BitVec w) : Except Revert (BitVec w) :=
  if a.toNat + b.toNat < 2 ^ w then .ok (a + b) else .error arithmeticPanic

def checkedSub {w : Nat} (a b : BitVec w) : Except Revert (BitVec w) :=
  if b.toNat ≤ a.toNat then .ok (a - b) else .error arithmeticPanic

def checkedMul {w : Nat} (a b : BitVec w) : Except Revert (BitVec w) :=
  if a.toNat * b.toNat < 2 ^ w then .ok (a * b) else .error arithmeticPanic

theorem checkedAdd_ok {w : Nat} {a b : BitVec w} (h : a.toNat + b.toNat < 2 ^ w) :
    checkedAdd a b = .ok (a + b) := if_pos h

theorem checkedAdd_error {w : Nat} {a b : BitVec w} (h : ¬ a.toNat + b.toNat < 2 ^ w) :
    checkedAdd a b = .error arithmeticPanic := if_neg h

theorem checkedSub_ok {w : Nat} {a b : BitVec w} (h : b.toNat ≤ a.toNat) :
    checkedSub a b = .ok (a - b) := if_pos h

theorem checkedMul_ok {w : Nat} {a b : BitVec w} (h : a.toNat * b.toNat < 2 ^ w) :
    checkedMul a b = .ok (a * b) := if_pos h

theorem checkedAdd_bind {w : Nat} {α : Type} {x y : BitVec w} {f : BitVec w → Except Revert α}
    {a : α} :
    (checkedAdd x y >>= f) = .ok a ↔ x.toNat + y.toNat < 2 ^ w ∧ f (x + y) = .ok a := by
  by_cases hc : x.toNat + y.toNat < 2 ^ w
  · rw [checkedAdd_ok hc]
    exact ⟨fun h => ⟨hc, h⟩, fun h => h.2⟩
  · rw [checkedAdd_error hc]
    exact ⟨fun h => (by cases h), fun h => absurd h.1 hc⟩

/-- A sum that does not wrap, in numbers and in words. -/
theorem toNat_eq_add_iff {w : Nat} {a b c : BitVec w} :
    c.toNat = a.toNat + b.toNat ↔ a.toNat + b.toNat < 2 ^ w ∧ a + b = c := by
  refine ⟨fun h => ?_, ?_⟩
  · have hfits : a.toNat + b.toNat < 2 ^ w := by
      rw [← h]
      exact c.isLt
    refine ⟨hfits, BitVec.eq_of_toNat_eq ?_⟩
    rw [BitVec.toNat_add, Nat.mod_eq_of_lt hfits, h]
  · rintro ⟨hfits, rfl⟩
    rw [BitVec.toNat_add, Nat.mod_eq_of_lt hfits]

/-- A checked sum is the sum in numbers. -/
theorem checkedAdd_eq_ok {w : Nat} {a b c : BitVec w} :
    checkedAdd a b = .ok c ↔ c.toNat = a.toNat + b.toNat := by
  rw [toNat_eq_add_iff]
  by_cases hfits : a.toNat + b.toNat < 2 ^ w
  · rw [checkedAdd_ok hfits, Except.ok.injEq]
    exact ⟨fun h => ⟨hfits, h⟩, fun h => h.2⟩
  · rw [checkedAdd_error hfits]
    exact ⟨fun h => (by cases h), fun h => absurd h.1 hfits⟩

theorem pos_iff_ne_zero {w : Nat} {x : BitVec w} : 0#w < x ↔ x ≠ 0#w := by
  rw [BitVec.lt_def, BitVec.toNat_zero, Nat.pos_iff_ne_zero, Ne, Ne, ← BitVec.toNat_inj,
    BitVec.toNat_zero]

/-! ## Conversions -/

/-- `uint64(x)` keeps the low 64 bits. -/
def uint64 {w : Nat} (x : BitVec w) : Uint64 := x.setWidth 64

/-- The implicit conversion to `uint256`, and `uint256(x)`. -/
def uint256 {w : Nat} (x : BitVec w) : Uint256 := x.setWidth 256

theorem uint64_toNat {w : Nat} (x : BitVec w) :
    (uint64 x).toNat = x.toNat % 2 ^ 64 := BitVec.toNat_setWidth ..

theorem uint256_toNat {w : Nat} (x : BitVec w) (hw : w ≤ 256) :
    (uint256 x).toNat = x.toNat := by
  rw [uint256, BitVec.toNat_setWidth]
  exact Nat.mod_eq_of_lt (Nat.lt_of_lt_of_le x.isLt (Nat.pow_le_pow_right (by decide) hw))

@[simp] theorem uint256_toNat_uint64 (x : Uint64) : (uint256 x).toNat = x.toNat :=
  uint256_toNat x (by decide)

/-- A word below `2 ^ 64` survives the conversion to `uint64`. -/
theorem uint64_toNat_of_lt {w : Nat} {x : BitVec w} (h : x.toNat < 2 ^ 64) :
    (uint64 x).toNat = x.toNat := by
  rw [uint64_toNat, Nat.mod_eq_of_lt h]

/-! ## Messages -/

/-- The block a call is executed in. -/
structure Block where
  number : Uint256
  timestamp : Uint256
  blockhash : Uint256 → Bytes32

/-- The caller of an external function, and the block. -/
structure Msg where
  sender : Address
  block : Block

/-- The timestamp is not 0 and fits in 64 bits. -/
def Block.ValidTime (b : Block) : Prop := 1 ≤ b.timestamp.toNat ∧ b.timestamp.toNat < 2 ^ 64

instance (b : Block) : Decidable b.ValidTime := inferInstanceAs (Decidable (_ ∧ _))

/-- A valid time is not 0 as `uint64` either. -/
theorem Block.ValidTime.uint64_ne_zero {b : Block} (h : b.ValidTime) :
    uint64 b.timestamp ≠ 0 := by
  intro hzero
  have htime : (uint64 b.timestamp).toNat = b.timestamp.toNat := uint64_toNat_of_lt h.2
  have hpos : 1 ≤ b.timestamp.toNat := h.1
  rw [← htime, hzero] at hpos
  exact absurd hpos (by decide)

/-- `blockhash(block.number - 1)`: in block 0 the subtraction panics. -/
def Block.previousBlockhash (b : Block) : Except Revert Bytes32 := do
  return b.blockhash (← checkedSub b.number 1)

/-- The hash of the block before. -/
def Block.entropy (b : Block) : Bytes32 := b.blockhash (b.number - 1)

theorem Block.previousBlockhash_ok {b : Block} (h : b.number ≠ 0) :
    b.previousBlockhash = .ok b.entropy := by
  have hpos : b.number.toNat ≠ 0 := fun h0 => h (BitVec.eq_of_toNat_eq h0)
  have hle : (1 : Uint256).toNat ≤ b.number.toNat := Nat.pos_of_ne_zero hpos
  rw [previousBlockhash, checkedSub_ok hle]
  rfl

theorem Block.previousBlockhash_error {b : Block} (h : b.number = 0) :
    b.previousBlockhash = .error arithmeticPanic := by
  simp only [previousBlockhash, checkedSub, h]
  rfl

theorem Block.previousBlockhash_bind {b : Block} {α : Type} {f : Bytes32 → Except Revert α}
    {a : α} : (b.previousBlockhash >>= f) = .ok a ↔ b.number ≠ 0 ∧ f b.entropy = .ok a := by
  by_cases hb : b.number = 0
  · rw [previousBlockhash_error hb]
    exact ⟨fun h => (by cases h), fun h => absurd hb h.1⟩
  · rw [previousBlockhash_ok hb]
    exact ⟨fun h => ⟨hb, h⟩, fun h => h.2⟩

/-- The 32 bytes of a word, most significant first. -/
def wordBytes (w : Uint256) : List Byte :=
  (List.range 32).map fun i => (w >>> (8 * (31 - i))).setWidth 8

/-- `abi.encode` of static arguments: each takes one word, an address being
    padded on the left. -/
def abiEncode (words : List Uint256) : List Byte := words.flatMap wordBytes

@[simp] theorem wordBytes_length (w : Uint256) : (wordBytes w).length = 32 := by
  rw [wordBytes, List.length_map, List.length_range]

/-- The bits of the byte that stands `q` places before the last one. -/
theorem wordBytes_getLsbD (w : Uint256) {q r : Nat} (hq : q < 32) (hr : r < 8) :
    (wordBytes w)[31 - q]?.map (fun b => b.getLsbD r) = some (w.getLsbD (8 * q + r)) := by
  have hlt : 31 - q < 32 := by omega
  have hback : 31 - (31 - q) = q := by omega
  rw [wordBytes, List.getElem?_map, List.getElem?_range hlt, Option.map_some, Option.map_some,
    hback, BitVec.getLsbD_setWidth, BitVec.getLsbD_ushiftRight, decide_eq_true hr, Bool.true_and]

theorem wordBytes_injective {a b : Uint256} (h : wordBytes a = wordBytes b) : a = b := by
  apply BitVec.eq_of_getLsbD_eq
  intro k hk
  have hq : k / 8 < 32 := by omega
  have hr : k % 8 < 8 := Nat.mod_lt _ (by decide)
  have hsplit : 8 * (k / 8) + k % 8 = k := Nat.div_add_mod k 8
  have hbit := wordBytes_getLsbD a hq hr
  rw [h, wordBytes_getLsbD b hq hr, hsplit] at hbit
  exact (Option.some.inj hbit).symm

/-- Equal encodings start with the same word. -/
theorem abiEncode_head {a b : Uint256} {l l' : List Uint256}
    (h : abiEncode (a :: l) = abiEncode (b :: l')) : a = b := by
  rw [abiEncode, abiEncode, List.flatMap_cons, List.flatMap_cons] at h
  have hlen : (wordBytes a).length = (wordBytes b).length := by
    rw [wordBytes_length, wordBytes_length]
  exact wordBytes_injective (List.append_inj_left h hlen)

end BitmaskBingo
