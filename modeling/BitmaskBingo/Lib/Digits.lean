/-
  BitmaskBingo.Lib.Digits

  Reading single digits out of a positional number.  `Nat.ofDigits b L` packs
  the list `L` with its head least significant; these lemmas read digit `i`
  back with the division and remainder that a shift and a mask compute.
-/

import Mathlib.Data.List.GetD
import Mathlib.Data.Nat.Digits.Lemmas

namespace Lib

/-- Digit `i` of a packed list is the list's element `i`, and `0` past its end. -/
theorem digit_ofDigits {b : Nat} {L : List Nat} (hL : ∀ x ∈ L, x < b) (i : Nat)
    (hb : 0 < b) : Nat.ofDigits b L / b ^ i % b = L.getD i 0 := by
  rw [Nat.ofDigits_div_pow_eq_ofDigits_drop i hb L hL]
  by_cases hi : i < L.length
  · rw [List.drop_eq_getElem_cons hi, Nat.ofDigits_cons, Nat.add_mul_mod_self_left,
      Nat.mod_eq_of_lt (hL _ (List.getElem_mem hi)), List.getD_eq_getElem _ _ hi]
  · rw [List.drop_eq_nil_of_le (by omega), List.getD_eq_default _ _ (by omega)]
    simp

/-- A packed list of `n` digits is below `b ^ n`. -/
theorem ofDigits_lt_pow {b n : Nat} {L : List Nat} (hL : ∀ x ∈ L, x < b) (hn : L.length ≤ n)
    (hb : 1 < b) : Nat.ofDigits b L < b ^ n :=
  Nat.lt_of_lt_of_le (Nat.ofDigits_lt_base_pow_length hb hL)
    (Nat.pow_le_pow_right (by omega) hn)

/-- Packing one more digit adds it at the next power of the base. -/
theorem ofDigits_concat (b : Nat) (L : List Nat) (x : Nat) :
    Nat.ofDigits b (L ++ [x]) = Nat.ofDigits b L + x * b ^ L.length := by
  rw [Nat.ofDigits_append, Nat.ofDigits_singleton, Nat.mul_comm]

/-- A packed list is `0` exactly when all its digits are. -/
theorem ofDigits_eq_zero_iff {b : Nat} (hb : 0 < b) (L : List Nat) :
    Nat.ofDigits b L = 0 ↔ ∀ x ∈ L, x = 0 := by
  induction L with
  | nil => simp
  | cons x rest ih =>
      rw [Nat.ofDigits_cons, Nat.add_eq_zero_iff, Nat.mul_eq_zero, ih, List.forall_mem_cons]
      refine ⟨?_, ?_⟩
      · rintro ⟨hx, hr⟩
        exact ⟨hx, hr.resolve_left (by omega)⟩
      · rintro ⟨hx, hr⟩
        exact ⟨hx, Or.inr hr⟩

/-- The digits of a number pack to what is below the next power. -/
theorem ofDigits_map_digit (b c n : Nat) :
    Nat.ofDigits b ((List.range n).map fun i => c / b ^ i % b) = c % b ^ n := by
  induction n with
  | zero => simp [Nat.mod_one]
  | succ n ih =>
      rw [List.range_succ, List.map_append, List.map_singleton, ofDigits_concat, ih,
        List.length_map, List.length_range, Nat.mod_pow_succ, Nat.mul_comm]

/-! ## Adding at a digit -/

/-- Adding at digit `i` adds to that digit, up to a carry. -/
theorem digit_add_self {b : Nat} (hb : 0 < b) (c i v : Nat) :
    (c + v * b ^ i) / b ^ i % b = (c / b ^ i % b + v) % b := by
  rw [Nat.add_mul_div_right _ _ (Nat.pow_pos hb), Nat.mod_add_mod]

/-- Adding a digit where there is a zero changes no other digit. -/
theorem digit_add_of_ne {b c i v : Nat} (hb : 0 < b) (hv : v < b) (hzero : c / b ^ i % b = 0)
    {j : Nat} (hj : j ≠ i) : (c + v * b ^ i) / b ^ j % b = c / b ^ j % b := by
  rcases Nat.lt_or_gt_of_ne hj with hlt | hgt
  · -- below: what is added is a multiple of the next power
    obtain ⟨k, rfl⟩ : ∃ k, i = j + 1 + k := ⟨i - j - 1, by omega⟩
    have hsplit : v * b ^ (j + 1 + k) = v * b ^ k * b * b ^ j := by
      rw [Nat.pow_add, Nat.pow_succ]
      ac_rfl
    rw [hsplit, Nat.add_mul_div_right _ _ (Nat.pow_pos hb), Nat.add_mul_mod_self_right]
  · -- above: the digit that was zero takes `v` without a carry
    obtain ⟨k, rfl⟩ : ∃ k, j = i + 1 + k := ⟨j - i - 1, by omega⟩
    have hquot : (c / b ^ i + v) / b = c / b ^ i / b := by
      have hdiv := Nat.div_add_mod (c / b ^ i) b
      rw [hzero, Nat.add_zero] at hdiv
      rw [← hdiv, Nat.mul_add_div hb, Nat.div_eq_of_lt hv, Nat.mul_div_cancel_left _ hb,
        Nat.add_zero]
    have hpow : b ^ (i + 1 + k) = b ^ i * b * b ^ k := by rw [Nat.pow_add, Nat.pow_succ]
    rw [hpow, ← Nat.div_div_eq_div_mul, ← Nat.div_div_eq_div_mul, ← Nat.div_div_eq_div_mul,
      ← Nat.div_div_eq_div_mul, Nat.add_mul_div_right _ _ (Nat.pow_pos hb), hquot]

/-- Adding a digit where there is a zero does not overflow. -/
theorem add_digit_lt {b c i v n : Nat} (hv : v < b) (hzero : c / b ^ i % b = 0) (hi : i < n)
    (hc : c < b ^ n) : c + v * b ^ i < b ^ n := by
  have hb : 0 < b := by omega
  obtain ⟨k, rfl⟩ : ∃ k, n = i + 1 + k := ⟨n - i - 1, by omega⟩
  have hpow : b ^ (i + 1 + k) = b * b ^ k * b ^ i := by
    rw [Nat.pow_add, Nat.pow_succ]
    ac_rfl
  rw [hpow] at hc ⊢
  have hquot : c / b ^ i < b * b ^ k := Nat.div_lt_of_lt_mul (by rwa [Nat.mul_comm])
  have hdiv := Nat.div_add_mod (c / b ^ i) b
  rw [hzero, Nat.add_zero] at hdiv
  have hnext : c / b ^ i + v < b * b ^ k := by
    rw [← hdiv] at hquot ⊢
    have hlt : c / b ^ i / b < b ^ k := Nat.lt_of_mul_lt_mul_left hquot
    have hle : b * (c / b ^ i / b + 1) ≤ b * b ^ k := Nat.mul_le_mul_left b hlt
    rw [Nat.mul_succ] at hle
    omega
  rw [← Nat.div_lt_iff_lt_mul (Nat.pow_pos hb), Nat.add_mul_div_right _ _ (Nat.pow_pos hb)]
  exact hnext

end Lib
