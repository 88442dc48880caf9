/-
  BitmaskBingo.Lib.Ledger

  Ledgers of fixed-width words: a finite set of accounts, each holding a
  `w`-bit amount.  `total` is the exact sum of the holdings.  As long as the
  total fits in a word, an unchecked credit cannot wrap, and a transfer moves
  the amount and nothing else, a self-transfer included.
-/

import Mathlib.Algebra.BigOperators.Group.Finset.Piecewise
import Mathlib.Algebra.Order.BigOperators.Group.Finset
import Mathlib.Data.Fintype.BigOperators

namespace Lib

instance instFintypeBitVec (n : Nat) : Fintype (BitVec n) :=
  Fintype.ofEquiv (Fin (2 ^ n)) ⟨BitVec.ofFin, BitVec.toFin, fun _ => rfl, fun _ => rfl⟩

namespace Ledger

variable {ι : Type} [Fintype ι] {w : Nat}

/-- The exact sum of all holdings. -/
def total (b : ι → BitVec w) : Nat := ∑ i, (b i).toNat

theorem total_zero : total (fun _ : ι => (0 : BitVec w)) = 0 := by simp [total]

theorem le_total (b : ι → BitVec w) (i : ι) : (b i).toNat ≤ total b := by
  have hnonneg : ∀ j ∈ Finset.univ, 0 ≤ (fun j => (b j).toNat) j := fun _ _ => Nat.zero_le _
  exact Finset.single_le_sum hnonneg (Finset.mem_univ i)

/-- Two accounts together hold no more than there is. -/
theorem add_le_total (b : ι → BitVec w) {i j : ι} (hij : i ≠ j) :
    (b i).toNat + (b j).toNat ≤ total b := by
  have hnonneg : ∀ k ∈ Finset.univ, 0 ≤ (fun k => (b k).toNat) k := fun _ _ => Nat.zero_le _
  exact Finset.add_le_sum hnonneg (Finset.mem_univ i) (Finset.mem_univ j) hij

variable [DecidableEq ι]

/-- Credit an account with wrapping arithmetic. -/
def credit (b : ι → BitVec w) (dst : ι) (a : BitVec w) : ι → BitVec w :=
  Function.update b dst (b dst + a)

/-- Debit the source, then credit the destination, with wrapping arithmetic. -/
def transfer (b : ι → BitVec w) (src dst : ι) (a : BitVec w) : ι → BitVec w :=
  credit (Function.update b src (b src - a)) dst a

/-- Changing one holding changes the total by the difference. -/
theorem total_update (b : ι → BitVec w) (i : ι) (v : BitVec w) :
    total (Function.update b i v) + (b i).toNat = total b + v.toNat := by
  have hrest : ∑ j ∈ Finset.univ.erase i, (Function.update b i v j).toNat
      = ∑ j ∈ Finset.univ.erase i, (b j).toNat := by
    apply Finset.sum_congr rfl
    intro j hj
    rw [Function.update_of_ne (Finset.ne_of_mem_erase hj)]
  have hnew := Finset.add_sum_erase Finset.univ
    (fun j => (Function.update b i v j).toNat) (Finset.mem_univ i)
  have hold := Finset.add_sum_erase Finset.univ (fun j => (b j).toNat) (Finset.mem_univ i)
  simp only [Function.update_self, hrest] at hnew
  simp only [total]
  omega

/-- A credit that fits does not wrap. -/
theorem toNat_credit {b : ι → BitVec w} {dst : ι} {a : BitVec w}
    (hfit : total b + a.toNat < 2 ^ w) (i : ι) :
    (credit b dst a i).toNat = (b i).toNat + if i = dst then a.toNat else 0 := by
  have hle := le_total b dst
  by_cases hi : i = dst
  · subst hi
    rw [credit, Function.update_self, BitVec.toNat_add, if_pos rfl]
    exact Nat.mod_eq_of_lt (by omega)
  · rw [credit, Function.update_of_ne hi, if_neg hi, Nat.add_zero]

theorem total_credit {b : ι → BitVec w} {dst : ι} {a : BitVec w}
    (hfit : total b + a.toNat < 2 ^ w) : total (credit b dst a) = total b + a.toNat := by
  have h := total_update b dst (b dst + a)
  have hdst : (credit b dst a dst).toNat = (b dst).toNat + if dst = dst then a.toNat else 0 :=
    toNat_credit hfit dst
  rw [if_pos rfl, credit, Function.update_self] at hdst
  rw [credit]
  omega

/-- The debited ledger has room for the credit. -/
theorem total_debit {b : ι → BitVec w} {src : ι} {a : BitVec w} (ha : a.toNat ≤ (b src).toNat) :
    total (Function.update b src (b src - a)) + a.toNat = total b := by
  have h := total_update b src (b src - a)
  have hsub : (b src - a).toNat = (b src).toNat - a.toNat := BitVec.toNat_sub_of_le ha
  omega

/-- A covered transfer keeps the total. -/
theorem total_transfer {b : ι → BitVec w} {src dst : ι} {a : BitVec w}
    (ha : a.toNat ≤ (b src).toNat) (hfit : total b < 2 ^ w) :
    total (transfer b src dst a) = total b := by
  have hdebit := total_debit ha
  rw [transfer, total_credit (by omega)]
  exact hdebit

/-- What a covered transfer does to each account. -/
theorem toNat_transfer {b : ι → BitVec w} {src dst : ι} {a : BitVec w}
    (ha : a.toNat ≤ (b src).toNat) (hfit : total b < 2 ^ w) (i : ι) :
    (transfer b src dst a i).toNat + (if i = src then a.toNat else 0)
      = (b i).toNat + if i = dst then a.toNat else 0 := by
  have hdebit := total_debit ha
  rw [transfer, toNat_credit (by omega)]
  by_cases hi : i = src
  · subst hi
    rw [Function.update_self, if_pos rfl, BitVec.toNat_sub_of_le ha]
    omega
  · rw [Function.update_of_ne hi, if_neg hi]
    omega

omit [Fintype ι] in
/-- A transfer, account by account. -/
theorem transfer_apply (b : ι → BitVec w) (src dst : ι) (a : BitVec w) (i : ι) :
    transfer b src dst a i = b i - (if i = src then a else 0#w) + (if i = dst then a else 0#w) := by
  rw [transfer, credit, Function.update_apply]
  by_cases hd : i = dst
  · subst hd
    rw [if_pos rfl, if_pos rfl, Function.update_apply]
    by_cases hs : i = src
    · subst hs
      rw [if_pos rfl, if_pos rfl]
    · rw [if_neg hs, if_neg hs, BitVec.sub_zero]
  · rw [if_neg hd, if_neg hd, BitVec.add_zero, Function.update_apply]
    by_cases hs : i = src
    · subst hs
      rw [if_pos rfl, if_pos rfl]
    · rw [if_neg hs, if_neg hs, BitVec.sub_zero]

omit [Fintype ι] in
/-- Transfers commute, covered or not. -/
theorem transfer_comm (b : ι → BitVec w) (src dst src' dst' : ι) (a a' : BitVec w) :
    transfer (transfer b src dst a) src' dst' a'
      = transfer (transfer b src' dst' a') src dst a := by
  funext i
  simp only [transfer_apply, BitVec.sub_eq_add_neg, BitVec.add_assoc]
  congr 1
  ac_rfl

end Ledger
end Lib
