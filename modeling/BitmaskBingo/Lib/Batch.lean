/-
  BitmaskBingo.Lib.Batch

  Requests for keys, served one after another: a request that is not good when
  its turn comes is skipped.  Serving is exclusive when a served request closes
  its own key and no other.  Then a batch of requests serves the first good
  one for each key, and batches with the same first ones end in one state.
-/

import Mathlib.Data.List.Perm.Basic

namespace Lib
namespace Batch

variable {σ α κ : Type} [DecidableEq κ]

-- ============================================================================
-- The first request for each key
-- ============================================================================

section Firsts

variable (key : α → κ)

/-- The first request for each key. -/
def firsts : List α → List α
  | [] => []
  | a :: as => a :: (firsts as).filter fun b => decide (key b ≠ key a)

variable {key}

theorem firsts_cons (a : α) (as : List α) :
    firsts key (a :: as) = a :: (firsts key as).filter fun b => decide (key b ≠ key a) := rfl

theorem firsts_subset (as : List α) : firsts key as ⊆ as := by
  induction as with
  | nil => exact fun _ h => h
  | cons a as ih =>
      intro b hb
      rw [firsts_cons, List.mem_cons] at hb
      rcases hb with rfl | hb
      · exact List.mem_cons_self
      · exact List.mem_cons_of_mem a (ih (List.mem_filter.mp hb).1)

/-- Every key that is asked for has a first request. -/
theorem mem_firsts_keys {k : κ} (as : List α) : k ∈ (firsts key as).map key ↔ k ∈ as.map key := by
  induction as with
  | nil => exact Iff.rfl
  | cons a as ih =>
      rw [firsts_cons, List.map_cons, List.map_cons, List.mem_cons, List.mem_cons, ← ih]
      by_cases hk : k = key a
      · exact iff_of_true (Or.inl hk) (Or.inl hk)
      · refine or_congr_right ⟨?_, ?_⟩
        · intro h
          obtain ⟨b, hb, rfl⟩ := List.mem_map.mp h
          exact List.mem_map_of_mem (List.mem_filter.mp hb).1
        · intro h
          obtain ⟨b, hb, rfl⟩ := List.mem_map.mp h
          exact List.mem_map_of_mem (List.mem_filter.mpr ⟨hb, decide_eq_true hk⟩)

/-- No key has two first requests. -/
theorem firsts_pairwise (as : List α) :
    (firsts key as).Pairwise fun a b => key a ≠ key b := by
  induction as with
  | nil => exact .nil
  | cons a as ih =>
      rw [firsts_cons, List.pairwise_cons]
      refine ⟨fun b hb => ?_, ih.filter _⟩
      have hne : key b ≠ key a := of_decide_eq_true (List.mem_filter.mp hb).2
      exact hne.symm

/-- A filter that looks at the keys only. -/
theorem firsts_filter_key (p : κ → Bool) (as : List α) :
    firsts key (as.filter fun a => p (key a)) = (firsts key as).filter fun a => p (key a) := by
  induction as with
  | nil => rfl
  | cons a as ih =>
      by_cases ha : p (key a) = true
      · rw [List.filter_cons_of_pos (by exact ha), firsts_cons, firsts_cons,
          List.filter_cons_of_pos (by exact ha), ih, List.filter_comm]
      · rw [List.filter_cons_of_neg (by exact ha), ih, firsts_cons,
          List.filter_cons_of_neg (by exact ha), List.filter_filter]
        -- what is filtered out for its key `key a` does not pass `p` either
        refine List.filter_congr fun b _ => ?_
        by_cases hb : key b = key a
        · simp [hb, ha]
        · simp [hb]

end Firsts

-- ============================================================================
-- Serving a batch
-- ============================================================================

section Serve

variable (good : σ → α → Prop) [∀ s, DecidablePred (good s)] (act : σ → α → σ)

/-- Serve the requests one after another, and list those that were served. -/
def serve (s : σ) : List α → List α × σ
  | [] => ([], s)
  | a :: as =>
      if good s a then (a :: (serve (act s a) as).1, (serve (act s a) as).2)
      else serve s as

/-- In the states `P`, serving a request closes its key and no other. -/
structure Exclusive (key : α → κ) (P : σ → Prop) : Prop where
  keeps : ∀ {s a}, P s → good s a → P (act s a)
  closes : ∀ {s a}, P s → good s a → ∀ b, good (act s a) b ↔ good s b ∧ key b ≠ key a
  comm : ∀ {s a b}, P s → good s a → good s b → key a ≠ key b →
    act (act s a) b = act (act s b) a

variable {good act} {key : α → κ} {P : σ → Prop}

/-- What a batch serves is settled before it starts. -/
theorem serve_eq (h : Exclusive good act key P) {s : σ} (hs : P s) (as : List α) :
    serve good act s as
      = (firsts key (as.filter (good s)),
          (firsts key (as.filter (good s))).foldl act s) := by
  induction as generalizing s with
  | nil => rfl
  | cons a as ih =>
      rw [serve]
      by_cases ha : good s a
      · have hrest : as.filter (good (act s a))
            = (as.filter (good s)).filter fun b => decide (key b ≠ key a) := by
          rw [List.filter_filter]
          refine List.filter_congr fun b _ => ?_
          rw [decide_eq_decide.mpr (h.closes hs ha b), Bool.decide_and, Bool.and_comm]
        have hfirsts : firsts key (as.filter (good (act s a)))
            = (firsts key (as.filter (good s))).filter fun b => decide (key b ≠ key a) := by
          rw [hrest]
          exact firsts_filter_key (fun k => decide (k ≠ key a)) _
        rw [if_pos ha, ih (h.keeps hs ha), List.filter_cons_of_pos (by simpa using ha),
          firsts_cons, hfirsts, List.foldl_cons]
      · rw [if_neg ha, ih hs, List.filter_cons_of_neg (by simpa using ha)]

omit [DecidableEq κ] [∀ s, DecidablePred (good s)] in
/-- Good requests for different keys can be served in any order. -/
theorem foldl_perm (h : Exclusive good act key P) {s : σ} (hs : P s) {as bs : List α}
    (hperm : as.Perm bs) (hgood : ∀ a ∈ as, good s a)
    (hkeys : as.Pairwise fun a b => key a ≠ key b) : as.foldl act s = bs.foldl act s := by
  induction hperm generalizing s with
  | nil => rfl
  | @cons a as bs _ ih =>
      have ha : good s a := hgood a List.mem_cons_self
      obtain ⟨hne, hrest⟩ := List.pairwise_cons.mp hkeys
      refine ih (h.keeps hs ha) (fun b hb => ?_) hrest
      exact (h.closes hs ha b).mpr ⟨hgood b (List.mem_cons_of_mem a hb), (hne b hb).symm⟩
  | swap a b as =>
      have hb : good s b := hgood b List.mem_cons_self
      have ha : good s a := hgood a (List.mem_cons_of_mem b List.mem_cons_self)
      have hne : key b ≠ key a := (List.pairwise_cons.mp hkeys).1 a List.mem_cons_self
      rw [List.foldl_cons, List.foldl_cons, List.foldl_cons, List.foldl_cons, h.comm hs hb ha hne]
  | @trans as bs cs hab _ ih₁ ih₂ =>
      have hkeys' : bs.Pairwise fun a b => key a ≠ key b :=
        hkeys.perm hab fun h => Ne.symm h
      exact (ih₁ hs hgood hkeys).trans
        (ih₂ hs (fun a ha => hgood a (hab.mem_iff.mpr ha)) hkeys')

/-- **The order of a batch does not matter** beyond who is first for a key. -/
theorem serve_perm (h : Exclusive good act key P) {s : σ} (hs : P s) {as bs : List α}
    (hperm : (firsts key (as.filter (good s))).Perm (firsts key (bs.filter (good s)))) :
    (serve good act s as).2 = (serve good act s bs).2 := by
  rw [serve_eq h hs, serve_eq h hs]
  refine foldl_perm h hs hperm (fun a ha => ?_) (firsts_pairwise _)
  exact of_decide_eq_true (List.mem_filter.mp (firsts_subset _ ha)).2

end Serve

end Batch
end Lib
