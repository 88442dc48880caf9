/-
  BitmaskBingo.Lib.Trace

  Runs of a labelled transition system together with their history, oldest
  label first.  Invariants may speak of the history: the induction rule hands
  the run so far to the step case.
-/

import Mathlib.Data.List.Induction
import Mathlib.Logic.Relation

namespace Lib

/-- `Run step s l s'`: the steps labelled `l`, in this order, lead from `s` to
    `s'`. -/
inductive Run {σ ε : Type} (step : σ → ε → σ → Prop) (s : σ) : List ε → σ → Prop where
  | nil : Run step s [] s
  | snoc {l : List ε} {a b : σ} {e : ε} :
      Run step s l a → step a e b → Run step s (l ++ [e]) b

namespace Run

variable {σ ε : Type} {step : σ → ε → σ → Prop} {s s' s'' : σ} {l l' : List ε}

theorem append (h : Run step s l s') (h' : Run step s' l' s'') : Run step s (l ++ l') s'' := by
  induction h' with
  | nil => simpa using h
  | snoc _ he ih =>
      rw [← List.append_assoc]
      exact ih.snoc he

/-- A run over a concatenation passes through a state in between. -/
theorem split (h : Run step s (l ++ l') s'') : ∃ m, Run step s l m ∧ Run step m l' s'' := by
  generalize hl : l ++ l' = k at h
  induction h generalizing l' with
  | nil =>
      obtain ⟨rfl, rfl⟩ := List.append_eq_nil_iff.mp hl
      exact ⟨s, nil, nil⟩
  | @snoc k a b e hrun he ih =>
      rcases List.eq_nil_or_concat l' with rfl | ⟨k', e', rfl⟩
      · rw [List.append_nil] at hl
        subst hl
        exact ⟨b, hrun.snoc he, nil⟩
      · rw [List.concat_eq_append] at hl ⊢
        rw [← List.append_assoc] at hl
        obtain ⟨hk, hee⟩ := List.append_inj' hl rfl
        obtain rfl : e' = e := by simpa using hee
        obtain ⟨m, hm, hm'⟩ := ih hk
        exact ⟨m, hm, hm'.snoc he⟩

/-- A run of one step is that step. -/
theorem single_iff {e : ε} : Run step s [e] s' ↔ step s e s' := by
  refine ⟨?_, ?_⟩
  · intro h
    generalize hk : [e] = k at h
    cases h with
    | nil => cases hk
    | @snoc k' c _ e' hc he =>
        obtain ⟨rfl, rfl⟩ : k' = [] ∧ e = e' := by
          cases k' with
          | nil => simpa using hk
          | cons x k' => simp at hk
        generalize hn : ([] : List ε) = n at hc
        cases hc with
        | nil => exact he
        | snoc _ _ => simp at hn
  · intro h
    exact nil.snoc h

theorem cons {e : ε} {a : σ} (he : step s e a) (h : Run step a l s') : Run step s (e :: l) s' := by
  rw [← List.singleton_append]
  exact (single_iff.mpr he).append h

/-- The states around a step of the history. -/
theorem split_at {e : ε} (h : Run step s (l ++ e :: l') s'') :
    ∃ a b, Run step s l a ∧ step a e b ∧ Run step b l' s'' := by
  obtain ⟨a, ha, hrest⟩ := h.split
  rw [← List.singleton_append] at hrest
  obtain ⟨b, hb, hb'⟩ := hrest.split
  exact ⟨a, b, ha, single_iff.mp hb, hb'⟩

/-- **Invariants of runs.**  What holds of the empty history and is kept by
    every step holds after every run. -/
theorem invariant {P : List ε → σ → Prop} (h : Run step s l s') (h₀ : P [] s)
    (hstep : ∀ k a e b, Run step s k a → P k a → step a e b → P (k ++ [e]) b) : P l s' := by
  induction h with
  | nil => exact h₀
  | snoc hrun he ih => exact hstep _ _ _ _ hrun ih he

/-- An invariant under a condition on the labels. -/
theorem invariant_of {P : List ε → σ → Prop} {Q : ε → Prop} (h : Run step s l s')
    (hQ : ∀ e ∈ l, Q e) (h₀ : P [] s)
    (hstep : ∀ k a e b, Run step s k a → (∀ e' ∈ k, Q e') → P k a → Q e → step a e b →
      P (k ++ [e]) b) : P l s' := by
  induction h with
  | nil => exact h₀
  | @snoc k a b e hrun he ih =>
      have hk : ∀ e' ∈ k, Q e' := fun e' he' => hQ e' (List.mem_append_left _ he')
      exact hstep _ _ _ _ hrun hk (ih hk) (hQ e (by simp)) he

/-- What every step does to a reflexive and transitive relation, a run does. -/
theorem relates {R : σ → σ → Prop} (h : Run step s l s') (hrefl : ∀ a, R a a)
    (htrans : ∀ a b c, R a b → R b c → R a c) (hstep : ∀ a e b, e ∈ l → step a e b → R a b) :
    R s s' := by
  induction h with
  | nil => exact hrefl s
  | snoc hrun he ih =>
      exact htrans _ _ _ (ih fun a e b hm => hstep a e b (List.mem_append_left _ hm))
        (hstep _ _ _ (by simp) he)

/-- Every step of the history was taken somewhere in the run. -/
theorem exists_step {e : ε} (h : Run step s l s') (he : e ∈ l) :
    ∃ k k' a b, l = k ++ e :: k' ∧ Run step s k a ∧ step a e b ∧ Run step b k' s' := by
  obtain ⟨k, k', rfl⟩ := List.append_of_mem he
  obtain ⟨a, b, ha, hab, hb⟩ := h.split_at
  exact ⟨k, k', a, b, rfl, ha, hab, hb⟩

/-- **Goals pursued one after another.**  When each goal of a list can be
    reached from wherever the goals before it were reached, some run reaches
    them all. -/
theorem pursue {α : Type} {P : List α → List ε → σ → Prop} {goals : List α} (h₀ : P [] [] s)
    (hnext : ∀ done x k a, done ++ [x] <+: goals → Run step s k a → P done k a →
      ∃ k' b, Run step a k' b ∧ P (done ++ [x]) (k ++ k') b) :
    ∃ k a, Run step s k a ∧ P goals k a := by
  have hall : ∀ done, done <+: goals → ∃ k a, Run step s k a ∧ P done k a := by
    intro done
    induction done using List.reverseRecOn with
    | nil => exact fun _ => ⟨[], s, nil, h₀⟩
    | append_singleton done x ih =>
        intro hprefix
        obtain ⟨k, a, hrun, hdone⟩ := ih ((List.prefix_append done [x]).trans hprefix)
        obtain ⟨k', b, hrun', hreached⟩ := hnext done x k a hprefix hrun hdone
        exact ⟨k ++ k', b, hrun.append hrun', hreached⟩
  exact hall goals List.prefix_rfl

/-! ## Views -/

section Views

variable {ν ω : Type} {step' : ν → ω → ν → Prop} {view : σ → ν} {see : ε → Option ω}

/-- A run, seen through a view: the steps that are seen make a run of the
    views, if the others keep the view. -/
theorem project (h : Run step s l s')
    (hseen : ∀ a e b o, step a e b → see e = some o → step' (view a) o (view b))
    (hunseen : ∀ a e b, step a e b → see e = none → view b = view a) :
    Run step' (view s) (l.filterMap see) (view s') := by
  induction h with
  | nil => exact nil
  | @snoc l a b e _ he ih =>
      rw [List.filterMap_append]
      cases ho : see e with
      | none =>
          rw [hunseen a e b he ho, List.filterMap_cons_none ho, List.filterMap_nil,
            List.append_nil]
          exact ih
      | some o =>
          rw [List.filterMap_cons_some ho, List.filterMap_nil]
          exact ih.snoc (hseen a e b o he ho)

/-- When a step has one outcome, a run has. -/
theorem deterministic (hdet : ∀ a e b b', step a e b → step a e b' → b = b')
    (h : Run step s l s') (h' : Run step s l s'') : s' = s'' := by
  induction h generalizing s'' with
  | nil =>
      generalize hk : ([] : List ε) = k at h'
      cases h' with
      | nil => rfl
      | snoc => simp at hk
  | snoc _ he ih =>
      obtain ⟨m, hm, hm'⟩ := h'.split
      obtain rfl := ih hm
      exact hdet _ _ _ _ he (single_iff.mp hm')

end Views

end Run

end Lib
