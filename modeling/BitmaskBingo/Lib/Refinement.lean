/-
  BitmaskBingo.Lib.Refinement

  Machines that serve requests one after another and may refuse some of them,
  and refinement between two such machines by an abstraction function: the
  concrete machine accepts exactly what the abstract one accepts, with the
  same answers, and its states abstract to the states of the other.
-/

import Mathlib.Tactic.Basic

namespace Lib

variable {σ σ' τ ρ ε : Type}

/-- Serve requests in order.  A refused request changes nothing and is
    answered by `none`. -/
def serve (exec : σ → τ → Except ε (σ × ρ)) (s : σ) : List τ → List (Option ρ) × σ
  | [] => ([], s)
  | x :: xs =>
      match exec s x with
      | .error _ => (none :: (serve exec s xs).1, (serve exec s xs).2)
      | .ok (s', r) => (some r :: (serve exec s' xs).1, (serve exec s' xs).2)

theorem serve_cons_ok {exec : σ → τ → Except ε (σ × ρ)} {s s' : σ} {x : τ} {xs : List τ} {r : ρ}
    (h : exec s x = .ok (s', r)) :
    serve exec s (x :: xs) = (some r :: (serve exec s' xs).1, (serve exec s' xs).2) := by
  simp only [serve, h]

theorem serve_cons_error {exec : σ → τ → Except ε (σ × ρ)} {s : σ} {x : τ} {xs : List τ} {e : ε}
    (h : exec s x = .error e) :
    serve exec s (x :: xs) = (none :: (serve exec s xs).1, (serve exec s xs).2) := by
  simp only [serve, h]

/-- What accepted requests keep holds after every service. -/
theorem serve_invariant {exec : σ → τ → Except ε (σ × ρ)} {P : σ → Prop} {s : σ} {xs : List τ}
    (h₀ : P s) (hstep : ∀ s x s' r, P s → exec s x = .ok (s', r) → P s') :
    P (serve exec s xs).2 := by
  induction xs generalizing s with
  | nil => exact h₀
  | cons x xs ih =>
      cases hx : exec s x with
      | ok a =>
          rw [serve_cons_ok hx]
          exact ih (hstep s x a.1 a.2 h₀ hx)
      | error e =>
          rw [serve_cons_error hx]
          exact ih h₀

/-- The obligations of a refinement.  `Good s xs` says that the requests `xs`
    may be served from `s`; it is handed on to the rest of the requests. -/
structure Refines (exec : σ → τ → Except ε (σ × ρ)) (exec' : σ' → τ → Except ε (σ' × ρ))
    (abs : σ → σ') (Good : σ → List τ → Prop) : Prop where
  accepts : ∀ {s x xs s' r}, Good s (x :: xs) → exec s x = .ok (s', r) →
    exec' (abs s) x = .ok (abs s', r)
  refuses : ∀ {s x xs a}, Good s (x :: xs) → exec' (abs s) x = .ok a → ∃ b, exec s x = .ok b
  good_ok : ∀ {s x xs s' r}, Good s (x :: xs) → exec s x = .ok (s', r) → Good s' xs
  good_error : ∀ {s x xs e}, Good s (x :: xs) → exec s x = .error e → Good s xs

/-- A refinement of single requests is one of whole runs: the answers are the
    same and the final states correspond. -/
theorem Refines.serve {exec : σ → τ → Except ε (σ × ρ)} {exec' : σ' → τ → Except ε (σ' × ρ)}
    {abs : σ → σ'} {Good : σ → List τ → Prop} (h : Refines exec exec' abs Good) {s : σ}
    {xs : List τ} (hgood : Good s xs) :
    serve exec' (abs s) xs = ((serve exec s xs).1, abs (serve exec s xs).2) := by
  induction xs generalizing s with
  | nil => rfl
  | cons x xs ih =>
      cases hx : exec s x with
      | ok a =>
          obtain ⟨s', r⟩ := a
          rw [serve_cons_ok hx, serve_cons_ok (h.accepts hgood hx), ih (h.good_ok hgood hx)]
      | error e =>
          have herror : ∃ e', exec' (abs s) x = .error e' := by
            cases hx' : exec' (abs s) x with
            | error e' => exact ⟨e', rfl⟩
            | ok a =>
                obtain ⟨b, hb⟩ := h.refuses hgood hx'
                cases hx.symm.trans hb
          obtain ⟨e', hx'⟩ := herror
          rw [serve_cons_error hx, serve_cons_error hx', ih (h.good_error hgood hx)]

end Lib
