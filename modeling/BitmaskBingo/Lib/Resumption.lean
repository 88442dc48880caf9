/-
  BitmaskBingo.Lib.Resumption

  Contract code that calls out.  A contract function runs on its own storage,
  but whenever it makes an external call the control passes to foreign code,
  which may re-enter the contract and leave the storage changed.  A
  `Resumption` is what such a function does up to its next external call,
  together with the rest of its code as a function of the storage it finds
  when the call returns.

  `Code` is the monad the functions are written in.  `runWith` runs them
  against a callee that returns without calling back; `Lib.CallStack` runs the
  same resumptions against a callee that calls back as it likes.
-/

import Mathlib.Tactic.Basic

namespace Lib

/-- What a contract function does when control is with it: it ends with a
    result, it reverts, or it calls out and is resumed later. -/
inductive Resumption (σ κ ε α : Type) where
  | done (s : σ) (a : α)
  | revert (e : ε)
  | call (s : σ) (c : κ) (resume : σ → Resumption σ κ ε α)

namespace Resumption

variable {σ κ ε α β τ : Type}

/-- Sequencing: the second computation starts on the storage the first one
    leaves, also when that is only after several external calls. -/
def bind (f : α → σ → Resumption σ κ ε β) : Resumption σ κ ε α → Resumption σ κ ε β
  | done s a => f a s
  | revert e => revert e
  | call s c k => call s c (fun s' => bind f (k s'))

@[simp] theorem bind_done (f : α → σ → Resumption σ κ ε β) (s : σ) (a : α) :
    (done s a : Resumption σ κ ε α).bind f = f a s := rfl

@[simp] theorem bind_revert (f : α → σ → Resumption σ κ ε β) (e : ε) :
    (revert e : Resumption σ κ ε α).bind f = revert e := rfl

@[simp] theorem bind_call (f : α → σ → Resumption σ κ ε β) (s : σ) (c : κ)
    (k : σ → Resumption σ κ ε α) :
    (call s c k).bind f = call s c (fun s' => (k s').bind f) := rfl

theorem bind_assoc {γ : Type} (x : Resumption σ κ ε α) (f : α → σ → Resumption σ κ ε β)
    (g : β → σ → Resumption σ κ ε γ) : (x.bind f).bind g = x.bind fun a s => (f a s).bind g := by
  induction x with
  | done s a => rfl
  | revert e => rfl
  | call s c k ih => simp only [bind_call, ih]

/-- Branching commutes with sequencing. -/
@[simp] theorem bind_ite (p : Prop) [Decidable p] (f : α → σ → Resumption σ κ ε β)
    (x y : Resumption σ κ ε α) :
    (if p then x else y).bind f = if p then x.bind f else y.bind f := by
  split <;> rfl

/-- Run against a callee of state `τ` that returns without calling back, so
    that the storage at the return is the storage at the call. -/
def runWith (callee : κ → τ → Except ε τ) : Resumption σ κ ε α → τ → Except ε (σ × τ × α)
  | done s a, t => .ok (s, t, a)
  | revert e, _ => .error e
  | call s c k, t =>
      match callee c t with
      | .error e => .error e
      | .ok t' => runWith callee (k s) t'

variable (callee : κ → τ → Except ε τ)

@[simp] theorem runWith_done (s : σ) (a : α) (t : τ) :
    (done s a : Resumption σ κ ε α).runWith callee t = .ok (s, t, a) := rfl

@[simp] theorem runWith_revert (e : ε) (t : τ) :
    (revert e : Resumption σ κ ε α).runWith callee t = .error e := rfl

/-- A call that the callee refuses reverts its caller. -/
theorem runWith_call_error {s : σ} {c : κ} {k : σ → Resumption σ κ ε α} {t : τ} {e : ε}
    (h : callee c t = .error e) : (call s c k).runWith callee t = .error e := by
  simp only [runWith, h]

/-- A call that returns hands the untouched storage back. -/
theorem runWith_call_ok {s : σ} {c : κ} {k : σ → Resumption σ κ ε α} {t t' : τ}
    (h : callee c t = .ok t') :
    (call s c k).runWith callee t = (k s).runWith callee t' := by
  simp only [runWith, h]

/-- A run that succeeds through a call had the callee return. -/
theorem runWith_call_eq_ok {s : σ} {c : κ} {k : σ → Resumption σ κ ε α} {t : τ}
    {r : σ × τ × α} :
    (call s c k).runWith callee t = .ok r ↔
      ∃ t', callee c t = .ok t' ∧ (k s).runWith callee t' = .ok r := by
  cases h : callee c t with
  | error e => simp [runWith_call_error callee h]
  | ok t' => simp [runWith_call_ok callee h]

/-! ## Guards -/

/-- Code behind checks: it goes on as `r'` when `P` holds and reverts when it
    does not. -/
def Guarded (r : Resumption σ κ ε α) (P : Prop) (r' : Resumption σ κ ε α) : Prop :=
  (P ∧ r = r') ∨ (¬ P ∧ ∃ e, r = .revert e)

theorem Guarded.pass {r r' : Resumption σ κ ε α} {P : Prop} (hP : P) (h : r = r') :
    r.Guarded P r' := Or.inl ⟨hP, h⟩

theorem Guarded.refuse {r r' : Resumption σ κ ε α} {P : Prop} (hP : ¬ P) (e : ε)
    (h : r = .revert e) : r.Guarded P r' := Or.inr ⟨hP, e, h⟩

/-- What follows guarded code is behind the same checks. -/
theorem Guarded.bind {r r' : Resumption σ κ ε α} {P : Prop} (h : r.Guarded P r')
    (f : α → σ → Resumption σ κ ε β) : (r.bind f).Guarded P (r'.bind f) := by
  rcases h with ⟨hP, rfl⟩ | ⟨hP, e, rfl⟩
  · exact .pass hP rfl
  · exact .refuse hP e (bind_revert f e)

theorem Guarded.runWith_eq_ok {r r' : Resumption σ κ ε α} {P : Prop} (h : r.Guarded P r')
    {callee : κ → τ → Except ε τ} {t : τ} {x : σ × τ × α} :
    r.runWith callee t = .ok x ↔ P ∧ r'.runWith callee t = .ok x := by
  rcases h with ⟨hP, rfl⟩ | ⟨hP, e, rfl⟩
  · simp [hP]
  · simp [hP]

/-! ## Checks in order -/

section Checks

variable (checks checks' : List (Bool × ε)) (r : Resumption σ κ ε α)

/-- Why a list of checks refuses: the reason of the first one that fails. -/
def refusal : List (Bool × ε) → Option ε
  | [] => none
  | (passes, e) :: checks => if passes then refusal checks else some e

/-- Code that makes the checks first, one after another. -/
def behind : List (Bool × ε) → Resumption σ κ ε α → Resumption σ κ ε α
  | [], r => r
  | (passes, e) :: checks, r => if passes then behind checks r else revert e

theorem bind_behind (f : α → σ → Resumption σ κ ε β) :
    (behind checks r).bind f = behind checks (r.bind f) := by
  induction checks with
  | nil => rfl
  | cons c checks ih =>
      obtain ⟨passes, e⟩ := c
      simp only [behind, bind_ite, bind_revert, ih]

theorem behind_append : behind (checks ++ checks') r = behind checks (behind checks' r) := by
  induction checks with
  | nil => rfl
  | cons c checks ih =>
      obtain ⟨passes, e⟩ := c
      simp only [List.cons_append, behind, ih]

theorem behind_refused {checks : List (Bool × ε)} {r : Resumption σ κ ε α} {e : ε}
    (h : refusal checks = some e) : behind checks r = revert e := by
  induction checks with
  | nil => cases h
  | cons c checks ih =>
      obtain ⟨passes, e'⟩ := c
      cases passes with
      | false =>
          cases h
          rfl
      | true => exact ih h

/-- A later check may take an earlier one for granted. -/
theorem behind_congr {passes : Bool} {e : ε} {r r' : Resumption σ κ ε α}
    (h : passes = true → r = r') : behind [(passes, e)] r = behind [(passes, e)] r' := by
  cases passes with
  | false => rfl
  | true => exact h rfl

/-- Code behind checks runs when none refuses. -/
theorem runWith_behind (t : τ) :
    (behind checks r).runWith callee t = (refusal checks).elim (r.runWith callee t) .error := by
  induction checks with
  | nil => rfl
  | cons c checks ih =>
      obtain ⟨passes, e⟩ := c
      cases passes with
      | false => rfl
      | true => exact ih

theorem refusal_append : refusal (checks ++ checks') = (refusal checks).or (refusal checks') := by
  induction checks with
  | nil => rfl
  | cons c checks ih =>
      obtain ⟨passes, e⟩ := c
      cases passes with
      | false => rfl
      | true => exact ih

/-- The reason of a refusal is that of a check that fails. -/
theorem mem_of_refusal {checks : List (Bool × ε)} {e : ε} (h : refusal checks = some e) :
    (false, e) ∈ checks := by
  induction checks with
  | nil => cases h
  | cons c checks ih =>
      obtain ⟨passes, e'⟩ := c
      cases passes with
      | false =>
          cases h
          exact List.mem_cons_self ..
      | true => exact List.mem_cons_of_mem _ (ih h)

/-- A computation that fails as the first failing check says, and otherwise
    succeeds. -/
def DecidedBy (x : Except ε α) (checks : List (Bool × ε)) : Prop :=
  match refusal checks with
  | none => ∃ a, x = .ok a
  | some e => x = .error e

variable {callee checks checks' r} {t : τ}

theorem DecidedBy.error_iff {x : Except ε α} (h : DecidedBy x checks) (e : ε) :
    x = .error e ↔ refusal checks = some e := by
  rw [DecidedBy] at h
  cases hrefusal : refusal checks with
  | none =>
      rw [hrefusal] at h
      obtain ⟨a, rfl⟩ := h
      simp
  | some e' =>
      rw [hrefusal] at h
      simp [h]

theorem DecidedBy.ok_iff {x : Except ε α} (h : DecidedBy x checks) :
    (∃ a, x = .ok a) ↔ refusal checks = none := by
  rw [DecidedBy] at h
  cases hrefusal : refusal checks with
  | none =>
      rw [hrefusal] at h
      simpa using h
  | some e =>
      rw [hrefusal] at h
      simp [h]

theorem decided_done {s : σ} {a : α} : DecidedBy ((done s a).runWith callee t) [] := ⟨_, rfl⟩

/-- Checks of the code itself come before what decides the rest. -/
theorem decided_behind (h : DecidedBy (r.runWith callee t) checks') :
    DecidedBy ((behind checks r).runWith callee t) (checks ++ checks') := by
  rw [DecidedBy, refusal_append, runWith_behind]
  cases refusal checks with
  | none => exact h
  | some e => rfl

theorem decided_behind_done {s : σ} {a : α} :
    DecidedBy ((behind checks (done s a)).runWith callee t) checks := by
  have hdone : DecidedBy ((done s a).runWith callee t) [] := decided_done
  have hbehind : DecidedBy ((behind checks (done s a)).runWith callee t) (checks ++ []) :=
    decided_behind hdone
  rwa [List.append_nil] at hbehind

/-- What the callee refuses, the caller does. -/
theorem decided_call {s : σ} {c : κ} {k : σ → Resumption σ κ ε α}
    (h : DecidedBy (callee c t) checks)
    (hk : ∀ t', callee c t = .ok t' → DecidedBy ((k s).runWith callee t') checks') :
    DecidedBy ((call s c k).runWith callee t) (checks ++ checks') := by
  rw [DecidedBy] at h
  rw [DecidedBy, refusal_append]
  cases hrefusal : refusal checks with
  | none =>
      rw [hrefusal] at h
      obtain ⟨t', ht'⟩ := h
      rw [runWith_call_ok callee ht']
      exact hk t' ht'
  | some e =>
      rw [hrefusal] at h
      exact runWith_call_error callee h

/-- Nothing refuses when every check passes. -/
theorem refusal_eq_none_iff : refusal checks = none ↔ ∀ c ∈ checks, c.1 = true := by
  induction checks with
  | nil => simp [refusal]
  | cons c checks ih =>
      obtain ⟨passes, e⟩ := c
      cases passes with
      | false => simp [refusal]
      | true => simp [refusal, ih]

end Checks

end Resumption

/-! ## The monad of contract code -/

/-- Contract code: from the storage at entry to a resumption. -/
def Code (σ κ ε α : Type) := σ → Resumption σ κ ε α

namespace Code

variable {σ κ ε α β : Type}

instance : Monad (Code σ κ ε) where
  pure a := fun s => .done s a
  bind x f := fun s => (x s).bind f

/-- A computation that touches no storage and makes no call. -/
instance : MonadLift (Except ε) (Code σ κ ε) where
  monadLift
    | .ok a => fun s => .done s a
    | .error e => fun _ => .revert e

/-- Read the whole storage. -/
def sload : Code σ κ ε σ := fun s => .done s s

/-- Write the storage. -/
def sstore (f : σ → σ) : Code σ κ ε Unit := fun s => .done (f s) ()

/-- Make an external call and wait for its return. -/
def externalCall (c : κ) : Code σ κ ε Unit := fun s => .call s c (fun s' => .done s' ())

@[simp] theorem pure_apply (a : α) (s : σ) :
    (pure a : Code σ κ ε α) s = .done s a := rfl

@[simp] theorem bind_apply (x : Code σ κ ε α) (f : α → Code σ κ ε β) (s : σ) :
    (x >>= f) s = (x s).bind fun a s' => f a s' := rfl

@[simp] theorem sload_apply (s : σ) : (sload : Code σ κ ε σ) s = .done s s := rfl

@[simp] theorem sstore_apply (f : σ → σ) (s : σ) :
    (sstore f : Code σ κ ε Unit) s = .done (f s) () := rfl

@[simp] theorem externalCall_apply (c : κ) (s : σ) :
    (externalCall c : Code σ κ ε Unit) s = .call s c (fun s' => .done s' ()) := rfl

@[simp] theorem lift_ok_apply (a : α) (s : σ) :
    (liftM (Except.ok a : Except ε α) : Code σ κ ε α) s = .done s a := rfl

@[simp] theorem lift_error_apply (e : ε) (s : σ) :
    (liftM (Except.error e : Except ε α) : Code σ κ ε α) s = .revert e := rfl

/-- A run past a lifted computation had it succeed. -/
theorem runWith_lift_bind {τ : Type} {callee : κ → τ → Except ε τ} {t : τ} {x : Except ε α} {s : σ}
    {f : α → σ → Resumption σ κ ε β} {r : σ × τ × β} :
    (((liftM x : Code σ κ ε α) s).bind f).runWith callee t = .ok r ↔
      ∃ a, x = .ok a ∧ (f a s).runWith callee t = .ok r := by
  cases x with
  | ok a => simp
  | error e => simp

/-- A lifted branch is a branch of lifted computations. -/
@[simp] theorem lift_ite_apply (p : Prop) [Decidable p] (x y : Except ε α) (s : σ) :
    (liftM (if p then x else y) : Code σ κ ε α) s =
      if p then (liftM x : Code σ κ ε α) s else (liftM y : Code σ κ ε α) s := by
  split <;> rfl

end Code

end Lib
