/-
  BitmaskBingo.Lib.Logging

  Contract code that writes a log.  The log is part of what a revert undoes,
  so it is kept beside the storage; the contract itself can only append to
  it.  `Erases` says that logged code does what other code does, apart from
  the log: whoever calls back, and whatever is in the log by then.

  Someone who reads the log replays it, entry by entry, and may check each
  entry against what the entries before it say.
-/

import BitmaskBingo.Lib.Resumption
import BitmaskBingo.Lib.Trace

namespace Lib

/-- A state and the log written since. -/
structure Logged (σ ω : Type) where
  state : σ
  log : List ω

/-- Contract code that may write entries of type `ω`. -/
abbrev LogCode (σ ω κ ε : Type) : Type → Type := Code (Logged σ ω) κ ε

namespace LogCode

variable {σ ω κ ε α β : Type}

def sload : LogCode σ ω κ ε σ := fun s => .done s s.state

def sstore (f : σ → σ) : LogCode σ ω κ ε Unit := fun s => .done ⟨f s.state, s.log⟩ ()

def externalCall (c : κ) : LogCode σ ω κ ε Unit := Code.externalCall c

/-- Append an entry to the log. -/
def emit (x : ω) : LogCode σ ω κ ε Unit := fun s => .done ⟨s.state, s.log ++ [x]⟩ ()

/-- Code that writes no entry. -/
def quietly (x : Code σ κ ε α) : LogCode σ ω κ ε α := fun s => go s.log (x s.state)
where
  go (log : List ω) : Resumption σ κ ε α → Resumption (Logged σ ω) κ ε α
    | .done s a => .done ⟨s, log⟩ a
    | .revert e => .revert e
    | .call s c k => .call ⟨s, log⟩ c fun s' => go s'.log (k s'.state)

@[simp] theorem sload_apply (s : Logged σ ω) :
    (sload : LogCode σ ω κ ε σ) s = .done s s.state := rfl

@[simp] theorem sstore_apply (f : σ → σ) (s : Logged σ ω) :
    (sstore f : LogCode σ ω κ ε Unit) s = .done ⟨f s.state, s.log⟩ () := rfl

@[simp] theorem externalCall_apply (c : κ) (s : Logged σ ω) :
    (externalCall c : LogCode σ ω κ ε Unit) s = .call s c (fun s' => .done s' ()) := rfl

@[simp] theorem emit_apply (x : ω) (s : Logged σ ω) :
    (emit x : LogCode σ ω κ ε Unit) s = .done ⟨s.state, s.log ++ [x]⟩ () := rfl

/-- Quiet code is behind the same checks. -/
theorem quietly_guarded {x : Code σ κ ε α} {s : Logged σ ω} {s' : σ} {a : α} {P : Prop}
    (h : (x s.state).Guarded P (.done s' a)) :
    ((quietly x : LogCode σ ω κ ε α) s).Guarded P (.done ⟨s', s.log⟩ a) := by
  rw [quietly]
  rcases h with ⟨hP, heq⟩ | ⟨hP, e, he⟩
  · exact .pass hP (by rw [heq]; rfl)
  · exact .refuse hP e (by rw [he]; rfl)

end LogCode

-- ============================================================================
-- Erasing the log
-- ============================================================================

variable {σ ω κ ε α β τ : Type}

/-- The logged resumption is the other one, apart from the log. -/
inductive Resumption.Erases : Resumption (Logged σ ω) κ ε α → Resumption σ κ ε α → Prop where
  | done (s : Logged σ ω) (a : α) : Erases (.done s a) (.done s.state a)
  | revert (e : ε) : Erases (.revert e) (.revert e)
  | call (s : Logged σ ω) (c : κ) {k : Logged σ ω → Resumption (Logged σ ω) κ ε α}
      {k' : σ → Resumption σ κ ε α} (h : ∀ s', Erases (k s') (k' s'.state)) :
      Erases (.call s c k) (.call s.state c k')

theorem Resumption.Erases.bind {x : Resumption (Logged σ ω) κ ε α} {y : Resumption σ κ ε α}
    (h : x.Erases y) {f : α → Logged σ ω → Resumption (Logged σ ω) κ ε β}
    {g : α → σ → Resumption σ κ ε β} (hf : ∀ a s, (f a s).Erases (g a s.state)) :
    (x.bind f).Erases (y.bind g) := by
  induction h with
  | done s a => exact hf a s
  | revert e => exact .revert e
  | call s c _ ih => exact .call s c ih

/-- Against a callee that does not call back, both runs end alike. -/
theorem Resumption.Erases.runWith {x : Resumption (Logged σ ω) κ ε α} {y : Resumption σ κ ε α}
    (h : x.Erases y) (callee : κ → τ → Except ε τ) (t : τ) :
    y.runWith callee t
      = (x.runWith callee t).map fun r => (r.1.state, r.2.1, r.2.2) := by
  induction h generalizing t with
  | done s a => rfl
  | revert e => rfl
  | call s c _ ih =>
      cases hc : callee c t with
      | error e => rw [runWith_call_error callee hc, runWith_call_error callee hc, Except.map]
      | ok t' =>
          rw [runWith_call_ok callee hc, runWith_call_ok callee hc]
          exact ih s t'

/-- A run of the logged code, seen without the log. -/
theorem Resumption.Erases.runWith_ok {x : Resumption (Logged σ ω) κ ε α} {y : Resumption σ κ ε α}
    (h : x.Erases y) {callee : κ → τ → Except ε τ} {t t' : τ} {s' : Logged σ ω} {a : α}
    (hrun : x.runWith callee t = .ok (s', t', a)) :
    y.runWith callee t = .ok (s'.state, t', a) := by
  rw [h.runWith, hrun]
  rfl

/-- A run without the log comes from one of the logged code. -/
theorem Resumption.Erases.exists_runWith {x : Resumption (Logged σ ω) κ ε α}
    {y : Resumption σ κ ε α} (h : x.Erases y) {callee : κ → τ → Except ε τ} {t t' : τ} {s' : σ}
    {a : α} (hrun : y.runWith callee t = .ok (s', t', a)) :
    ∃ log, x.runWith callee t = .ok (⟨s', log⟩, t', a) := by
  rw [h.runWith] at hrun
  cases hx : x.runWith callee t with
  | error e =>
      rw [hx] at hrun
      cases hrun
  | ok r =>
      obtain ⟨⟨s₁, log⟩, t₁, a₁⟩ := r
      rw [hx] at hrun
      obtain ⟨rfl, rfl, rfl⟩ : s₁ = s' ∧ t₁ = t' ∧ a₁ = a := by
        simpa [Except.map] using hrun
      exact ⟨log, rfl⟩

/-- The logged code does what the other does, whatever is in the log. -/
def LogCode.Erases (x : LogCode σ ω κ ε α) (y : Code σ κ ε α) : Prop :=
  ∀ s, (x s).Erases (y s.state)

namespace LogCode.Erases

theorem pure (a : α) : Erases (Pure.pure a : LogCode σ ω κ ε α) (Pure.pure a) :=
  fun s => .done s a

theorem bind {x : LogCode σ ω κ ε α} {y : Code σ κ ε α} {f : α → LogCode σ ω κ ε β}
    {g : α → Code σ κ ε β} (h : x.Erases y) (hf : ∀ a, (f a).Erases (g a)) :
    Erases (x >>= f) (y >>= g) :=
  fun s => (h s).bind fun a s' => hf a s'

theorem lift (x : Except ε α) :
    Erases (liftM x : LogCode σ ω κ ε α) (liftM x : Code σ κ ε α) := by
  intro s
  cases x with
  | ok a => exact .done s a
  | error e => exact .revert e

theorem sload : Erases (LogCode.sload : LogCode σ ω κ ε σ) Code.sload := fun s => .done s s.state

theorem sstore (f : σ → σ) :
    Erases (LogCode.sstore f : LogCode σ ω κ ε Unit) (Code.sstore f) :=
  fun s => .done ⟨f s.state, s.log⟩ ()

theorem externalCall (c : κ) :
    Erases (LogCode.externalCall c : LogCode σ ω κ ε Unit) (Code.externalCall c) :=
  fun s => .call s c fun s' => .done s' ()

/-- What is emitted leaves no trace. -/
theorem emit {x : ω} {f : Unit → LogCode σ ω κ ε β} {y : Code σ κ ε β} (h : (f ()).Erases y) :
    Erases (LogCode.emit x >>= f) y := fun s => h ⟨s.state, s.log ++ [x]⟩

/-- Code that ends with an event. -/
theorem then_emit {x : LogCode σ ω κ ε Unit} {y : Code σ κ ε Unit} {e : ω} (h : x.Erases y) :
    Erases (x >>= fun _ => LogCode.emit e) y := by
  have hgo : ∀ {r : Resumption (Logged σ ω) κ ε Unit} {r' : Resumption σ κ ε Unit},
      r.Erases r' → (r.bind fun _ => LogCode.emit e).Erases r' := by
    intro r r' hr
    induction hr with
    | done s a => exact .done ⟨s.state, s.log ++ [e]⟩ ()
    | revert err => exact .revert err
    | call s c _ ih => exact .call s c ih
  exact fun s => hgo (h s)

theorem quietly (x : Code σ κ ε α) : Erases (LogCode.quietly x : LogCode σ ω κ ε α) x := by
  have hgo : ∀ (r : Resumption σ κ ε α) (log : List ω), (quietly.go log r).Erases r := by
    intro r
    induction r with
    | done s a => exact fun log => .done ⟨s, log⟩ a
    | revert e => exact fun _ => .revert e
    | call s c k ih => exact fun log => .call ⟨s, log⟩ c fun s' => ih s'.state s'.log
  exact fun s => hgo (x s.state) s.log

end LogCode.Erases

-- ============================================================================
-- Reading a log
-- ============================================================================

/-- Replay a log and check each entry against the state replayed so far. -/
def audit {ν : Type} (replay : ν → ω → ν) (check : ν → ω → Bool) (s : ν) : List ω → Bool
  | [] => true
  | x :: xs => check s x && audit replay check (replay s x) xs

theorem audit_append {ν : Type} {replay : ν → ω → ν} {check : ν → ω → Bool} {s : ν}
    {l l' : List ω} : audit replay check s (l ++ l') = true ↔
      audit replay check s l = true ∧ audit replay check (l.foldl replay s) l' = true := by
  induction l generalizing s with
  | nil => simp [audit]
  | cons x xs ih => simp only [List.cons_append, audit, Bool.and_eq_true, ih, List.foldl_cons,
      and_assoc]

/-- An entry that passes after a log that passes. -/
theorem audit_concat {ν : Type} {replay : ν → ω → ν} {check : ν → ω → Bool} {s : ν}
    {l : List ω} {x : ω} (h : audit replay check s l = true)
    (hx : check (l.foldl replay s) x = true) : audit replay check s (l ++ [x]) = true :=
  audit_append.mpr ⟨h, by rw [audit, hx, audit, Bool.true_and]⟩

namespace Run

variable {ν : Type} {step : σ → τ → σ → Prop} {s s' : σ} {l : List τ} {see : σ → ν}
  {record : τ → ω} {replay : ν → ω → ν} {check : ν → ω → Bool}

/-- When the record of a step says what changed of what can be seen, the
    records of a run do. -/
theorem replays (h : Run step s l s')
    (hstep : ∀ a e b, step a e b → replay (see a) (record e) = see b) :
    (l.map record).foldl replay (see s) = see s' := by
  induction h with
  | nil => rfl
  | snoc _ he ih =>
      rw [List.map_append, List.foldl_append, ih]
      exact hstep _ _ _ he

/-- When the record of a step agrees with what can be seen before it, the
    records of a run pass the audit. -/
theorem audits (h : Run step s l s')
    (hstep : ∀ a e b, step a e b → replay (see a) (record e) = see b)
    (hcheck : ∀ k a e b, Run step s k a → step a e b → check (see a) (record e) = true) :
    audit replay check (see s) (l.map record) = true := by
  induction h with
  | nil => rfl
  | snoc hrun he ih =>
      rw [List.map_append, List.map_singleton]
      refine audit_concat ih ?_
      rw [hrun.replays hstep]
      exact hcheck _ _ _ _ hrun he

end Run

end Lib
