/-
  BitmaskBingo.Lib.CallStack

  A contract among foreign code that calls back.  Whenever a function of the
  contract makes an external call, control is with foreign code, which may
  enter the contract again, as often and as deep as it likes, and return or
  revert at any time.  What a reverted call has done is undone, the calls
  nested in it included.

  `RelyGuarantee` is the rule to reason about it.  Each function is described
  segment by segment, from the time it gets control to the time it hands it
  on; the part after a call may rely on what every segment guarantees.
  `RelyGuarantee.history` then says that any nesting of calls amounts to a
  plain run of segments, one after another, those that were undone left out.
-/

import BitmaskBingo.Lib.Resumption
import BitmaskBingo.Lib.Trace

namespace Lib

/-- What a function does between two changes of control: which call runs it,
    the external call it resumes from, the storage it finds and leaves, and
    the external call or the result it ends with. -/
structure Segment (η σ κ α : Type) where
  entry : η
  resumed : Option κ
  before : σ
  after : σ
  outcome : κ ⊕ α

/-- A storage and the segments that led to it. -/
structure Snapshot (η σ κ α : Type) where
  storage : σ
  log : List (Segment η σ κ α)

/-- A frame of the call stack holds what a revert goes back to.  A frame of
    the contract also waits for its external call. -/
inductive Frame (η σ κ ε α : Type) where
  | own (entry : η) (saved : Snapshot η σ κ α) (pending : κ) (resume : σ → Resumption σ κ ε α)
  | foreign (saved : Snapshot η σ κ α)

structure Config (η σ κ ε α : Type) where
  now : Snapshot η σ κ α
  stack : List (Frame η σ κ ε α)

/-- What can happen next: foreign code enters the contract, returns to it or
    reverts under it; or it calls other foreign code, which returns or
    reverts. -/
inductive Act (η : Type) where
  | enter (e : η)
  | resume
  | refuse
  | spawn
  | commit
  | rollback

/-- The act enters the contract with an allowed call, if at all. -/
def Act.Enters {η : Type} (Allowed : η → Prop) : Act η → Prop
  | .enter e => Allowed e
  | _ => True

instance {η : Type} (Allowed : η → Prop) [DecidablePred Allowed] :
    DecidablePred (Act.Enters Allowed)
  | .enter e => inferInstanceAs (Decidable (Allowed e))
  | .resume | .refuse | .spawn | .commit | .rollback => inferInstanceAs (Decidable True)

variable {η σ κ ε α : Type}

namespace Config

/-- Nothing has happened yet. -/
def initial (s : σ) : Config η σ κ ε α := ⟨⟨s, []⟩, []⟩

/-- Code of call `e` gets control in a snapshot; a revert goes back to
    another. -/
def proceed (e : η) (resumed : Option κ) (saved now : Snapshot η σ κ α)
    (stack : List (Frame η σ κ ε α)) : Resumption σ κ ε α → Config η σ κ ε α
  | .done s a => ⟨⟨s, now.log ++ [⟨e, resumed, now.storage, s, .inr a⟩]⟩, stack⟩
  | .revert _ => ⟨saved, stack⟩
  | .call s c k =>
      ⟨⟨s, now.log ++ [⟨e, resumed, now.storage, s, .inl c⟩]⟩, .own e saved c k :: stack⟩

/-- Only the foreign code in control can return or revert. -/
def act (code : η → Code σ κ ε α) (c : Config η σ κ ε α) : Act η → Option (Config η σ κ ε α)
  | .enter e => some (proceed e none c.now c.now c.stack (code e c.now.storage))
  | .resume =>
      match c.stack with
      | .own e saved pending k :: rest =>
          some (proceed e (some pending) saved c.now rest (k c.now.storage))
      | _ => none
  | .refuse =>
      match c.stack with
      | .own _ saved _ _ :: rest => some ⟨saved, rest⟩
      | _ => none
  | .spawn => some ⟨c.now, .foreign c.now :: c.stack⟩
  | .commit =>
      match c.stack with
      | .foreign _ :: rest => some ⟨c.now, rest⟩
      | _ => none
  | .rollback =>
      match c.stack with
      | .foreign saved :: rest => some ⟨saved, rest⟩
      | _ => none

def Acts (code : η → Code σ κ ε α) (c : Config η σ κ ε α) (a : Act η) (c' : Config η σ κ ε α) :
    Prop := c.act code a = some c'

/-- Perform acts one after another, those that are possible. -/
def play (code : η → Code σ κ ε α) (c : Config η σ κ ε α) :
    List (Act η) → List (Act η) × Config η σ κ ε α
  | [] => ([], c)
  | a :: as =>
      match c.act code a with
      | none => c.play code as
      | some c' =>
          let (l, c'') := c'.play code as
          (a :: l, c'')

theorem play_run (code : η → Code σ κ ε α) (c : Config η σ κ ε α) (as : List (Act η)) :
    Run (Acts code) c (c.play code as).1 (c.play code as).2 := by
  induction as generalizing c with
  | nil => exact .nil
  | cons a as ih =>
      rw [play]
      cases h : c.act code a with
      | none => exact ih c
      | some c' => exact Run.cons h (ih c')

end Config

-- ============================================================================
-- Rely and guarantee
-- ============================================================================

/-- Code in control leaves segments as described, now and whenever it is
    resumed, if the storage it is resumed with is related by `Rely` to the one
    it left. -/
def Resumption.Safe (Rely : σ → σ → Prop) (Describes : Segment η σ κ α → Prop) (e : η) :
    Option κ → σ → Resumption σ κ ε α → Prop
  | resumed, s, .done s' a => Describes ⟨e, resumed, s, s', .inr a⟩
  | _, _, .revert _ => True
  | resumed, s, .call s' c k =>
      Describes ⟨e, resumed, s, s', .inl c⟩ ∧
        ∀ s'', Rely s' s'' → Safe Rely Describes e (some c) s'' (k s'')

variable {Rely : σ → σ → Prop} {Describes : Segment η σ κ α → Prop} {Allowed : η → Prop}

/-- Code behind checks is safe when it is safe past them. -/
theorem Resumption.Guarded.safe {r r' : Resumption σ κ ε α} {P : Prop} {e : η}
    {resumed : Option κ} {s : σ} (h : r.Guarded P r')
    (hsafe : P → r'.Safe Rely Describes e resumed s) : r.Safe Rely Describes e resumed s := by
  rcases h with ⟨hP, rfl⟩ | ⟨_, _, rfl⟩
  · exact hsafe hP
  · trivial

/-- Two descriptions of the same code. -/
theorem Resumption.Safe.and {Describes' : Segment η σ κ α → Prop} {e : η} {resumed : Option κ}
    {s : σ} {r : Resumption σ κ ε α} (h : r.Safe Rely Describes e resumed s)
    (h' : r.Safe Rely Describes' e resumed s) :
    r.Safe Rely (fun seg => Describes seg ∧ Describes' seg) e resumed s := by
  induction r generalizing resumed s with
  | done s a => exact ⟨h, h'⟩
  | revert e => trivial
  | call s c k ih => exact ⟨⟨h.1, h'.1⟩, fun s' hs => ih s' (h.2 s' hs) (h'.2 s' hs)⟩

/-- What holds of every segment of a call describes its code. -/
theorem Resumption.Safe.of_forall {e : η} (h : ∀ seg, seg.entry = e → Describes seg)
    {resumed : Option κ} {s : σ} (r : Resumption σ κ ε α) :
    r.Safe Rely Describes e resumed s := by
  induction r generalizing resumed s with
  | done s a => exact h _ rfl
  | revert e => trivial
  | call s c k ih => exact ⟨h _ rfl, fun s' _ => ih s'⟩

/-- One segment as a transition of the storage. -/
def SegmentStep (Describes : Segment η σ κ α → Prop) (s : σ) (seg : Segment η σ κ α) (s' : σ) :
    Prop := seg.before = s ∧ seg.after = s' ∧ Describes seg

/-- The log of a snapshot is a run of segments. -/
def Snapshot.IsRun (Describes : Segment η σ κ α → Prop) (s₀ : σ) (n : Snapshot η σ κ α) : Prop :=
  Run (SegmentStep Describes) s₀ n.log n.storage

theorem Snapshot.IsRun.extend {s₀ s : σ} {n : Snapshot η σ κ α} {seg : Segment η σ κ α}
    (h : n.IsRun Describes s₀) (hbefore : seg.before = n.storage) (hafter : seg.after = s)
    (hseg : Describes seg) : Snapshot.IsRun Describes s₀ ⟨s, n.log ++ [seg]⟩ :=
  Run.snoc h ⟨hbefore, hafter, hseg⟩

/-- The frames below control: each can be reverted and resumed. -/
inductive StackOk (Rely : σ → σ → Prop) (Describes : Segment η σ κ α → Prop) (s₀ : σ) :
    σ → List (Frame η σ κ ε α) → Prop where
  | nil {s : σ} : StackOk Rely Describes s₀ s []
  | own {s : σ} {e : η} {saved : Snapshot η σ κ α} {c : κ} {k : σ → Resumption σ κ ε α}
      {rest : List (Frame η σ κ ε α)}
      (hsaved : saved.IsRun Describes s₀) (hrely : Rely saved.storage s)
      (hresume : ∀ s', Rely s s' → (k s').Safe Rely Describes e (some c) s')
      (hrest : StackOk Rely Describes s₀ saved.storage rest) :
      StackOk Rely Describes s₀ s (.own e saved c k :: rest)
  | foreign {s : σ} {saved : Snapshot η σ κ α} {rest : List (Frame η σ κ ε α)}
      (hsaved : saved.IsRun Describes s₀) (hrely : Rely saved.storage s)
      (hrest : StackOk Rely Describes s₀ saved.storage rest) :
      StackOk Rely Describes s₀ s (.foreign saved :: rest)

/-- The rule: every segment guarantees what the resumed code relies on, and
    every allowed call is safe under that. -/
structure RelyGuarantee (code : η → Code σ κ ε α) (Allowed : η → Prop) (Rely : σ → σ → Prop)
    (Describes : Segment η σ κ α → Prop) : Prop where
  refl : ∀ s, Rely s s
  trans : ∀ a b c, Rely a b → Rely b c → Rely a c
  guarantee : ∀ seg, Describes seg → Rely seg.before seg.after
  safe : ∀ e s, Allowed e → (code e s).Safe Rely Describes e none s

namespace RelyGuarantee

variable {code : η → Code σ κ ε α} {s₀ : σ}

/-- A second description can use what the first one guarantees. -/
theorem and {Describes' : Segment η σ κ α → Prop}
    (h : RelyGuarantee code Allowed Rely Describes)
    (hsafe : ∀ e s, Allowed e → (code e s).Safe Rely Describes' e none s) :
    RelyGuarantee code Allowed Rely (fun seg => Describes seg ∧ Describes' seg) where
  refl := h.refl
  trans := h.trans
  guarantee seg hseg := h.guarantee seg hseg.1
  safe e s he := (h.safe e s he).and (hsafe e s he)

/-- What a frame relied on, it can go on relying on. -/
theorem stackOk_mono (h : RelyGuarantee code Allowed Rely Describes) {s s' : σ}
    {stack : List (Frame η σ κ ε α)} (hrely : Rely s s')
    (hstack : StackOk Rely Describes s₀ s stack) : StackOk Rely Describes s₀ s' stack := by
  cases hstack with
  | nil => exact .nil
  | own hsaved hs hresume hrest =>
      exact .own hsaved (h.trans _ _ _ hs hrely)
        (fun s'' hs'' => hresume s'' (h.trans _ _ _ hrely hs'')) hrest
  | foreign hsaved hs hrest => exact .foreign hsaved (h.trans _ _ _ hs hrely) hrest

/-- Safe code that gets control leaves a good configuration. -/
theorem proceed_ok (h : RelyGuarantee code Allowed Rely Describes) {e : η} {resumed : Option κ}
    {saved now : Snapshot η σ κ α} {stack : List (Frame η σ κ ε α)} {r : Resumption σ κ ε α}
    (hsaved : saved.IsRun Describes s₀) (hnow : now.IsRun Describes s₀)
    (hrely : Rely saved.storage now.storage)
    (hstack : StackOk Rely Describes s₀ saved.storage stack)
    (hsafe : r.Safe Rely Describes e resumed now.storage) :
    (Config.proceed e resumed saved now stack r).now.IsRun Describes s₀ ∧
      StackOk Rely Describes s₀ (Config.proceed e resumed saved now stack r).now.storage
        (Config.proceed e resumed saved now stack r).stack := by
  cases r with
  | done s a =>
      have hseg : Rely now.storage s := h.guarantee _ hsafe
      exact ⟨hnow.extend rfl rfl hsafe, h.stackOk_mono (h.trans _ _ _ hrely hseg) hstack⟩
  | revert _ => exact ⟨hsaved, hstack⟩
  | call s c k =>
      obtain ⟨hdescribes, hresume⟩ := hsafe
      have hseg : Rely now.storage s := h.guarantee _ hdescribes
      exact ⟨hnow.extend rfl rfl hdescribes,
        .own hsaved (h.trans _ _ _ hrely hseg) hresume hstack⟩

/-- One act keeps the configuration good. -/
theorem act_ok (h : RelyGuarantee code Allowed Rely Describes) {c c' : Config η σ κ ε α}
    {a : Act η} (ha : a.Enters Allowed) (hact : Config.Acts code c a c')
    (hnow : c.now.IsRun Describes s₀) (hstack : StackOk Rely Describes s₀ c.now.storage c.stack) :
    c'.now.IsRun Describes s₀ ∧ StackOk Rely Describes s₀ c'.now.storage c'.stack := by
  obtain ⟨now, stack⟩ := c
  rw [Config.Acts] at hact
  cases a with
  | enter e =>
      obtain rfl := Option.some.inj hact
      exact h.proceed_ok hnow hnow (h.refl _) hstack (h.safe e _ ha)
  | spawn =>
      obtain rfl := Option.some.inj hact
      exact ⟨hnow, .foreign hnow (h.refl _) hstack⟩
  | resume =>
      cases hstack with
      | nil => cases hact
      | foreign => cases hact
      | own hsaved hrely hresume hrest =>
          obtain rfl := Option.some.inj hact
          exact h.proceed_ok hsaved hnow hrely hrest (hresume _ (h.refl _))
  | refuse =>
      cases hstack with
      | nil => cases hact
      | foreign => cases hact
      | own hsaved _ _ hrest =>
          obtain rfl := Option.some.inj hact
          exact ⟨hsaved, hrest⟩
  | commit =>
      cases hstack with
      | nil => cases hact
      | own => cases hact
      | foreign _ hrely hrest =>
          obtain rfl := Option.some.inj hact
          exact ⟨hnow, h.stackOk_mono hrely hrest⟩
  | rollback =>
      cases hstack with
      | nil => cases hact
      | own => cases hact
      | foreign hsaved _ hrest =>
          obtain rfl := Option.some.inj hact
          exact ⟨hsaved, hrest⟩

/-- **Nested calls amount to a run of segments.**  In every configuration that
    calls, callbacks, returns and reverts can lead to, the storage is the
    outcome of the segments still in effect, each as described. -/
theorem history (h : RelyGuarantee code Allowed Rely Describes) {acts : List (Act η)}
    {c : Config η σ κ ε α} (hrun : Run (Config.Acts code) (Config.initial s₀) acts c)
    (hacts : ∀ a ∈ acts, a.Enters Allowed) :
    Run (SegmentStep Describes) s₀ c.now.log c.now.storage := by
  have hok : c.now.IsRun Describes s₀ ∧ StackOk Rely Describes s₀ c.now.storage c.stack := by
    refine hrun.invariant_of (P := fun _ c => c.now.IsRun Describes s₀ ∧
      StackOk Rely Describes s₀ c.now.storage c.stack) hacts ⟨Run.nil, .nil⟩ ?_
    intro k c₁ a c₂ _ _ hc ha hact
    exact h.act_ok ha hact hc.1 hc.2
  exact hok.1

end RelyGuarantee

end Lib
