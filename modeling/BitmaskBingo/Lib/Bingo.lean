/-
  BitmaskBingo.Lib.Bingo

  One game of bingo, for any players, cards, tiles and numbers.  Players pay
  to be dealt cards, members call numbers, a member may cover the tile that
  carries the number called last, and a member with a line of covered tiles
  takes the pot.

  The rules do not say that a line was covered fairly, that there is one
  winner or where the pot comes from.  That is what `run_fair` adds: of every
  play, by induction on its moves.
-/

import BitmaskBingo.Lib.Trace
import Mathlib.Algebra.BigOperators.Group.List.Basic
import Mathlib.Algebra.GroupWithZero.Nat
import Mathlib.Data.Set.Basic

namespace Lib.Bingo

variable {π δ ι ν : Type}

-- ============================================================================
-- The rules
-- ============================================================================

/-- What a game is played with: a dealt card covers the free tiles, a line
    wins, and a number is on at most one tile of a card. -/
structure Rules (δ ι ν : Type) where
  free : Set ι
  lines : Set (Set ι)
  tile? : δ → ν → Option ι

/-- The stage of a game, with the number called last. -/
inductive Stage (ν : Type) where
  | unborn
  | joining
  | drawing (n : ν)
  | finished

/-- Numbers may be called. -/
def Stage.Open : Stage ν → Prop
  | joining | drawing _ => True
  | unborn | finished => False

structure Card (δ ι : Type) where
  deal : δ
  covered : Set ι

structure Table (π δ ι ν : Type) where
  stage : Stage ν
  cards : π → Option (Card δ ι)
  pot : Nat

/-- The table before the game. -/
def Table.empty : Table π δ ι ν := ⟨.unborn, fun _ => none, 0⟩

/-- A player may also be dealt no card at all. -/
inductive Move (π δ ν : Type) where
  | create (p : π) (deal? : Option δ) (fee : Nat)
  | join (p : π) (deal? : Option δ) (fee : Nat)
  | draw (p : π) (n : ν)
  | mark (p : π)
  | claim (p : π) (prize : Nat)

namespace Rules

variable (R : Rules δ ι ν) [DecidableEq π]

def dealt (deal : δ) : Card δ ι := ⟨deal, R.free⟩

/-- One move of one player. -/
inductive Step (t : Table π δ ι ν) : Move π δ ν → Table π δ ι ν → Prop where
  | create {p : π} {deal? : Option δ} {fee : Nat} (hstage : t.stage = .unborn) :
      Step t (.create p deal? fee)
        ⟨.joining, Function.update t.cards p (deal?.map R.dealt), fee⟩
  | join {p : π} {deal? : Option δ} {fee : Nat} (hstage : t.stage ≠ .unborn) :
      Step t (.join p deal? fee)
        ⟨t.stage, Function.update t.cards p (deal?.map R.dealt), t.pot + fee⟩
  | draw {p : π} {c : Card δ ι} {n : ν} (hstage : t.stage.Open) (hcard : t.cards p = some c) :
      Step t (.draw p n) { t with stage := .drawing n }
  | mark {p : π} {c : Card δ ι} {n : ν} {i : ι} (hstage : t.stage = .drawing n)
      (hcard : t.cards p = some c) (htile : R.tile? c.deal n = some i) :
      Step t (.mark p)
        { t with cards := Function.update t.cards p (some ⟨c.deal, insert i c.covered⟩) }
  | claim {p : π} {c : Card δ ι} {line : Set ι} (hstage : t.stage.Open)
      (hcard : t.cards p = some c) (hline : line ∈ R.lines) (hcovered : line ⊆ c.covered) :
      Step t (.claim p t.pot) ⟨.finished, t.cards, 0⟩

end Rules

-- ============================================================================
-- Histories
-- ============================================================================

namespace Move

/-- The player is dealt a new card. -/
def Deals (p : π) : Move π δ ν → Prop
  | create q _ _ | join q _ _ => q = p
  | draw _ _ | mark _ | claim _ _ => False

/-- The number a move calls. -/
def number? : Move π δ ν → Option ν
  | draw _ n => some n
  | create _ _ _ | join _ _ _ | mark _ | claim _ _ => none

def Claims : Move π δ ν → Prop
  | claim _ _ => True
  | create _ _ _ | join _ _ _ | draw _ _ | mark _ => False

def fee : Move π δ ν → Nat
  | create _ _ fee | join _ _ fee => fee
  | draw _ _ | mark _ | claim _ _ => 0

def prize : Move π δ ν → Nat
  | claim _ prize => prize
  | create _ _ _ | join _ _ _ | draw _ _ | mark _ => 0

end Move

section History

variable {l : List (Move π δ ν)} {m : Move π δ ν} {n : ν}

/-- The number called last. -/
def called (l : List (Move π δ ν)) : Option ν :=
  l.foldl (fun last m => m.number?.or last) none

theorem called_concat : called (l ++ [m]) = m.number?.or (called l) := by
  rw [called, List.foldl_append]
  rfl

/-- The last call of a history. -/
theorem exists_call (h : called l = some n) :
    ∃ l₁ p l₂, l = l₁ ++ .draw p n :: l₂ ∧ ∀ m ∈ l₂, m.number? = none := by
  induction l using List.reverseRecOn with
  | nil => cases h
  | append_singleton l m ih =>
      rw [called_concat] at h
      cases hm : m.number? with
      | none =>
          rw [hm, Option.none_or] at h
          obtain ⟨l₁, p, l₂, rfl, hlast⟩ := ih h
          refine ⟨l₁, p, l₂ ++ [m], by rw [List.append_assoc, List.cons_append], ?_⟩
          intro m' hm'
          rcases List.mem_append.mp hm' with hold | hnew
          · exact hlast m' hold
          · rw [List.mem_singleton.mp hnew, hm]
      | some n' =>
          rw [hm, Option.some_or] at h
          cases m with
          | draw p _ =>
              cases hm
              cases h
              exact ⟨l, p, [], rfl, fun _ hm' => by cases hm'⟩
          | create => cases hm
          | join => cases hm
          | mark => cases hm
          | claim => cases hm

end History

-- ============================================================================
-- Fair play
-- ============================================================================

namespace Rules

variable (R : Rules δ ι ν)

/-- The tile was covered in the history: the player marked it while its number
    was the last one called, and was not dealt a card since. -/
def Backed (p : π) (deal : δ) (i : ι) (l : List (Move π δ ν)) : Prop :=
  ∃ l₁ l₂ n, l = l₁ ++ .mark p :: l₂ ∧ called l₁ = some n ∧ R.tile? deal n = some i ∧
    ∀ m ∈ l₂, ¬ m.Deals p

/-- What holds of a table after the history `l`. -/
structure Fair (l : List (Move π δ ν)) (t : Table π δ ι ν) : Prop where
  unborn : t.stage = .unborn → l = []
  last : ∀ n, t.stage = .drawing n → called l = some n
  backed : ∀ p c, t.cards p = some c → ∀ i ∈ c.covered, i ∈ R.free ∨ R.Backed p c.deal i l
  ended : ∀ m ∈ l, m.Claims → t.stage = .finished
  balance : (l.map Move.prize).sum + t.pot = (l.map Move.fee).sum

variable {R} {t t' : Table π δ ι ν} {l l₁ l₂ : List (Move π δ ν)} {m : Move π δ ν} {p q : π}
  {deal : δ} {i : ι}

/-- A tile stays backed as long as the card is not dealt again. -/
theorem Backed.concat (h : R.Backed p deal i l) (hm : ¬ m.Deals p) :
    R.Backed p deal i (l ++ [m]) := by
  obtain ⟨l₁, l₂, n, rfl, hcalled, htile, hsince⟩ := h
  refine ⟨l₁, l₂ ++ [m], n, by rw [List.append_assoc, List.cons_append], hcalled, htile, ?_⟩
  intro m' hm'
  rcases List.mem_append.mp hm' with hold | hnew
  · exact hsince m' hold
  · rw [List.mem_singleton.mp hnew]
    exact hm

theorem Fair.empty : R.Fair [] (Table.empty : Table π δ ι ν) where
  unborn _ := rfl
  last _ h := by cases h
  backed _ _ h := by cases h
  ended _ h := by cases h
  balance := rfl

private theorem sum_concat (f : Move π δ ν → Nat) :
    ((l ++ [m]).map f).sum = (l.map f).sum + f m := by
  rw [List.map_append, List.sum_append, List.map_singleton, List.sum_singleton]

/-- Cards nobody touches stay backed. -/
private theorem Fair.backed_concat (h : R.Fair l t) {c : Card δ ι} (hc : t.cards p = some c)
    (hm : ¬ m.Deals p) : ∀ i ∈ c.covered, i ∈ R.free ∨ R.Backed p c.deal i (l ++ [m]) :=
  fun i hi => (h.backed p c hc i hi).imp_right fun hb => hb.concat hm

/-- Nobody claimed before the game is finished. -/
theorem Fair.unclaimed (h : R.Fair l t) (hstage : t.stage.Open) : ∀ m ∈ l, ¬ m.Claims := by
  intro m hm hclaims
  rw [h.ended m hm hclaims] at hstage
  exact hstage

private theorem ended_concat {s : Stage ν} (h : ∀ m ∈ l, m.Claims → s = .finished)
    (hm : ¬ m.Claims) : ∀ m' ∈ l ++ [m], m'.Claims → s = .finished := by
  intro m' hm' hclaims
  rcases List.mem_append.mp hm' with hold | hnew
  · exact h m' hold hclaims
  · rw [List.mem_singleton.mp hnew] at hclaims
    exact absurd hclaims hm

variable [DecidableEq π]

/-- After a deal every covered tile is free or was backed before. -/
private theorem Fair.backed_dealt (h : R.Fair l t) {deal? : Option δ}
    (hm : ∀ q, m.Deals q → q = p) {c : Card δ ι}
    (hc : Function.update t.cards p (deal?.map R.dealt) q = some c) :
    ∀ i ∈ c.covered, i ∈ R.free ∨ R.Backed q c.deal i (l ++ [m]) := by
  by_cases hq : q = p
  · subst hq
    rw [Function.update_self, Option.map_eq_some_iff] at hc
    obtain ⟨deal, -, rfl⟩ := hc
    exact fun i hi => Or.inl hi
  · rw [Function.update_of_ne hq] at hc
    exact h.backed_concat hc fun hd => hq (hm q hd)

/-- One move keeps play fair. -/
theorem Fair.step (h : R.Fair l t) (hstep : R.Step t m t') : R.Fair (l ++ [m]) t' := by
  have hbalance := h.balance
  cases hstep with
  | @create p deal? fee hstage =>
      have hnil := h.unborn hstage
      subst hnil
      refine ⟨nofun, nofun, ?_, ended_concat nofun nofun, ?_⟩
      · exact fun q c hc => h.backed_dealt (m := .create p deal? fee) (fun _ hd => hd.symm) hc
      · simp [Move.prize, Move.fee]
  | @join p deal? fee hstage =>
      refine ⟨fun hs => absurd hs hstage, ?_, ?_, ended_concat h.ended nofun, ?_⟩
      · intro n hn
        rw [called_concat]
        exact h.last n hn
      · exact fun q c hc => h.backed_dealt (m := .join p deal? fee) (fun _ hd => hd.symm) hc
      · rw [sum_concat, sum_concat]
        show _ + 0 + (t.pot + fee) = _ + fee
        omega
  | @draw p c n hstage hcard =>
      refine ⟨nofun, ?_, ?_, ended_concat ?_ nofun, ?_⟩
      · intro n' hn'
        cases hn'
        rw [called_concat]
        rfl
      · exact fun q c hc => h.backed_concat hc nofun
      · exact fun m hm hclaims => absurd hclaims (h.unclaimed hstage m hm)
      · rw [sum_concat, sum_concat]
        exact hbalance
  | @mark p c n i hstage hcard htile =>
      refine ⟨fun hs => absurd (hstage.symm.trans hs) nofun, ?_, ?_, ended_concat h.ended nofun, ?_⟩
      · intro n' hn'
        rw [called_concat]
        exact h.last n' hn'
      · intro q c' hc'
        have hupdate : Function.update t.cards p (some ⟨c.deal, insert i c.covered⟩) q = some c' :=
          hc'
        by_cases hq : q = p
        · subst hq
          rw [Function.update_self] at hupdate
          cases hupdate
          rintro j (rfl | hj)
          · exact Or.inr ⟨l, [], n, rfl, h.last n hstage, htile, nofun⟩
          · exact h.backed_concat (m := .mark q) hcard id j hj
        · rw [Function.update_of_ne hq] at hupdate
          exact h.backed_concat hupdate fun hd => hd
      · rw [sum_concat, sum_concat]
        exact hbalance
  | @claim p c line hstage hcard hline hcovered =>
      refine ⟨nofun, nofun, ?_, fun _ _ _ => rfl, ?_⟩
      · exact fun q c hc => h.backed_concat hc nofun
      · rw [sum_concat, sum_concat]
        show _ + t.pot + 0 = _ + 0
        omega

end Rules

-- ============================================================================
-- Plays
-- ============================================================================

section Play

variable [DecidableEq π] {R : Rules δ ι ν} {t t' t'' : Table π δ ι ν}
  {l l₁ l₂ : List (Move π δ ν)} {p : π} {prize : Nat}

/-- Every play is fair. -/
theorem run_fair (hrun : Run R.Step Table.empty l t) : R.Fair l t :=
  hrun.invariant (P := R.Fair) Rules.Fair.empty fun _ _ _ _ _ hfair hstep => hfair.step hstep

/-- Once a game is finished, players can only join it. -/
theorem run_finished (hrun : Run R.Step t l t') (hstage : t.stage = .finished) :
    t'.stage = .finished ∧ ∀ m ∈ l, ∃ p deal? fee, m = .join p deal? fee := by
  refine hrun.invariant (P := fun l t => t.stage = .finished ∧
    ∀ m ∈ l, ∃ p deal? fee, m = .join p deal? fee) ⟨hstage, nofun⟩ ?_
  intro k a m b _ hk hstep
  obtain ⟨ha, hall⟩ := hk
  cases hstep with
  | create hunborn =>
      rw [ha] at hunborn
      cases hunborn
  | join =>
      refine ⟨ha, fun m hm => ?_⟩
      rcases List.mem_append.mp hm with hold | hnew
      · exact hall m hold
      · exact ⟨_, _, _, List.mem_singleton.mp hnew⟩
  | draw hopen =>
      rw [ha] at hopen
      exact hopen.elim
  | mark hdrawing =>
      rw [ha] at hdrawing
      cases hdrawing
  | claim hopen =>
      rw [ha] at hopen
      exact hopen.elim

/-- **Claims are fair.**  Whoever claims has a line of free and backed tiles;
    the prize is all that was paid in, and afterwards players can only join. -/
theorem claim_fair (hrun : Run R.Step Table.empty l₁ t) (hstep : R.Step t (.claim p prize) t')
    (hrest : Run R.Step t' l₂ t'') :
    (∃ c, t.cards p = some c ∧ ∃ line ∈ R.lines,
      ∀ i ∈ line, i ∈ R.free ∨ R.Backed p c.deal i l₁) ∧
    prize = (l₁.map Move.fee).sum ∧ ∀ m ∈ l₂, ∃ q deal? fee, m = .join q deal? fee := by
  have hfair := run_fair hrun
  cases hstep with
  | @claim _ c line hstage hcard hline hcovered =>
      have hprizes : (l₁.map Move.prize).sum = 0 := by
        apply List.sum_eq_zero
        intro x hx
        obtain ⟨m, hm, rfl⟩ := List.mem_map.mp hx
        cases m with
        | claim q x => exact absurd trivial (hfair.unclaimed hstage _ hm)
        | create => rfl
        | join => rfl
        | draw => rfl
        | mark => rfl
      refine ⟨⟨c, hcard, line, hline, fun i hi => hfair.backed p c hcard i (hcovered hi)⟩, ?_,
        (run_finished hrest rfl).2⟩
      have hbalance := hfair.balance
      omega

end Play

end Lib.Bingo
