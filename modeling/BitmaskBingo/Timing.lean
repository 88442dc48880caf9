/-
  BitmaskBingo.Timing

  How early a game can pay out.  Every draw waits for the joining window and
  for the turn before it, so the draws of a game are spread out over time; a
  winning line stems from four draws with different numbers.
-/

import BitmaskBingo.Hits

namespace BitmaskBingo

open Lib StorageUtils

variable {T : Token} {d : Deployment} {t₀ : T.State} {l : List (Step T)} {w w' : World T}
  {e : Step T} {p : Address} {g : Bytes32} {D J : Nat}

-- ============================================================================
-- The clock of the draws
-- ============================================================================

/-- The delay between the creation of a game and its `n`-th draw, for a join
    duration `J` and a turn duration `D`. -/
def drawDelay (D J : Nat) : Nat → Nat
  | 0 => 0
  | n + 1 => max J D + 1 + n * (D + 1)

/-- The settings in force when the step was taken are at least `D` and `J`. -/
def Step.InForce (D J : Nat) (e : Step T) : Prop :=
  D ≤ e.pre.game.gameSettings.minimumTurnDuration.toNat ∧
    J ≤ e.pre.game.gameSettings.minimumJoinDuration.toNat

instance (e : Step T) : Decidable (e.InForce D J) := inferInstanceAs (Decidable (_ ∧ _))

/-- The clock of game `g` after the history `l`. -/
structure ClockInv (D J : Nat) (g : Bytes32) (l : List (Step T)) (s : Storage) : Prop where
  undrawn : (s.gameRegistry g).createdAt = 0 → l.countP (fun e => e.draws g) = 0
  spread : (s.gameRegistry g).createdAt.toNat + drawDelay D J (l.countP fun e => e.draws g)
    ≤ (s.gameRegistry g).lastDrawnAt.toNat
  recorded : (s.gameRegistry g).createdAt ≠ 0 →
    ∃ e ∈ l, (s.gameRegistry g).lastDrawnAt.toNat = e.time

theorem countP_draws_concat :
    (l ++ [e]).countP (fun e => e.draws g)
      = l.countP (fun e => e.draws g) + if e.draws g then 1 else 0 := by
  rw [List.countP_append, List.countP_singleton]
  simp

/-- A draw happens a turn after everything before it. -/
theorem ClockInv.next {s : Storage} {time : Uint256} (h : ClockInv D J g l s)
    (hopen : s.DrawOpen time g) (hD : D ≤ s.gameSettings.minimumTurnDuration.toNat)
    (hJ : J ≤ s.gameSettings.minimumJoinDuration.toNat) :
    (s.gameRegistry g).createdAt.toNat + drawDelay D J ((l.countP fun e => e.draws g) + 1)
      ≤ time.toNat := by
  have hjoined := hopen.joined
  have hturned := hopen.turned
  have hspread := h.spread
  cases hn : l.countP fun e => e.draws g with
  | zero =>
      rw [hn] at hspread
      simp only [drawDelay] at hspread ⊢
      omega
  | succ n =>
      rw [hn] at hspread
      simp only [drawDelay] at hspread ⊢
      rw [Nat.succ_mul]
      omega

theorem Steps.clockInv (h : Steps d w e w') (hinv : ClockInv D J g l w.game) (hte : e.ValidTime)
    (hforce : e.InForce D J) : ClockInv D J g (l ++ [e]) w'.game := by
  have hlast : e ∈ l ++ [e] := List.mem_append_right _ (List.mem_singleton_self e)
  have htime : (uint64 e.block.timestamp).toNat = e.time := uint64_toNat_of_lt hte.2
  have hrecorded : (w.game.gameRegistry g).createdAt ≠ 0 →
      ∃ e' ∈ l ++ [e], (w.game.gameRegistry g).lastDrawnAt.toNat = e'.time := by
    intro hex
    obtain ⟨e', he', hat⟩ := hinv.recorded hex
    exact ⟨e', List.mem_append_left _ he', hat⟩
  have hrec := h.record g
  rw [Step.InForce, h.1] at hforce
  generalize w'.game = s' at hrec
  generalize hr : s'.gameRegistry g = r at hrec
  refine ⟨?_, ?_, ?_⟩
  all_goals first | rw [countP_draws_concat, hr] | rw [hr]
  · intro hzero
    cases hrec with
    | same _ _ hd => rw [if_neg hd, hinv.undrawn hzero]
    | created he hnew => rw [if_neg fun hd => hd.not_enters (Or.inl he), hinv.undrawn hnew]
    | joined he hopen hpot => exact absurd hzero hopen.exists_
    | drawn he hplayer hopen => exact absurd hzero hplayer.exists_
    | claimed he hplayer hwin => exact absurd hzero hplayer.exists_
  · cases hrec with
    | same _ _ hd =>
        rw [if_neg hd]
        exact hinv.spread
    | created he hnew =>
        rw [if_neg fun hd => hd.not_enters (Or.inl he), hinv.undrawn hnew]
        exact Nat.le_refl _
    | joined he hopen hpot =>
        rw [if_neg fun hd => hd.not_enters (Or.inr he)]
        exact hinv.spread
    | drawn he hplayer hopen =>
        rw [if_pos he]
        show (w.game.gameRegistry g).createdAt.toNat + _ ≤ (uint64 e.block.timestamp).toNat
        rw [htime]
        exact hinv.next hopen hforce.1 hforce.2
    | claimed he hplayer hwin =>
        rw [if_neg he.not_draws]
        exact hinv.spread
  · intro hex
    cases hrec with
    | same => exact hrecorded hex
    | created => exact ⟨e, hlast, htime⟩
    | joined he hopen hpot => exact hrecorded hex
    | drawn => exact ⟨e, hlast, htime⟩
    | claimed he hplayer hwin => exact hrecorded hex

theorem run_clockInv (hrun : WorldRun d (World.initial t₀) l w) (ht : ∀ e ∈ l, e.ValidTime)
    (hforce : ∀ e ∈ l, e.InForce D J) (g : Bytes32) : ClockInv D J g l w.game := by
  refine hrun.invariant_of (P := fun l w => ClockInv D J g l w.game)
    (Q := fun e => e.ValidTime ∧ e.InForce D J) (fun e he => ⟨ht e he, hforce e he⟩) ?_
    fun _ _ _ _ _ _ hinv hq hstep => hstep.clockInv hinv hq.1 hq.2
  exact ⟨fun _ => rfl, Nat.le_refl _, fun hex => absurd rfl hex⟩

-- ============================================================================
-- Four draws
-- ============================================================================

/-- Backed tiles of a card with the same number are the same tile. -/
theorem Backed.tile_eq {card : Uint256} {i j : Nat} (hi : Backed p g card i l)
    (hj : Backed p g card j l) (hij : bucket card i = bucket card j) : i = j := by
  obtain ⟨_, _, _, _, hmi⟩ := hi
  obtain ⟨_, _, _, _, hmj⟩ := hj
  rw [← hmi.first, hij, hmj.first]

/-- A backed tile carries a drawn number. -/
theorem Backed.mem_drawnNumbers {card : Uint256} {i : Nat} (h : Backed p g card i l) :
    bucket card i ∈ drawnNumbers g l := by
  obtain ⟨l₁, m, l₂, rfl, hm⟩ := h
  rw [drawnNumbers, List.filter_append, List.map_append]
  exact List.mem_append_left _ hm.drawn_before

/-- A claim comes after draws of four different numbers. -/
theorem claims_four (hrun : WorldRun d (World.initial t₀) l w) (hstep : Steps d w e w')
    (he : e.claims g) :
    ∃ ns : List Nat, ns.length = 4 ∧ ns.Nodup ∧ ∀ n ∈ ns, n ∈ drawnNumbers g l := by
  obtain ⟨ℓ, -, hbacked⟩ := claims_line hrun hstep he
  obtain ⟨ks, hlen, hnodup, hcentre⟩ := ℓ.four_tiles
  refine ⟨ks.map fun k => bucket (w.game.playerRegistry e.sender g).numberStorage (ℓ.tile k),
    ?_, ?_, ?_⟩
  · rw [List.length_map, hlen]
  · refine hnodup.map_on fun j hj k hk hjk => ?_
    exact ℓ.tile_injective
      ((hbacked j (hcentre j hj)).tile_eq (hbacked k (hcentre k hk)) hjk)
  · intro n hn
    obtain ⟨k, hk, rfl⟩ := List.mem_map.mp hn
    exact (hbacked k (hcentre k hk)).mem_drawnNumbers

/-- Different numbers come from different draws. -/
theorem length_le_countP_draws {ns : List Nat} (hnodup : ns.Nodup)
    (hmem : ∀ n ∈ ns, n ∈ drawnNumbers g l) :
    ns.length ≤ l.countP fun e => e.draws g := by
  rw [← drawnNumbers_length]
  exact (hnodup.subperm hmem).length_le

/-- The delays grow with the number of draws. -/
theorem drawDelay_mono {m n : Nat} (h : m ≤ n) : drawDelay D J m ≤ drawDelay D J n := by
  cases m with
  | zero => exact Nat.zero_le _
  | succ m =>
      cases n with
      | zero => omega
      | succ n =>
          have hmul : m * (D + 1) ≤ n * (D + 1) := Nat.mul_le_mul_right _ (by omega)
          simp only [drawDelay]
          omega

-- ============================================================================
-- The earliest payout
-- ============================================================================

/-- **Earliest payout.** -/
theorem earliest_payout (hrun : WorldRun d (World.initial t₀) l w) (ht : ∀ e ∈ l, e.ValidTime)
    (hmono : NonDecreasing l) (hforce : ∀ e ∈ l, e.InForce D J) (g : Bytes32) :
    (∀ l₁ e l₂, l = l₁ ++ e :: l₂ → e.draws g →
      (e.pre.game.gameRegistry g).createdAt.toNat + max J D + 1
        + (l₁.countP fun e => e.draws g) * (D + 1) ≤ e.time) ∧
    (∀ l₁ e l₂, l = l₁ ++ e :: l₂ → e.claims g →
      (∃ ns : List Nat, ns.length = 4 ∧ ns.Nodup ∧ ∀ n ∈ ns, n ∈ drawnNumbers g l₁) ∧
      (e.pre.game.gameRegistry g).createdAt.toNat + max J D + 1 + 3 * (D + 1) ≤ e.time) := by
  have hat : ∀ {l₁ e l₂}, l = l₁ ++ e :: l₂ → ∃ b, WorldRun d (World.initial t₀) l₁ e.pre ∧
      Steps d e.pre e b ∧ ClockInv D J g l₁ e.pre.game ∧ e.InForce D J ∧
      ∀ e' ∈ l₁, e'.time ≤ e.time := by
    rintro l₁ e l₂ rfl
    obtain ⟨a, b, hrun₁, hstep, -⟩ := hrun.split_at
    obtain rfl : e.pre = a := hstep.1
    have hclock := run_clockInv hrun₁ (List.forall_mem_append.mp ht).1
      (List.forall_mem_append.mp hforce).1 g
    have hlate : ∀ e' ∈ l₁, e'.time ≤ e.time := fun e' he' =>
      (List.pairwise_append.mp hmono).2.2 e' he' e (List.mem_cons_self ..)
    exact ⟨b, hrun₁, hstep, hclock, hforce e (by simp), hlate⟩
  refine ⟨fun l₁ e l₂ hl he => ?_, fun l₁ e l₂ hl he => ?_⟩
  · obtain ⟨b, -, hstep, hclock, hin, -⟩ := hat hl
    have hnext := hclock.next (hstep.of_draws he).2 hin.1 hin.2
    simp only [drawDelay] at hnext
    show _ ≤ e.block.timestamp.toNat
    omega
  · obtain ⟨b, hrun₁, hstep, hclock, -, hlate⟩ := hat hl
    obtain ⟨ns, hlen, hnodup, hmem⟩ := claims_four hrun₁ hstep he
    refine ⟨⟨ns, hlen, hnodup, hmem⟩, ?_⟩
    have hfour : 4 ≤ l₁.countP fun e => e.draws g := by
      rw [← hlen]
      exact length_le_countP_draws hnodup hmem
    have hdelay : drawDelay D J 4 ≤ drawDelay D J (l₁.countP fun e => e.draws g) :=
      drawDelay_mono hfour
    have hspread := hclock.spread
    have hex : (e.pre.game.gameRegistry g).createdAt ≠ 0 := by
      intro hzero
      have hnone := hclock.undrawn hzero
      omega
    obtain ⟨e', he', hlast⟩ := hclock.recorded hex
    have hbefore := hlate e' he'
    rw [show drawDelay D J 4 = max J D + 1 + 3 * (D + 1) from rfl] at hdelay
    omega

theorem earliest_payout_sample :
    (Sample.played 15).1.length = 15 ∧
    ∀ l₁ e l₂, (Sample.played 15).1 = l₁ ++ e :: l₂ → e.draws Sample.gameId →
      (e.pre.game.gameRegistry Sample.gameId).createdAt.toNat + max 3600 300 + 1
        + (l₁.countP fun e => e.draws Sample.gameId) * (300 + 1) ≤ e.time :=
  ⟨by decide +kernel,
    (earliest_payout (Sample.played_run 15) (by decide +kernel) (by decide +kernel)
      (by decide +kernel) Sample.gameId).1⟩

end BitmaskBingo
