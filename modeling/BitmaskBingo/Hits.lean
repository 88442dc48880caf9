/-
  BitmaskBingo.Hits

  Where hits come from.  Every set bit of a card other than the centre was set
  by a mark since the card was dealt, made while the number on that tile was
  the last one drawn in the same game.  As a mark sets the first tile with the
  number, different bits stem from different numbers, and a winning line from
  at least four draws.
-/

import BitmaskBingo.LifeCycle

namespace BitmaskBingo

open Lib StorageUtils

variable {T : Token} {d : Deployment} {t₀ : T.State} {l : List (Step T)} {w w' : World T}
  {e : Step T} {p : Address} {g : Bytes32}

-- ============================================================================
-- The numbers drawn in a game
-- ============================================================================

/-- The results of the draws of game `g`, in their order. -/
def drawnNumbers (g : Bytes32) (l : List (Step T)) : List Nat :=
  (l.filter fun e => e.draws g).map fun e => (e.post.game.gameRegistry g).lastDrawnNumber.toNat

theorem drawnNumbers_concat :
    drawnNumbers g (l ++ [e]) = drawnNumbers g l ++
      if e.draws g then [(e.post.game.gameRegistry g).lastDrawnNumber.toNat] else [] := by
  by_cases he : e.draws g
  · simp [drawnNumbers, he]
  · simp [drawnNumbers, he]

theorem mem_drawnNumbers_concat {n : Nat} (h : n ∈ drawnNumbers g l) :
    n ∈ drawnNumbers g (l ++ [e]) := by
  rw [drawnNumbers_concat]
  exact List.mem_append_left _ h

theorem drawnNumbers_length : (drawnNumbers g l).length = l.countP fun e => e.draws g := by
  rw [drawnNumbers, List.length_map, List.countP_eq_length_filter]

/-- While numbers are drawn, the last drawn number was drawn. -/
def NumberInv (g : Bytes32) (l : List (Step T)) (s : Storage) : Prop :=
  (s.gameRegistry g).createdAt ≠ 0 →
    (s.gameRegistry g).lastDrawnNumber = 999 ∨ (s.gameRegistry g).lastDrawnNumber = 1000 ∨
      (s.gameRegistry g).lastDrawnNumber.toNat ∈ drawnNumbers g l

theorem Steps.numberInv (h : Steps d w e w') (hinv : NumberInv g l w.game) :
    NumberInv g (l ++ [e]) w'.game := by
  intro hex
  have hrec := h.record g
  have hpost : e.post = w' := h.2.1
  have hold : (w.game.gameRegistry g).createdAt ≠ 0 →
      (w.game.gameRegistry g).lastDrawnNumber = 999 ∨
      (w.game.gameRegistry g).lastDrawnNumber = 1000 ∨
      (w.game.gameRegistry g).lastDrawnNumber.toNat ∈ drawnNumbers g (l ++ [e]) :=
    fun hex => (hinv hex).imp_right fun h => h.imp_right mem_drawnNumbers_concat
  rw [drawnNumbers_concat, hpost] at hold ⊢
  generalize w'.game.gameRegistry g = r at hrec hex hold
  cases hrec with
  | same => exact hold hex
  | created => exact Or.inl rfl
  | joined => exact hold hex
  | drawn he hplayer hopen =>
      rw [if_pos he]
      exact Or.inr (Or.inr (List.mem_append_right _ (List.mem_singleton_self _)))
  | claimed => exact Or.inr (Or.inl rfl)

theorem run_numberInv (hrun : WorldRun d (World.initial t₀) l w) (g : Bytes32) :
    NumberInv g l w.game :=
  hrun.invariant (P := fun l w => NumberInv g l w.game) (fun hex => absurd rfl hex)
    fun _ _ _ _ _ hinv hstep => hstep.numberInv hinv

/-- A number that is on a card of an unfinished game was drawn. -/
theorem NumberInv.drawn {s : Storage} (h : NumberInv g l s) (hplayer : s.OnlyPlayer p g)
    (hmem : (s.gameRegistry g).lastDrawnNumber.toNat
      ∈ cardTiles (s.playerRegistry p g).numberStorage) :
    (s.gameRegistry g).lastDrawnNumber.toNat ∈ drawnNumbers g l := by
  rcases h hplayer.exists_ with hjoining | hover | hdrawn
  · rw [hjoining] at hmem
    exact absurd hmem (cardTiles_not_joining _)
  · exact absurd hover hplayer.not_over
  · exact hdrawn

-- ============================================================================
-- Backed hits
-- ============================================================================

/-- The step `m` between `l₁` and `l₂` marked tile `i` of the card that player
    `p` still has in game `g`. -/
structure MarkedBy (p : Address) (g : Bytes32) (card : Uint256) (i : Nat) (l₁ : List (Step T))
    (m : Step T) (l₂ : List (Step T)) : Prop where
  sender : m.sender = p
  marks : m.marks g
  dealt_before : Dealt p g l₁
  not_dealt_since : ¬ Dealt p g l₂
  number : (m.pre.game.gameRegistry g).lastDrawnNumber.toNat = bucket card i
  drawn_before : bucket card i ∈ drawnNumbers g l₁
  /-- The tile is the first one with its number. -/
  first : (cardTiles card).idxOf (bucket card i) = i

/-- Some step of the history marked the tile. -/
def Backed (p : Address) (g : Bytes32) (card : Uint256) (i : Nat) (l : List (Step T)) : Prop :=
  ∃ l₁ m l₂, l = l₁ ++ m :: l₂ ∧ MarkedBy p g card i l₁ m l₂

/-- A mark stays one as long as the card is not dealt again. -/
theorem Backed.concat {card : Uint256} {i : Nat} (h : Backed p g card i l)
    (hd : ¬ (e.sender = p ∧ e.enters g)) : Backed p g card i (l ++ [e]) := by
  obtain ⟨l₁, m, l₂, rfl, hm⟩ := h
  have hsince : ¬ Dealt p g (l₂ ++ [e]) := by
    rw [dealt_concat, not_or]
    exact ⟨hm.not_dealt_since, hd⟩
  refine ⟨l₁, m, l₂ ++ [e], by rw [List.append_assoc, List.cons_append], ?_⟩
  exact { hm with not_dealt_since := hsince }

/-- Every hit of the player but the centre is backed. -/
def HitInv (p : Address) (g : Bytes32) (l : List (Step T)) (s : Storage) : Prop :=
  ∀ i, i ≠ 12 → (s.playerRegistry p g).hitStorage.getLsbD i = true →
    Backed p g (s.playerRegistry p g).numberStorage i l

theorem dealt_hits_getLsbD (i : Nat) : (4096 : Uint32).getLsbD i = true → i = 12 := by
  rw [show (4096 : Uint32) = BitVec.twoPow 32 12 from rfl, BitVec.getLsbD_twoPow]
  intro h
  simp only [Bool.and_eq_true, decide_eq_true_eq] at h
  exact h.2.symm

/-- The tile a mark sets holds the number. -/
theorem bucket_idxOf {card : Uint256} {n : Nat} (hn : n ∈ cardTiles card) :
    bucket card ((cardTiles card).idxOf n) = n := by
  have hidx := List.idxOf_lt_length_of_mem hn
  rw [← cardTiles_getElem card hidx]
  exact List.getElem_idxOf hidx

theorem Steps.hitInv (h : Steps d w e w') (hinv : HitInv p g l w.game)
    (hnumber : NumberInv g l w.game) (hcard : CardInv d p g l w.game) :
    HitInv p g (l ++ [e]) w'.game := by
  intro i hi hbit
  have hchange := h.card p g
  generalize w'.game.playerRegistry p g = c at hchange hbit ⊢
  cases hchange with
  | same hd => exact (hinv i hi hbit).concat hd
  | dealt => exact absurd (dealt_hits_getLsbD i hbit) hi
  | marked hp he hplayer hmem =>
      have hidx := List.idxOf_lt_length_of_mem hmem
      rw [cardTiles_length] at hidx
      have hsplit : (w.game.playerRegistry p g).hitStorage.getLsbD i = true ∨
          (cardTiles (w.game.playerRegistry p g).numberStorage).idxOf
            (w.game.gameRegistry g).lastDrawnNumber.toNat = i := by
        have hset := setBitValueByIndex_getLsbD (w.game.playerRegistry p g).hitStorage
          (by omega : (cardTiles (w.game.playerRegistry p g).numberStorage).idxOf
            (w.game.gameRegistry g).lastDrawnNumber.toNat < 32) i
        have hor := hset.symm.trans hbit
        rwa [Bool.or_eq_true, decide_eq_true_eq] at hor
      rcases hsplit with hold | rfl
      · exact (hinv i hi hold).concat fun hd => hd.2.not_marks he
      · -- the bit this step set
        have hbucket := bucket_idxOf hmem
        refine ⟨l, e, [], rfl, hp, he, hcard.of_member hplayer, ?_, ?_, ?_, ?_⟩
        · rintro ⟨e', he', -⟩
          cases he'
        · show (e.pre.game.gameRegistry g).lastDrawnNumber.toNat
            = bucket (w.game.playerRegistry p g).numberStorage _
          rw [hbucket, h.1]
        · show bucket (w.game.playerRegistry p g).numberStorage _ ∈ _
          rw [hbucket]
          exact hnumber.drawn hplayer hmem
        · show (cardTiles (w.game.playerRegistry p g).numberStorage).idxOf
            (bucket (w.game.playerRegistry p g).numberStorage _) = _
          rw [hbucket]

theorem run_hitInv (hrun : WorldRun d (World.initial t₀) l w) (p : Address) (g : Bytes32) :
    HitInv p g l w.game := by
  refine hrun.invariant (P := fun l w => HitInv p g l w.game) ?_
    fun _ _ _ _ hrun hinv hstep =>
      hstep.hitInv hinv (run_numberInv hrun g) (run_cardInv hrun p g)
  intro i _ hbit
  exact absurd (show (0 : Uint32).getLsbD i = true from hbit) (by simp)

/-- Before a claim, the claimer has a line whose tiles but the centre are
    backed. -/
theorem claims_line (hrun : WorldRun d (World.initial t₀) l w) (hstep : Steps d w e w')
    (he : e.claims g) :
    ∃ ℓ : Line, ℓ.Hit (w.game.playerRegistry e.sender g).hitStorage ∧
      ∀ k, ℓ.tile k ≠ 12 →
        Backed e.sender g (w.game.playerRegistry e.sender g).numberStorage (ℓ.tile k) l := by
  obtain ⟨ℓ, hhit⟩ := (checkForBingo_iff _).mp (hstep.of_claims he).2
  exact ⟨ℓ, hhit, fun k hk => run_hitInv hrun _ g _ hk (hhit k)⟩

/-- **No forged hits.** -/
theorem no_forged_hits (hrun : WorldRun d (World.initial t₀) l w) (g : Bytes32) :
    (∀ p i, i ≠ 12 → (w.game.playerRegistry p g).hitStorage.getLsbD i = true →
      ∃ l₁ m l₂, l = l₁ ++ m :: l₂ ∧
        MarkedBy p g (w.game.playerRegistry p g).numberStorage i l₁ m l₂) ∧
    (∀ l₁ e l₂, l = l₁ ++ e :: l₂ → e.claims g →
      ∃ ℓ : Line, ℓ.Hit (e.pre.game.playerRegistry e.sender g).hitStorage ∧
        ∀ k, ℓ.tile k ≠ 12 →
          bucket (e.pre.game.playerRegistry e.sender g).numberStorage (ℓ.tile k)
            ∈ drawnNumbers g l₁) := by
  refine ⟨fun p i hi hbit => run_hitInv hrun p g i hi hbit, ?_⟩
  rintro l₁ e l₂ rfl he
  obtain ⟨a, b, hrun₁, hstep, -⟩ := hrun.split_at
  obtain ⟨ℓ, hhit, hbacked⟩ := claims_line hrun₁ hstep he
  rw [hstep.1]
  refine ⟨ℓ, hhit, fun k hk => ?_⟩
  obtain ⟨k₁, m, k₂, rfl, hm⟩ := hbacked k hk
  rw [drawnNumbers, List.filter_append, List.map_append]
  exact List.mem_append_left _ hm.drawn_before

theorem no_forged_hits_sample :
    ((Sample.played 14).2.game.playerRegistry 17 Sample.gameId).hitStorage.getLsbD 10 = true ∧
    ∃ l₁ m l₂, (Sample.played 14).1 = l₁ ++ m :: l₂ ∧
      MarkedBy 17 Sample.gameId
        ((Sample.played 14).2.game.playerRegistry 17 Sample.gameId).numberStorage 10 l₁ m l₂ :=
  ⟨by decide +kernel,
    (no_forged_hits (Sample.played_run 14) Sample.gameId).1 17 10 (by decide) (by decide +kernel)⟩

end BitmaskBingo
