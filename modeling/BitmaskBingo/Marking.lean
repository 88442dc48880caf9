/-
  BitmaskBingo.Marking

  What marks do to a card.  From the moment a player holds a card, and as long
  as it is not dealt again, its numbers stay and its hits only grow, by the
  player's own marks; the hits are those at the start and those of the numbers
  marked since, in whatever order.  So a win is never lost.

  A single mark sets the first tile with the drawn number and no other: where
  a card carries the number twice, the second tile stays open.
-/

import BitmaskBingo.Hits

namespace BitmaskBingo

open Lib StorageUtils

variable {T : Token} {d : Deployment} {t₀ : T.State} {l l₀ : List (Step T)} {w w' w₀ : World T}
  {e : Step T} {p : Address} {g : Bytes32}

-- ============================================================================
-- One mark
-- ============================================================================

/-- A mark sets the tile that holds the number first, and keeps the others. -/
theorem BingoCard.marked_getLsbD {c : BingoCard} {n : Nat} (hn : n ∈ cardTiles c.numberStorage)
    (i : Nat) :
    (c.marked n).hitStorage.getLsbD i = true ↔
      c.hitStorage.getLsbD i = true ∨ (cardTiles c.numberStorage).idxOf n = i := by
  have hidx := List.idxOf_lt_length_of_mem hn
  rw [cardTiles_length] at hidx
  have hset := setBitValueByIndex_getLsbD c.hitStorage
    (by omega : (cardTiles c.numberStorage).idxOf n < 32) i
  show (setBitValueByIndex c.hitStorage _).getLsbD i = true ↔ _
  rw [hset, Bool.or_eq_true, decide_eq_true_eq]

/-- The number is marked on the card of the player. -/
def Step.marksFor (e : Step T) (p : Address) (g : Bytes32) : Prop := e.sender = p ∧ e.marks g

instance (e : Step T) (p : Address) (g : Bytes32) : Decidable (e.marksFor p g) :=
  inferInstanceAs (Decidable (_ ∧ _))

/-- The numbers that `p` marked in game `g`, in the order of the marks. -/
def markedNumbers (p : Address) (g : Bytes32) (l : List (Step T)) : List Nat :=
  (l.filter fun e => e.marksFor p g).map fun e =>
    (e.pre.game.gameRegistry g).lastDrawnNumber.toNat

theorem mem_markedNumbers_concat {n : Nat} :
    n ∈ markedNumbers p g (l ++ [e]) ↔ n ∈ markedNumbers p g l ∨
      (e.marksFor p g ∧ (e.pre.game.gameRegistry g).lastDrawnNumber.toNat = n) := by
  by_cases he : e.marksFor p g
  · simp [markedNumbers, he, eq_comm]
  · simp [markedNumbers, he]

/-- What a step of the run can do to the card: nothing, or a mark of its
    player. -/
inductive Kept (p : Address) (g : Bytes32) (e : Step T) (s : Storage) : BingoCard → Prop where
  | same (hm : ¬ e.marksFor p g) : Kept p g e s (s.playerRegistry p g)
  | marked (hm : e.marksFor p g)
      (hmem : (s.gameRegistry g).lastDrawnNumber.toNat
        ∈ cardTiles (s.playerRegistry p g).numberStorage) :
      Kept p g e s ((s.playerRegistry p g).marked (s.gameRegistry g).lastDrawnNumber.toNat)

theorem Steps.kept (h : Steps d w e w') (hex : (w.game.gameRegistry g).createdAt ≠ 0)
    (hjoin : ¬ (e.sender = p ∧ e.joins g)) :
    Kept p g e w.game (w'.game.playerRegistry p g) := by
  have hcard := h.card p g
  generalize w'.game.playerRegistry p g = c at hcard
  cases hcard with
  | same hd hm => exact .same hm
  | dealt hp he =>
      rcases he with hc | hj
      · exact absurd (h.of_creates hc).1 hex
      · exact absurd ⟨hp, hj⟩ hjoin
  | marked hp he hplayer hmem => exact .marked ⟨hp, he⟩ hmem

namespace Kept

variable {s : Storage} {c : BingoCard} (h : Kept p g e s c)

include h

theorem numbers : c.numberStorage = (s.playerRegistry p g).numberStorage := by
  cases h with
  | same => rfl
  | marked => rfl

theorem grows (i : Nat) (hi : (s.playerRegistry p g).hitStorage.getLsbD i = true) :
    c.hitStorage.getLsbD i = true := by
  cases h with
  | same => exact hi
  | marked hm hmem => exact (BingoCard.marked_getLsbD hmem i).mpr (Or.inl hi)

theorem own (hne : c.hitStorage ≠ (s.playerRegistry p g).hitStorage) : e.marksFor p g := by
  cases h with
  | same => exact absurd rfl hne
  | marked hm => exact hm

end Kept

-- ============================================================================
-- A win is never lost
-- ============================================================================

/-- The card that began as `c₀`, after the marks of `l`. -/
structure Progress (p : Address) (g : Bytes32) (c₀ : BingoCard) (l : List (Step T))
    (c : BingoCard) : Prop where
  numbers : c.numberStorage = c₀.numberStorage
  hits : ∀ i, c.hitStorage.getLsbD i = true ↔ c₀.hitStorage.getLsbD i = true ∨
    ∃ n ∈ markedNumbers p g l, (cardTiles c₀.numberStorage).idxOf n = i

theorem Progress.start (c₀ : BingoCard) : Progress (T := T) p g c₀ [] c₀ := by
  refine ⟨rfl, fun i => ?_⟩
  simp [markedNumbers]

theorem Steps.progress (h : Steps d w e w') {c₀ : BingoCard}
    (hinv : Progress p g c₀ l (w.game.playerRegistry p g))
    (hkept : Kept p g e w.game (w'.game.playerRegistry p g)) :
    Progress p g c₀ (l ++ [e]) (w'.game.playerRegistry p g) := by
  generalize w'.game.playerRegistry p g = c at hkept
  refine ⟨hkept.numbers.trans hinv.numbers, fun i => ?_⟩
  simp only [mem_markedNumbers_concat, or_and_right, exists_or]
  cases hkept with
  | same hm =>
      rw [hinv.hits]
      simp [hm]
  | marked hm hmem =>
      rw [BingoCard.marked_getLsbD hmem, hinv.hits, hinv.numbers, or_assoc]
      have hpre : (e.pre.game.gameRegistry g).lastDrawnNumber
          = (w.game.gameRegistry g).lastDrawnNumber := by rw [h.1]
      simp [hm, hpre]

/-- The same numbers, marked in any order and any number of times, make the
    same hits. -/
theorem Progress.hits_eq {c₀ c c' : BingoCard} {l' : List (Step T)} (h : Progress p g c₀ l c)
    (h' : Progress p g c₀ l' c') (hsame : ∀ n, n ∈ markedNumbers p g l' ↔ n ∈ markedNumbers p g l) :
    c'.hitStorage = c.hitStorage := by
  apply BitVec.eq_of_getLsbD_eq
  intro i _
  rw [Bool.eq_iff_iff, h.hits, h'.hits]
  simp only [hsame]

theorem Progress.winner {s₀ s : Storage}
    (h : Progress p g (s₀.playerRegistry p g) l (s.playerRegistry p g))
    (hwin : s₀.checkForWinner p g = true) : s.checkForWinner p g = true := by
  rw [Storage.checkForWinner] at hwin ⊢
  exact checkForBingo_mono (fun i hi => (h.hits i).mpr (Or.inl hi)) hwin

section Run

/-- The player does not join the game again. -/
def NoRejoin (p : Address) (g : Bytes32) (l : List (Step T)) : Prop :=
  ∀ e ∈ l, ¬ (e.sender = p ∧ e.joins g)

instance (p : Address) (g : Bytes32) (l : List (Step T)) : Decidable (NoRejoin p g l) :=
  inferInstanceAs (Decidable (∀ e ∈ l, _))

variable (hrun₀ : WorldRun d (World.initial t₀) l₀ w₀) (ht₀ : ∀ e ∈ l₀, e.ValidTime)
  (hp : Dealt p g l₀)

include hrun₀ ht₀ hp

/-- The game of a dealt card exists from then on. -/
theorem run_exists (hrun : WorldRun d w₀ l w) (ht : ∀ e ∈ l, e.ValidTime) :
    (w.game.gameRegistry g).createdAt ≠ 0 := by
  have hgame := run_gameInv hrun₀ ht₀ g
  have hex := hgame.exists_ ht₀ (hgame.dealt_created p hp)
  rw [(run_evolves hrun ht hex).createdAt]
  exact hex

theorem step_kept (hrun : WorldRun d w₀ l w) (ht : ∀ e ∈ l, e.ValidTime) (hstep : Steps d w e w')
    (hjoin : ¬ (e.sender = p ∧ e.joins g)) :
    Kept p g e w.game (w'.game.playerRegistry p g) :=
  hstep.kept (run_exists hrun₀ ht₀ hp hrun ht) hjoin

theorem run_progress (hrun : WorldRun d w₀ l w) (ht : ∀ e ∈ l, e.ValidTime)
    (hjoin : NoRejoin p g l) :
    Progress p g (w₀.game.playerRegistry p g) l (w.game.playerRegistry p g) := by
  refine hrun.invariant_of
    (P := fun l w => Progress p g (w₀.game.playerRegistry p g) l (w.game.playerRegistry p g))
    (Q := fun e => e.ValidTime ∧ ¬ (e.sender = p ∧ e.joins g))
    (fun e he => ⟨ht e he, hjoin e he⟩) (.start _) ?_
  intro k a e b hrun hk hinv hq hstep
  exact hstep.progress hinv
    (step_kept hrun₀ ht₀ hp hrun (fun e' he' => (hk e' he').1) hstep hq.2)

end Run

/-- What becomes of the card of `p` in game `g` over the steps `l`, which lead
    from `w₀` to `w`. -/
structure CardKept (d : Deployment) (p : Address) (g : Bytes32) (w₀ : World T) (l : List (Step T))
    (w : World T) : Prop where
  numbers : (w.game.playerRegistry p g).numberStorage = (w₀.game.playerRegistry p g).numberStorage
  grows : ∀ e ∈ l, ∀ i, (e.pre.game.playerRegistry p g).hitStorage.getLsbD i = true →
    (e.post.game.playerRegistry p g).hitStorage.getLsbD i = true
  own : ∀ e ∈ l, (e.post.game.playerRegistry p g).hitStorage
    ≠ (e.pre.game.playerRegistry p g).hitStorage → e.sender = p ∧ e.marks g
  hits : ∀ i, (w.game.playerRegistry p g).hitStorage.getLsbD i = true ↔
    (w₀.game.playerRegistry p g).hitStorage.getLsbD i = true ∨
      ∃ n ∈ markedNumbers p g l,
        (cardTiles (w₀.game.playerRegistry p g).numberStorage).idxOf n = i
  /-- Another run from the same state with the same set of marked numbers. -/
  hits_of_set : ∀ l' w', WorldRun d w₀ l' w' → (∀ e ∈ l', e.ValidTime) → NoRejoin p g l' →
    (∀ n, n ∈ markedNumbers p g l' ↔ n ∈ markedNumbers p g l) →
      (w'.game.playerRegistry p g).hitStorage = (w.game.playerRegistry p g).hitStorage
  /-- From any moment of the run to its end. -/
  winner : ∀ l₁ l₂ w₁, l = l₁ ++ l₂ → WorldRun d w₀ l₁ w₁ → WorldRun d w₁ l₂ w →
    w₁.game.checkForWinner p g = true → w.game.checkForWinner p g = true

/-- **A win is never lost.** -/
theorem win_never_lost (hrun₀ : WorldRun d (World.initial t₀) l₀ w₀)
    (ht₀ : ∀ e ∈ l₀, e.ValidTime) (hp : Dealt p g l₀) (hrun : WorldRun d w₀ l w)
    (ht : ∀ e ∈ l, e.ValidTime) (hjoin : NoRejoin p g l) : CardKept d p g w₀ l w := by
  have hprogress := run_progress hrun₀ ht₀ hp hrun ht hjoin
  have hkept : ∀ e ∈ l, Kept p g e e.pre.game (e.post.game.playerRegistry p g) := by
    intro e he
    obtain ⟨k, k', a, b, rfl, hrun₁, hstep, -⟩ := hrun.exists_step he
    rw [hstep.1, hstep.2.1]
    exact step_kept hrun₀ ht₀ hp hrun₁ (List.forall_mem_append.mp ht).1 hstep (hjoin e he)
  refine ⟨hprogress.numbers, fun e he => (hkept e he).grows, fun e he => (hkept e he).own,
    hprogress.hits, ?_, ?_⟩
  · intro l' w' hrun' ht' hjoin' hsame
    exact hprogress.hits_eq (run_progress hrun₀ ht₀ hp hrun' ht' hjoin') hsame
  · rintro l₁ l₂ w₁ rfl hrun₁ hrun₂ hwin
    have hdealt : Dealt p g (l₀ ++ l₁) := by
      obtain ⟨e, he, henters⟩ := hp
      exact ⟨e, List.mem_append_left _ he, henters⟩
    obtain ⟨ht₁, ht₂⟩ := List.forall_mem_append.mp ht
    obtain ⟨-, hjoin₂⟩ := List.forall_mem_append.mp hjoin
    have hrest := run_progress (hrun₀.append hrun₁) (List.forall_mem_append.mpr ⟨ht₀, ht₁⟩)
      hdealt hrun₂ ht₂ hjoin₂
    exact hrest.winner hwin

theorem win_never_lost_sample :
    ∃ l w, WorldRun Sample.deployment (Sample.played 6).2 l w ∧
      markedNumbers 17 Sample.gameId l = [11, 12, 14, 15] ∧
      CardKept Sample.deployment 17 Sample.gameId (Sample.played 6).2 l w := by
  have hrun : WorldRun Sample.deployment (Sample.played 6).2
      ((Sample.played 6).2.play Sample.deployment (Sample.txs.drop 6)).1 _ := World.play_run ..
  exact ⟨_, _, hrun, by decide +kernel,
    win_never_lost (Sample.played_run 6) (by decide +kernel) (by decide +kernel) hrun
      (by decide +kernel) (by decide +kernel)⟩

-- ============================================================================
-- Who may mark
-- ============================================================================

/-- A game with a dealt card exists or is not drawing, whatever the clock. -/
def DealtInv (g : Bytes32) (l : List (Step T)) (s : Storage) : Prop :=
  ∀ p, Dealt p g l → (s.gameRegistry g).createdAt ≠ 0 ∨ (s.gameRegistry g).lastDrawnNumber = 999

theorem Steps.dealtInv (h : Steps d w e w') (hinv : DealtInv g l w.game) :
    DealtInv g (l ++ [e]) w'.game := by
  intro p hp
  have hrec := h.record g
  generalize w'.game.gameRegistry g = r at hrec
  cases hrec with
  | same hc hj =>
      rcases dealt_concat.mp hp with hold | ⟨-, hnew⟩
      · exact hinv p hold
      · exact absurd hnew fun he => he.elim hc hj
  | created => exact Or.inr rfl
  | joined he hopen => exact Or.inl hopen.exists_
  | drawn he hplayer => exact Or.inl hplayer.exists_
  | claimed he hplayer => exact Or.inl hplayer.exists_

theorem run_dealtInv (hrun : WorldRun d (World.initial t₀) l w) (g : Bytes32) :
    DealtInv g l w.game := by
  refine hrun.invariant (P := fun l w => DealtInv g l w.game) ?_
    fun _ _ _ _ _ hinv hstep => hstep.dealtInv hinv
  rintro p ⟨e, he, -⟩
  cases he

/-- A card without numbers is never marked. -/
def BlankInv (p : Address) (g : Bytes32) (s : Storage) : Prop :=
  (s.playerRegistry p g).numberStorage = 0 →
    (s.playerRegistry p g).hitStorage = 0 ∨ (s.playerRegistry p g).hitStorage = 4096

theorem Steps.blankInv (h : Steps d w e w') (hinv : BlankInv p g w.game) :
    BlankInv p g w'.game := by
  intro hzero
  have hcard := h.card p g
  generalize w'.game.playerRegistry p g = c at hcard hzero ⊢
  cases hcard with
  | same => exact hinv hzero
  | dealt => exact Or.inr rfl
  | marked hp he hplayer => exact absurd hzero hplayer.member

theorem run_blankInv (hrun : WorldRun d (World.initial t₀) l w) (p : Address) (g : Bytes32) :
    BlankInv p g w.game :=
  hrun.invariant (P := fun _ w => BlankInv p g w.game) (fun _ => Or.inl rfl)
    fun _ _ _ _ _ hinv hstep => hstep.blankInv hinv

/-- Whose card has the drawn number passes the checks, unless the card is all
    zero. -/
theorem onlyPlayer_of_dealt {s : Storage} (hinv : DealtInv g l s) (hp : Dealt p g l)
    (hmem : (s.gameRegistry g).lastDrawnNumber.toNat
      ∈ cardTiles (s.playerRegistry p g).numberStorage)
    (hcard : (s.playerRegistry p g).numberStorage ≠ 0) : s.OnlyPlayer p g := by
  have hlt := cardTiles_lt _ _ hmem
  refine ⟨?_, ne_finished_of_lt hlt, hcard⟩
  exact (hinv p hp).resolve_right (ne_joining_of_lt hlt)

-- ============================================================================
-- What a mark covers
-- ============================================================================

/-- A mark by this message succeeds and hits every tile with the drawn number,
    and nothing else changes. -/
def MarkCovers (d : Deployment) (w : World T) (msg : Msg) (g : Bytes32) : Prop :=
  ∃ w', w.exec d ⟨msg, .game (.markNumberOnCard g)⟩ = .ok (w', .unit) ∧
    (∀ i < 25, (w'.game.playerRegistry msg.sender g).hitStorage.getLsbD i = true ↔
      (w.game.playerRegistry msg.sender g).hitStorage.getLsbD i = true ∨
        bucket (w.game.playerRegistry msg.sender g).numberStorage i
          = (w.game.gameRegistry g).lastDrawnNumber.toNat) ∧
    (w'.game.playerRegistry msg.sender g).numberStorage
      = (w.game.playerRegistry msg.sender g).numberStorage ∧
    (∀ q g', ¬ (q = msg.sender ∧ g' = g) →
      w'.game.playerRegistry q g' = w.game.playerRegistry q g') ∧
    w'.game.gameRegistry = w.game.gameRegistry

/-- Every tile with the drawn number but the first is hit already. -/
def OthersHit (s : Storage) (p : Address) (g : Bytes32) : Prop :=
  ∀ i < 25, bucket (s.playerRegistry p g).numberStorage i
      = (s.gameRegistry g).lastDrawnNumber.toNat →
    i ≠ (cardTiles (s.playerRegistry p g).numberStorage).idxOf
      (s.gameRegistry g).lastDrawnNumber.toNat →
    (s.playerRegistry p g).hitStorage.getLsbD i = true

variable {msg : Msg}

/-- What a mark leaves. -/
theorem exec_mark_iff {r : Returned} :
    w.exec d ⟨msg, .game (.markNumberOnCard g)⟩ = .ok (w', r) ↔
      w.game.OnlyPlayer msg.sender g ∧
      (w.game.gameRegistry g).lastDrawnNumber.toNat
        ∈ cardTiles (w.game.playerRegistry msg.sender g).numberStorage ∧
      r = .unit ∧
      w' = ⟨w.game.setCard msg.sender g ((w.game.playerRegistry msg.sender g).marked
        (w.game.gameRegistry g).lastDrawnNumber.toNat), w.token⟩ := by
  obtain ⟨s', t'⟩ := w'
  rw [World.exec_game_iff]
  show Effect d msg w.game (.markNumberOnCard g) r s' ∧ runCalls _ [] w.token = .ok t' ↔ _
  rw [runCalls_nil, Except.ok.injEq]
  refine ⟨?_, ?_⟩
  · rintro ⟨heff, rfl⟩
    cases heff with
    | markNumberOnCard hplayer hmem => exact ⟨hplayer, hmem, rfl, rfl⟩
  · rintro ⟨hplayer, hmem, rfl, hw⟩
    obtain ⟨rfl, rfl⟩ := World.mk.inj hw
    exact ⟨.markNumberOnCard hplayer hmem, rfl⟩

/-- On an all-zero card some tile stays open: it is never marked. -/
theorem not_othersHit_of_blank {s : Storage} (hblank : BlankInv p g s)
    (hzero : (s.playerRegistry p g).numberStorage = 0)
    (hmem : (s.gameRegistry g).lastDrawnNumber.toNat
      ∈ cardTiles (s.playerRegistry p g).numberStorage) : ¬ OthersHit s p g := by
  intro hothers
  have hdrawn := bucket_idxOf hmem
  rw [hzero, bucket_zero] at hdrawn
  have hopen : ∀ i, i ≠ 12 → (s.playerRegistry p g).hitStorage.getLsbD i ≠ true := by
    intro i hi hbit
    rcases hblank hzero with hno | hdealt
    · rw [hno] at hbit
      simp at hbit
    · rw [hdealt] at hbit
      exact hi (dealt_hits_getLsbD i hbit)
  -- of the tiles 1 and 2 at most one is the first with the number
  by_cases hfirst : 1 = (cardTiles (s.playerRegistry p g).numberStorage).idxOf
      (s.gameRegistry g).lastDrawnNumber.toNat
  · refine hopen 2 (by decide) (hothers 2 (by decide) ?_ ?_)
    · rw [hzero, bucket_zero]
      exact hdrawn
    · omega
  · refine hopen 1 (by decide) (hothers 1 (by decide) ?_ hfirst)
    rw [hzero, bucket_zero]
    exact hdrawn

/-- **Marking covers the drawn number** exactly when the tiles with the number
    that come after the first are hit already. -/
theorem mark_covers_iff (hrun : WorldRun d (World.initial t₀) l w) (msg : Msg)
    (hp : Dealt msg.sender g l)
    (hmem : (w.game.gameRegistry g).lastDrawnNumber.toNat
      ∈ cardTiles (w.game.playerRegistry msg.sender g).numberStorage) :
    MarkCovers d w msg g ↔ OthersHit w.game msg.sender g := by
  refine ⟨?_, fun hothers => ?_⟩
  · rintro ⟨w', hexec, hcover, -⟩ i hi hbucket hne
    obtain ⟨-, -, -, rfl⟩ := exec_mark_iff.mp hexec
    have hbit := (hcover i hi).mpr (Or.inr hbucket)
    simp only [Storage.setCard_playerRegistry, and_self, if_true] at hbit
    exact ((BingoCard.marked_getLsbD hmem i).mp hbit).resolve_right hne.symm
  · have hcard : (w.game.playerRegistry msg.sender g).numberStorage ≠ 0 := fun hzero =>
      not_othersHit_of_blank (run_blankInv hrun msg.sender g) hzero hmem hothers
    have hplayer := onlyPlayer_of_dealt (run_dealtInv hrun g) hp hmem hcard
    refine ⟨_, exec_mark_iff.mpr ⟨hplayer, hmem, rfl, rfl⟩, ?_, ?_, ?_, rfl⟩
    · intro i hi
      simp only [Storage.setCard_playerRegistry, and_self, if_true]
      rw [BingoCard.marked_getLsbD hmem]
      refine ⟨fun h => h.imp_right ?_, fun h => ?_⟩
      · rintro rfl
        exact bucket_idxOf hmem
      · rcases h with hold | hbucket
        · exact Or.inl hold
        · by_cases hfirst : i = (cardTiles (w.game.playerRegistry msg.sender g).numberStorage).idxOf
              (w.game.gameRegistry g).lastDrawnNumber.toNat
          · exact Or.inr hfirst.symm
          · exact Or.inl (hothers i hi hbucket hfirst)
    · simp only [Storage.setCard_playerRegistry, and_self, if_true]
      rfl
    · intro q g' hother
      rw [Storage.setCard_playerRegistry, if_neg hother]

namespace Sample

/-- A hash that deals most numbers twice: entropy 1 deals 0, 1, 1, 2, 2, ... -/
def pairs : Deployment where
  keccak256 bytes := bytes.foldl (fun h b => h + uint256 b) 0 / 2
  this := deployment.this
  owner := deployment.owner
  this_ne_zero := deployment.this_ne_zero

/-- The game that player 17 creates there with entropy 1. -/
def pairsId : Bytes32 := 9

/-- Player 17 creates a game and draws 1, which is on the tiles 1 and 2. -/
def pairsTxs : List (Tx bingoToken) :=
  [ ⟨Sample.msg 0xa1 900 1, .token (.mint 17 5000)⟩,
    ⟨Sample.msg 17 950 1, .token (.approve 0xb1 5000)⟩,
    ⟨Sample.msg 17 1000 1, .game .createGame⟩,
    ⟨Sample.msg 17 5000 2, .game (.drawNumber pairsId)⟩ ]

def pairsPlayed : List (Step bingoToken) × World bingoToken := genesis.play pairs pairsTxs

end Sample

theorem mark_covers_sample :
    MarkCovers Sample.deployment (Sample.played 7).2 (Sample.msg 17 5001 12) Sample.gameId ↔
      OthersHit (Sample.played 7).2.game 17 Sample.gameId :=
  mark_covers_iff (Sample.played_run 7) (Sample.msg 17 5001 12) (by decide +kernel)
    (by decide +kernel)

/-- Tile 2 carries the drawn number 1 and stays open. -/
theorem mark_leaves_second_tile :
    ∃ l w, WorldRun Sample.pairs Sample.genesis l w ∧ Dealt 17 Sample.pairsId l ∧
      (w.game.gameRegistry Sample.pairsId).lastDrawnNumber.toNat
        ∈ cardTiles (w.game.playerRegistry 17 Sample.pairsId).numberStorage ∧
      ¬ MarkCovers Sample.pairs w (Sample.msg 17 5001 3) Sample.pairsId := by
  have hrun : WorldRun Sample.pairs Sample.genesis Sample.pairsPlayed.1 Sample.pairsPlayed.2 :=
    World.play_run ..
  refine ⟨_, _, hrun, by decide +kernel, by decide +kernel, ?_⟩
  have hbucket : bucket (Sample.pairsPlayed.2.game.playerRegistry (Sample.msg 17 5001 3).sender
      Sample.pairsId).numberStorage 2
      = (Sample.pairsPlayed.2.game.gameRegistry Sample.pairsId).lastDrawnNumber.toNat := by
    decide +kernel
  have hopen : ((Sample.pairsPlayed.2.exec Sample.pairs
      ⟨Sample.msg 17 5001 3, .game (.markNumberOnCard Sample.pairsId)⟩).toOption.map fun x =>
        (x.1.game.playerRegistry (Sample.msg 17 5001 3).sender Sample.pairsId).hitStorage.getLsbD 2)
      = some false := by
    decide +kernel
  generalize Sample.pairsPlayed.2 = w at hbucket hopen
  rintro ⟨w', hexec, hcover, -⟩
  have hbit := (hcover 2 (by decide)).mpr (Or.inr hbucket)
  rw [hexec] at hopen
  exact Bool.false_ne_true ((Option.some.inj hopen).symm.trans hbit)

end BitmaskBingo
