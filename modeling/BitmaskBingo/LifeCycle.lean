/-
  BitmaskBingo.LifeCycle

  The life of a game and of a card over whole runs.  A record is zero until
  the one `createGame` that creates it; then `createdAt` stays, `lastDrawnAt`
  only grows, and `lastDrawnNumber` goes from 999 over drawn numbers to 1000.
  A card is zero until it is dealt; then its words stay within the bounds of
  25 tiles.

  What holds without any assumption on the clock comes first: the clock only
  matters where `createdAt` must tell an existing game from none.
-/

import BitmaskBingo.Bank
import BitmaskBingo.Lines

namespace BitmaskBingo

open Lib StorageUtils

variable {T : Token} {d : Deployment} {t₀ : T.State} {l : List (Step T)} {w w' : World T}
  {e : Step T} {p : Address} {g : Bytes32}

-- ============================================================================
-- Histories
-- ============================================================================

/-- Some `createGame` of the history returned this id. -/
def Created (g : Bytes32) (l : List (Step T)) : Prop := ∃ e ∈ l, e.creates g

/-- The player was dealt a card of the game. -/
def Dealt (p : Address) (g : Bytes32) (l : List (Step T)) : Prop :=
  ∃ e ∈ l, e.sender = p ∧ e.enters g

instance (p : Address) (g : Bytes32) (l : List (Step T)) : Decidable (Dealt p g l) :=
  inferInstanceAs (Decidable (∃ e ∈ l, _))

@[simp] theorem created_concat : Created g (l ++ [e]) ↔ Created g l ∨ e.creates g := by
  simp [Created, or_and_right, exists_or]

@[simp] theorem dealt_concat :
    Dealt p g (l ++ [e]) ↔ Dealt p g l ∨ (e.sender = p ∧ e.enters g) := by
  simp [Dealt, or_and_right, exists_or]

-- ============================================================================
-- The stages of a game
-- ============================================================================

/-- The values of `lastDrawnNumber`: joining, drawing, finished. -/
def IsStage (n : Uint64) : Prop := n = 999 ∨ n.toNat < 256 ∨ n = 1000

/-- One move of `lastDrawnNumber`. -/
def Moves (n n' : Uint64) : Prop :=
  n' = n ∨ (n = 999 ∧ n'.toNat < 256) ∨ (n.toNat < 256 ∧ n'.toNat < 256) ∨
    (n.toNat < 256 ∧ n' = 1000)

theorem ne_joining_of_lt {n : Uint64} (h : n.toNat < 256) : n ≠ 999 := by
  rintro rfl
  exact absurd h (by decide)

theorem ne_finished_of_lt {n : Uint64} (h : n.toNat < 256) : n ≠ 1000 := by
  rintro rfl
  exact absurd h (by decide)

theorem drawn_lastDrawnNumber_toNat (game : Game) (block : Block) :
    (game.drawn d block).lastDrawnNumber.toNat = drawnNumber d block := by
  have hlt := drawnNumber_lt d block
  show (BitVec.ofNat 64 (drawnNumber d block)).toNat = _
  rw [BitVec.toNat_ofNat, Nat.mod_eq_of_lt (by omega)]

theorem drawn_lt (game : Game) (block : Block) :
    (game.drawn d block).lastDrawnNumber.toNat < 256 := by
  rw [drawn_lastDrawnNumber_toNat]
  exact drawnNumber_lt d block

theorem cardTiles_not_joining (c : Uint256) : (999 : Uint64).toNat ∉ cardTiles c := by
  intro hmem
  have hlt := cardTiles_lt c _ hmem
  exact absurd hlt (by decide)

-- ============================================================================
-- Without assumptions on the clock
-- ============================================================================

/-- While a game does not exist or players join it, its cards have no hit but
    the centre. -/
def Unhit (s : Storage) (g : Bytes32) : Prop :=
  (s.gameRegistry g).createdAt = 0 ∨ (s.gameRegistry g).lastDrawnNumber = 999 →
    ∀ p, (s.playerRegistry p g).hitStorage = 0 ∨ (s.playerRegistry p g).hitStorage = 4096

/-- A card without hits wins nothing. -/
theorem Unhit.not_winner {s : Storage} (h : Unhit s g)
    (hn : (s.gameRegistry g).lastDrawnNumber = 999) (p : Address) :
    s.checkForWinner p g = false := by
  rw [Storage.checkForWinner]
  rcases h (Or.inr hn) p with hz | hd
  · rw [hz]
    decide
  · rw [hd]
    exact checkForBingo_dealt

theorem Steps.unhit (h : Steps d w e w') (hinv : Unhit w.game g) : Unhit w'.game g := by
  intro hstage p
  -- the guard held before, or this step created the game
  have hold : (w.game.gameRegistry g).createdAt = 0 ∨
      (w.game.gameRegistry g).lastDrawnNumber = 999 := by
    have hrec := h.record g
    generalize w'.game.gameRegistry g = r at hrec hstage
    cases hrec with
    | same => exact hstage
    | created he hnew => exact Or.inl hnew
    | joined he hopen hpot => exact hstage
    | drawn he hplayer hopen =>
        rcases hstage with hzero | hjoining
        · exact Or.inl hzero
        · exact absurd hjoining (ne_joining_of_lt (drawn_lt _ _))
    | claimed he hplayer hwin =>
        rcases hstage with hzero | hjoining
        · exact Or.inl hzero
        · exact absurd hjoining (by decide : (1000 : Uint64) ≠ 999)
  have hcard := h.card p g
  generalize w'.game.playerRegistry p g = c at hcard
  cases hcard with
  | same => exact hinv hold p
  | dealt => exact Or.inr rfl
  | marked hp he hplayer hmem =>
      rcases hold with hzero | hjoining
      · exact absurd hzero hplayer.exists_
      · rw [hjoining] at hmem
        exact absurd hmem (cardTiles_not_joining _)

/-- The first part of the invariant of a run. -/
theorem run_unhit (hrun : WorldRun d (World.initial t₀) l w) (g : Bytes32) : Unhit w.game g :=
  hrun.invariant (P := fun _ w => Unhit w.game g) (fun _ _ => Or.inl rfl)
    fun _ _ _ _ _ hinv hstep => hstep.unhit hinv

/-- The stages of an existing game. -/
theorem Steps.stage (h : Steps d w e w')
    (hinv : (w.game.gameRegistry g).createdAt ≠ 0 →
      IsStage (w.game.gameRegistry g).lastDrawnNumber)
    (hex : (w'.game.gameRegistry g).createdAt ≠ 0) :
    IsStage (w'.game.gameRegistry g).lastDrawnNumber := by
  have hrec := h.record g
  generalize w'.game.gameRegistry g = r at hrec hex
  cases hrec with
  | same => exact hinv hex
  | created => exact Or.inl rfl
  | joined => exact hinv hex
  | drawn => exact Or.inr (Or.inl (drawn_lt _ _))
  | claimed => exact Or.inr (Or.inr rfl)

theorem run_stage (hrun : WorldRun d (World.initial t₀) l w) (g : Bytes32) :
    (w.game.gameRegistry g).createdAt ≠ 0 → IsStage (w.game.gameRegistry g).lastDrawnNumber :=
  hrun.invariant
    (P := fun _ w => (w.game.gameRegistry g).createdAt ≠ 0 →
      IsStage (w.game.gameRegistry g).lastDrawnNumber)
    (fun hex => absurd rfl hex) fun _ _ _ _ _ hinv hstep => hstep.stage hinv

-- ============================================================================
-- Cards
-- ============================================================================

/-- The bounds of a card that was dealt. -/
structure BingoCard.WellFormed (c : BingoCard) : Prop where
  hits_lt : c.hitStorage.toNat < 2 ^ 25
  centre : c.hitStorage.getLsbD 12 = true
  numbers_lt : c.numberStorage.toNat < 2 ^ 200
  tiles_le : ∀ i < 25, bucket c.numberStorage i ≤ 254

theorem newCard_wellFormed (d : Deployment) (block : Block) : (newCard d block).WellFormed := by
  have hlen := dealtTiles_length d.keccak256 block.entropy
  have hbytes := dealtTiles_byte d.keccak256 block.entropy
  refine ⟨?_, ?_, ?_, ?_⟩
  · show (4096 : Uint32).toNat < 2 ^ 25
    decide
  · show (4096 : Uint32).getLsbD 12 = true
    decide
  · show (packTiles (dealtTiles d.keccak256 block.entropy)).toNat < 2 ^ 200
    rw [packTiles_toNat (Nat.le_of_eq hlen) hbytes]
    exact ofDigits_lt_pow hbytes (Nat.le_of_eq hlen) (by decide)
  · intro i hi
    show bucket (dealtCard d.keccak256 block.entropy) i ≤ 254
    rw [bucket_dealtCard _ _ hi]
    exact Nat.le_of_lt_succ (tileRand_lt d.keccak256 block.entropy i)

theorem BingoCard.WellFormed.marked {c : BingoCard} (h : c.WellFormed) {n : Nat}
    (hn : n ∈ cardTiles c.numberStorage) : (c.marked n).WellFormed := by
  have hidx : (cardTiles c.numberStorage).idxOf n < 25 := by
    rw [← cardTiles_length c.numberStorage]
    exact List.idxOf_lt_length_of_mem hn
  refine ⟨?_, ?_, h.numbers_lt, h.tiles_le⟩
  · show (setBitValueByIndex c.hitStorage _).toNat < 2 ^ 25
    rw [setBitValueByIndex, bitMask_eq (by omega), BitVec.toNat_or, BitVec.toNat_twoPow]
    refine Nat.or_lt_two_pow h.hits_lt (Nat.lt_of_le_of_lt (Nat.mod_le _ _) ?_)
    exact Nat.pow_lt_pow_right (by decide) hidx
  · show (setBitValueByIndex c.hitStorage _).getLsbD 12 = true
    rw [setBitValueByIndex_getLsbD _ (by omega), h.centre, Bool.true_or]

/-- The card of player `p` in game `g` after the history `l`. -/
structure CardInv (d : Deployment) (p : Address) (g : Bytes32) (l : List (Step T)) (s : Storage) :
    Prop where
  zero : ¬ Dealt p g l → s.playerRegistry p g = BingoCard.zero
  wellFormed : Dealt p g l → (s.playerRegistry p g).WellFormed
  dealt : Dealt p g l → ∃ e ∈ l, (e.sender = p ∧ e.enters g) ∧
    (s.playerRegistry p g).numberStorage = dealtCard d.keccak256 e.block.entropy

/-- Who is no member has no card to mark. -/
theorem CardInv.of_member {s : Storage} (h : CardInv d p g l s) (hm : s.OnlyPlayer p g) :
    Dealt p g l := by
  by_contra hp
  have hmember := hm.member
  rw [h.zero hp] at hmember
  exact hmember rfl

theorem Steps.cardInv (h : Steps d w e w') (hinv : CardInv d p g l w.game) :
    CardInv d p g (l ++ [e]) w'.game := by
  have hcard := h.card p g
  have hold : ∀ {x : Uint256}, (∃ e' ∈ l, (e'.sender = p ∧ e'.enters g) ∧
      x = dealtCard d.keccak256 e'.block.entropy) →
      ∃ e' ∈ l ++ [e], (e'.sender = p ∧ e'.enters g) ∧
        x = dealtCard d.keccak256 e'.block.entropy := by
    rintro x ⟨e', he', hx⟩
    exact ⟨e', List.mem_append_left _ he', hx⟩
  refine ⟨?_, ?_, ?_⟩
  all_goals rw [dealt_concat]
  · intro hp
    rw [not_or] at hp
    generalize w'.game.playerRegistry p g = c at hcard
    cases hcard with
    | same => exact hinv.zero hp.1
    | dealt hs he => exact absurd ⟨hs, he⟩ hp.2
    | marked hs he hplayer hmem => exact absurd (hinv.of_member hplayer) hp.1
  · intro hp
    generalize w'.game.playerRegistry p g = c at hcard
    cases hcard with
    | same hd => exact hinv.wellFormed (hp.resolve_right hd)
    | dealt => exact newCard_wellFormed d e.block
    | marked hs he hplayer hmem => exact (hinv.wellFormed (hinv.of_member hplayer)).marked hmem
  · intro hp
    generalize w'.game.playerRegistry p g = c at hcard
    cases hcard with
    | same hd => exact hold (hinv.dealt (hp.resolve_right hd))
    | dealt hs he => exact ⟨e, List.mem_append_right _ (List.mem_singleton_self e), ⟨hs, he⟩, rfl⟩
    | marked hs he hplayer hmem => exact hold (hinv.dealt (hinv.of_member hplayer))

theorem run_cardInv (hrun : WorldRun d (World.initial t₀) l w) (p : Address) (g : Bytes32) :
    CardInv d p g l w.game := by
  refine hrun.invariant (P := fun l w => CardInv d p g l w.game) ?_
    fun _ _ _ _ _ hinv hstep => hstep.cardInv hinv
  refine ⟨fun _ => rfl, ?_, ?_⟩
  all_goals
    rintro ⟨e, he, -⟩
    cases he

-- ============================================================================
-- How a game evolves
-- ============================================================================

/-- How the record of an existing game evolves. -/
structure Evolves (a b : Game) : Prop where
  createdAt : b.createdAt = a.createdAt
  lastDrawnAt : a.lastDrawnAt ≤ b.lastDrawnAt
  never_back : a.lastDrawnNumber ≠ 999 → b.lastDrawnNumber ≠ 999
  final : a.lastDrawnNumber = 1000 → b.lastDrawnNumber = 1000

theorem Evolves.refl (a : Game) : Evolves a a := ⟨rfl, BitVec.le_refl _, id, id⟩

theorem Evolves.trans {a b c : Game} (h : Evolves a b) (h' : Evolves b c) : Evolves a c where
  createdAt := h'.createdAt.trans h.createdAt
  lastDrawnAt := BitVec.le_trans h.lastDrawnAt h'.lastDrawnAt
  never_back hn := h'.never_back (h.never_back hn)
  final hn := h'.final (h.final hn)

/-- A step on an existing game. -/
theorem Steps.evolves (h : Steps d w e w') (hex : (w.game.gameRegistry g).createdAt ≠ 0)
    (ht : e.time < 2 ^ 64) : Evolves (w.game.gameRegistry g) (w'.game.gameRegistry g) := by
  have hrec := h.record g
  generalize w'.game.gameRegistry g = r at hrec
  cases hrec with
  | same => exact .refl _
  | created he hnew => exact absurd hnew hex
  | joined => exact ⟨rfl, BitVec.le_refl _, id, id⟩
  | drawn he hplayer hopen =>
      refine ⟨rfl, ?_, fun _ => ne_joining_of_lt (drawn_lt _ _),
        fun hn => absurd hn hplayer.not_over⟩
      have hturned := hopen.turned
      have htime : (uint64 e.block.timestamp).toNat = e.block.timestamp.toNat :=
        uint64_toNat_of_lt ht
      show (w.game.gameRegistry g).lastDrawnAt.toNat ≤ (uint64 e.block.timestamp).toNat
      omega
  | claimed => exact ⟨rfl, BitVec.le_refl _, fun _ => (by decide : (1000 : Uint64) ≠ 999),
      fun _ => rfl⟩

/-- A prize is only claimed while numbers are drawn. -/
theorem Steps.claimed_drawing (h : Steps d w e w') (he : e.claims g) (hunhit : Unhit w.game g)
    (hstage : (w.game.gameRegistry g).createdAt ≠ 0 →
      IsStage (w.game.gameRegistry g).lastDrawnNumber) :
    (w.game.gameRegistry g).lastDrawnNumber.toNat < 256 := by
  obtain ⟨hplayer, hwin⟩ := h.of_claims he
  rcases hstage hplayer.exists_ with hjoining | hlt | hover
  · rw [hunhit.not_winner hjoining] at hwin
    cases hwin
  · exact hlt
  · exact absurd hover hplayer.not_over

/-- A step moves `lastDrawnNumber` of an existing game along its stages. -/
theorem Steps.moves (h : Steps d w e w') (hex : (w.game.gameRegistry g).createdAt ≠ 0)
    (hunhit : Unhit w.game g)
    (hstage : (w.game.gameRegistry g).createdAt ≠ 0 →
      IsStage (w.game.gameRegistry g).lastDrawnNumber) :
    Moves (w.game.gameRegistry g).lastDrawnNumber (w'.game.gameRegistry g).lastDrawnNumber := by
  have hrec := h.record g
  have hclaim : e.claims g → (w.game.gameRegistry g).lastDrawnNumber.toNat < 256 :=
    fun he => h.claimed_drawing he hunhit hstage
  generalize w'.game.gameRegistry g = r at hrec
  cases hrec with
  | same => exact Or.inl rfl
  | created he hnew => exact absurd hnew hex
  | joined => exact Or.inl rfl
  | drawn he hplayer hopen =>
      rcases hstage hex with hjoining | hlt | hover
      · exact Or.inr (Or.inl ⟨hjoining, drawn_lt _ _⟩)
      · exact Or.inr (Or.inr (Or.inl ⟨hlt, drawn_lt _ _⟩))
      · exact absurd hover hplayer.not_over
  | claimed he hplayer hwin => exact Or.inr (Or.inr (Or.inr ⟨hclaim he, rfl⟩))

-- ============================================================================
-- With valid times
-- ============================================================================

/-- The record of game `g` after the history `l`. -/
structure GameInv (g : Bytes32) (l : List (Step T)) (s : Storage) : Prop where
  record_zero : ¬ Created g l → s.gameRegistry g = Game.zero
  created_at : ∀ e ∈ l, e.creates g → (s.gameRegistry g).createdAt.toNat = e.time
  created_once : l.countP (fun e => e.creates g) ≤ 1
  drawn_after : (s.gameRegistry g).createdAt ≤ (s.gameRegistry g).lastDrawnAt
  dealt_created : ∀ p, Dealt p g l → Created g l

/-- A created game exists. -/
theorem GameInv.exists_ {s : Storage} (h : GameInv g l s) (ht : ∀ e ∈ l, e.ValidTime)
    (hc : Created g l) : (s.gameRegistry g).createdAt ≠ 0 := by
  obtain ⟨e, he, hcreates⟩ := hc
  have hat := h.created_at e he hcreates
  have hpos : 1 ≤ e.time := (ht e he).1
  intro hzero
  rw [hzero] at hat
  have hz : (0 : Uint64).toNat = 0 := rfl
  omega

/-- A game that exists was created. -/
theorem GameInv.created {s : Storage} (h : GameInv g l s)
    (hex : (s.gameRegistry g).createdAt ≠ 0) : Created g l := by
  by_contra hc
  rw [h.record_zero hc] at hex
  exact hex rfl

theorem countP_creates_eq_zero (h : ¬ Created g l) : l.countP (fun e => e.creates g) = 0 := by
  rw [List.countP_eq_zero]
  intro e he hcreates
  exact h ⟨e, he, by simpa using hcreates⟩

theorem countP_creates_concat :
    (l ++ [e]).countP (fun e => e.creates g)
      = l.countP (fun e => e.creates g) + if e.creates g then 1 else 0 := by
  rw [List.countP_append, List.countP_singleton]
  simp

theorem Steps.gameInv (h : Steps d w e w') (hinv : GameInv g l w.game)
    (ht : ∀ e ∈ l, e.ValidTime) (hte : e.ValidTime) : GameInv g (l ++ [e]) w'.game := by
  have hrec := h.record g
  -- creation needs a fresh id, everything else an existing game
  have hfresh : e.creates g → ¬ Created g l := by
    intro he hc
    have heff := (h.of_call he.1).1
    rw [he.2] at heff
    generalize w'.game = s' at heff
    cases heff with
    | createGame hblock hnew => exact hinv.exists_ ht hc hnew
  have hcreated : Created g l → ¬ e.creates g := fun hc he => hfresh he hc
  refine ⟨?_, ?_, ?_, ?_, ?_⟩
  · intro hc
    rw [created_concat, not_or] at hc
    have hzero := hinv.record_zero hc.1
    generalize w'.game.gameRegistry g = r at hrec
    cases hrec with
    | same => exact hzero
    | created he hnew => exact absurd he hc.2
    | joined he hopen hpot => exact absurd (hinv.created hopen.exists_) hc.1
    | drawn he hplayer hopen => exact absurd (hinv.created hplayer.exists_) hc.1
    | claimed he hplayer hwin => exact absurd (hinv.created hplayer.exists_) hc.1
  · intro e' he' hcreates
    rcases List.mem_append.mp he' with hold | hlast
    · have hc : Created g l := ⟨e', hold, hcreates⟩
      have hsame := (h.evolves (hinv.exists_ ht hc) hte.2).createdAt
      rw [hsame]
      exact hinv.created_at e' hold hcreates
    · obtain rfl : e' = e := List.mem_singleton.mp hlast
      rw [(h.of_creates hcreates).2]
      exact uint64_toNat_of_lt hte.2
  · rw [countP_creates_concat]
    by_cases he : e.creates g
    · rw [if_pos he, countP_creates_eq_zero (hfresh he)]
    · rw [if_neg he]
      exact hinv.created_once
  · by_cases hex : (w.game.gameRegistry g).createdAt = 0
    · generalize w'.game.gameRegistry g = r at hrec
      cases hrec with
      | same => exact hinv.drawn_after
      | created => exact BitVec.le_refl _
      | joined he hopen hpot => exact absurd hex hopen.exists_
      | drawn he hplayer hopen => exact absurd hex hplayer.exists_
      | claimed he hplayer hwin => exact absurd hex hplayer.exists_
    · have hev := h.evolves hex hte.2
      rw [hev.createdAt]
      exact BitVec.le_trans hinv.drawn_after hev.lastDrawnAt
  · intro p hp
    rw [dealt_concat] at hp
    rw [created_concat]
    rcases hp with hold | ⟨-, hc | hj⟩
    · exact Or.inl (hinv.dealt_created p hold)
    · exact Or.inr hc
    · exact Or.inl (hinv.created (h.of_joins hj).exists_)

theorem run_gameInv (hrun : WorldRun d (World.initial t₀) l w) (ht : ∀ e ∈ l, e.ValidTime)
    (g : Bytes32) : GameInv g l w.game := by
  refine hrun.invariant_of (P := fun l w => GameInv g l w.game) ht ?_
    fun _ _ _ _ _ htk hinv hte hstep => hstep.gameInv hinv htk hte
  refine ⟨fun _ => rfl, ?_, Nat.zero_le _, BitVec.le_refl _, ?_⟩
  · intro e he
    cases he
  · rintro p ⟨e, he, -⟩
    cases he

-- ============================================================================
-- The life cycle
-- ============================================================================

/-- The life of game `g` over the history `l`, which ends in `w`. -/
structure LifeCycle (d : Deployment) (t₀ : T.State) (g : Bytes32) (l : List (Step T))
    (w : World T) : Prop where
  created_once : l.countP (fun e => e.creates g) ≤ 1
  zero_before : ¬ Created g l → w.game.gameRegistry g = Game.zero
  created_at : ∀ e ∈ l, e.creates g → (w.game.gameRegistry g).createdAt.toNat = e.time
  drawn_after : (w.game.gameRegistry g).createdAt ≤ (w.game.gameRegistry g).lastDrawnAt
  starts : ∀ e ∈ l, e.creates g → (e.post.game.gameRegistry g).lastDrawnNumber = 999
  stage : Created g l → IsStage (w.game.gameRegistry g).lastDrawnNumber
  moves : ∀ l₁ e l₂, l = l₁ ++ e :: l₂ → Created g l₁ →
    Moves (e.pre.game.gameRegistry g).lastDrawnNumber (e.post.game.gameRegistry g).lastDrawnNumber
  /-- From any moment at which the game existed to the end. -/
  evolves : ∀ l₁ l₂ w₁, l = l₁ ++ l₂ → WorldRun d (World.initial t₀) l₁ w₁ →
    WorldRun d w₁ l₂ w → Created g l₁ →
      Evolves (w₁.game.gameRegistry g) (w.game.gameRegistry g)
  unhit : (w.game.gameRegistry g).lastDrawnNumber = 999 → ∀ p, Dealt p g l →
    (w.game.playerRegistry p g).hitStorage = 4096

/-- An existing game evolves along a run. -/
theorem run_evolves (hrun : WorldRun d w l w') (ht : ∀ e ∈ l, e.ValidTime)
    (hex : (w.game.gameRegistry g).createdAt ≠ 0) :
    Evolves (w.game.gameRegistry g) (w'.game.gameRegistry g) := by
  refine hrun.invariant_of
    (P := fun _ w' => Evolves (w.game.gameRegistry g) (w'.game.gameRegistry g)) ht (.refl _) ?_
  intro _ a e b _ _ hev hte hstep
  have hex' : (a.game.gameRegistry g).createdAt ≠ 0 := by
    rw [hev.createdAt]
    exact hex
  exact hev.trans (hstep.evolves hex' hte.2)

/-- A card that was dealt and has no hit but the centre holds exactly the
    dealt hit word. -/
theorem CardInv.hits_of_unhit {s : Storage} (h : CardInv d p g l s) (hd : Dealt p g l)
    (hu : (s.playerRegistry p g).hitStorage = 0 ∨ (s.playerRegistry p g).hitStorage = 4096) :
    (s.playerRegistry p g).hitStorage = 4096 := by
  rcases hu with hzero | hdealt
  · have hcentre := (h.wellFormed hd).centre
    rw [hzero] at hcentre
    exact absurd hcentre (by decide)
  · exact hdealt

/-- **Game life cycle.** -/
theorem life_cycle (hrun : WorldRun d (World.initial t₀) l w) (ht : ∀ e ∈ l, e.ValidTime)
    (g : Bytes32) : LifeCycle d t₀ g l w := by
  have hinv := run_gameInv hrun ht g
  refine ⟨hinv.created_once, hinv.record_zero, hinv.created_at, hinv.drawn_after, ?_, ?_, ?_, ?_,
    ?_⟩
  · intro e he hcreates
    obtain ⟨_, _, a, b, rfl, -, hstep, -⟩ := hrun.exists_step he
    rw [hstep.2.1, (hstep.of_creates hcreates).2]
    rfl
  · intro hc
    exact run_stage hrun g (hinv.exists_ ht hc)
  · rintro l₁ e l₂ rfl hc
    obtain ⟨a, b, hrun₁, hstep, -⟩ := hrun.split_at
    have ht₁ := (List.forall_mem_append.mp ht).1
    have hex := (run_gameInv hrun₁ ht₁ g).exists_ ht₁ hc
    have hmove := hstep.moves hex (run_unhit hrun₁ g) (run_stage hrun₁ g)
    rwa [← hstep.1, ← hstep.2.1] at hmove
  · rintro l₁ l₂ w₁ rfl hrun₁ hrun₂ hc
    obtain ⟨ht₁, ht₂⟩ := List.forall_mem_append.mp ht
    exact run_evolves hrun₂ ht₂ ((run_gameInv hrun₁ ht₁ g).exists_ ht₁ hc)
  · intro hn p hp
    exact (run_cardInv hrun p g).hits_of_unhit hp (run_unhit hrun g (Or.inr hn) p)

theorem life_cycle_sample : (Sample.played 15).1.length = 15 ∧
    LifeCycle Sample.deployment (BingoToken.deployed 0xa1) Sample.gameId (Sample.played 15).1
      (Sample.played 15).2 :=
  ⟨by decide +kernel, life_cycle (Sample.played_run 15) (by decide +kernel) Sample.gameId⟩

-- ============================================================================
-- Cards and membership
-- ============================================================================

/-- A dealt card is all zero exactly when every tile is. -/
theorem dealtCard_ne_zero_iff (keccak256 : List Byte → Bytes32) (entropy : Bytes32) :
    dealtCard keccak256 entropy ≠ 0 ↔ ∃ x ∈ dealtTiles keccak256 entropy, x ≠ 0 := by
  have htoNat : (dealtCard keccak256 entropy).toNat
      = Nat.ofDigits 256 (dealtTiles keccak256 entropy) :=
    packTiles_toNat (Nat.le_of_eq (dealtTiles_length _ _)) (dealtTiles_byte _ _)
  have hzero : dealtCard keccak256 entropy = 0 ↔ ∀ x ∈ dealtTiles keccak256 entropy, x = 0 := by
    rw [← ofDigits_eq_zero_iff (by decide : 0 < 256), ← htoNat]
    refine ⟨?_, ?_⟩
    · intro h
      rw [h]
      rfl
    · intro h
      exact BitVec.eq_of_toNat_eq h
  rw [Ne, hzero]
  push Not
  rfl

/-- No card was dealt with all 25 numbers 0. -/
def NoZeroDeal (d : Deployment) (l : List (Step T)) : Prop :=
  ∀ e ∈ l, e.deals → ∃ x ∈ dealtTiles d.keccak256 e.block.entropy, x ≠ 0

instance (d : Deployment) (l : List (Step T)) : Decidable (NoZeroDeal d l) :=
  inferInstanceAs (Decidable (∀ e ∈ l, _ → _))

/-- **Card representation and membership.** -/
theorem cards_and_membership (hrun : WorldRun d (World.initial t₀) l w)
    (ht : ∀ e ∈ l, e.ValidTime) (p : Address) (g : Bytes32) :
    (w.game.playerRegistry p g = BingoCard.zero ∨
      ((w.game.playerRegistry p g).WellFormed ∧ (w.game.gameRegistry g).createdAt ≠ 0)) ∧
    (NoZeroDeal d l →
      ((w.game.playerRegistry p g).numberStorage > 0 ↔ Dealt p g l) ∧
      (w.game.checkGameHasPlayer p g = true ↔ Dealt p g l)) := by
  have hcard := run_cardInv hrun p g
  have hgame := run_gameInv hrun ht g
  by_cases hp : Dealt p g l
  · have hwf := hcard.wellFormed hp
    refine ⟨Or.inr ⟨hwf, hgame.exists_ ht (hgame.dealt_created p hp)⟩, fun hdeals => ?_⟩
    obtain ⟨e, he, ⟨-, henters⟩, hnumbers⟩ := hcard.dealt hp
    have hnumber : (w.game.playerRegistry p g).numberStorage ≠ 0 := by
      rw [hnumbers]
      exact (dealtCard_ne_zero_iff _ _).mpr (hdeals e he henters.deals)
    have hhits : (w.game.playerRegistry p g).hitStorage ≠ 0 := by
      intro hzero
      have hcentre := hwf.centre
      rw [hzero] at hcentre
      exact absurd hcentre (by decide)
    refine ⟨⟨fun _ => hp, fun _ => pos_iff_ne_zero.mpr hnumber⟩, fun _ => hp, fun _ => ?_⟩
    exact decide_eq_true (pos_iff_ne_zero.mpr hhits)
  · have hzero := hcard.zero hp
    refine ⟨Or.inl hzero, fun _ => ?_⟩
    rw [Storage.checkGameHasPlayer, hzero]
    refine ⟨⟨fun h => absurd h (by decide), fun h => absurd h hp⟩, fun h => absurd h (by decide),
      fun h => absurd h hp⟩

theorem cards_and_membership_sample :
    (Sample.played 15).2.game.checkGameHasPlayer 17 Sample.gameId = true ∧
    ((Sample.played 15).2.game.checkGameHasPlayer 17 Sample.gameId = true ↔
      Dealt 17 Sample.gameId (Sample.played 15).1) :=
  ⟨by decide +kernel,
    ((cards_and_membership (Sample.played_run 15) (by decide +kernel) 17 Sample.gameId).2
      (by decide +kernel)).2⟩

end BitmaskBingo
