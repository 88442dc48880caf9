/-
  BitmaskBingo.Lines

  The geometry the twelve masks stand for.  Tile `5 * row + column` is the
  bit of the hit word at that row and column; a line is a row, a column or a
  diagonal.  The masks are the lines' masks, in the order of the source, and
  a bingo is a line whose five bits are all set.
-/

import BitmaskBingo.GameMechanics

namespace BitmaskBingo

/-- A winning line of the 5x5 grid. -/
inductive Line where
  | column (c : Fin 5)
  | row (r : Fin 5)
  | diagonal
  | antiDiagonal
deriving Repr, DecidableEq

namespace Line

/-- The `k`-th tile of a line. -/
def tile : Line → Fin 5 → Nat
  | column c, k => 5 * k + c
  | row r, k => 5 * r + k
  | diagonal, k => 5 * k + k
  | antiDiagonal, k => 5 * k + (4 - k)

/-- The lines in the order of `winningBingoMasks`: x0-x4, y0-y4, d0, d1. -/
def all : List Line :=
  [column 0, column 1, column 2, column 3, column 4,
    row 0, row 1, row 2, row 3, row 4, diagonal, antiDiagonal]

theorem mem_all (ℓ : Line) : ℓ ∈ all := by
  cases ℓ with
  | column c => revert c; decide
  | row r => revert r; decide
  | diagonal => decide
  | antiDiagonal => decide

theorem tile_lt (ℓ : Line) (k : Fin 5) : ℓ.tile k < 25 := by
  cases ℓ <;> simp only [tile] <;> omega

/-- The tiles of a line are different tiles. -/
theorem tile_injective (ℓ : Line) : Function.Injective ℓ.tile := by
  intro j k h
  cases ℓ <;> simp only [tile] at h <;> omega

/-- The hit word with exactly the tiles of the line. -/
def mask (ℓ : Line) : Uint32 :=
  BitVec.twoPow 32 (ℓ.tile 0) ||| BitVec.twoPow 32 (ℓ.tile 1) ||| BitVec.twoPow 32 (ℓ.tile 2)
    ||| BitVec.twoPow 32 (ℓ.tile 3) ||| BitVec.twoPow 32 (ℓ.tile 4)

/-- The hand-written masks are the masks of the lines. -/
theorem winningBingoMasks_eq : winningBingoMasks = all.map mask := by decide

theorem mask_getLsbD (ℓ : Line) (i : Nat) :
    ℓ.mask.getLsbD i = true ↔ ∃ k, ℓ.tile k = i := by
  have hlt : ∀ k, ℓ.tile k < 32 := fun k => Nat.lt_trans (ℓ.tile_lt k) (by decide)
  simp only [mask, BitVec.getLsbD_or, BitVec.getLsbD_twoPow, hlt, decide_true, Bool.true_and,
    Bool.or_eq_true, decide_eq_true_eq]
  refine ⟨?_, ?_⟩
  · rintro ((((h | h) | h) | h) | h)
    all_goals exact ⟨_, h⟩
  · rintro ⟨k, h⟩
    match k with
    | 0 => exact Or.inl (Or.inl (Or.inl (Or.inl h)))
    | 1 => exact Or.inl (Or.inl (Or.inl (Or.inr h)))
    | 2 => exact Or.inl (Or.inl (Or.inr h))
    | 3 => exact Or.inl (Or.inr h)
    | 4 => exact Or.inr h

/-- At most one tile of a line is the centre. -/
theorem four_tiles (ℓ : Line) :
    ∃ ks : List (Fin 5), ks.length = 4 ∧ ks.Nodup ∧ ∀ k ∈ ks, ℓ.tile k ≠ 12 := by
  cases ℓ with
  | column c => exact ⟨[0, 1, 3, 4], rfl, by decide, by revert c; decide⟩
  | row r => exact ⟨if r = 2 then [0, 1, 3, 4] else [0, 1, 2, 3], by revert r; decide,
      by revert r; decide, by revert r; decide⟩
  | diagonal => exact ⟨[0, 1, 3, 4], rfl, by decide, by decide⟩
  | antiDiagonal => exact ⟨[0, 1, 3, 4], rfl, by decide, by decide⟩

end Line

/-! ## Bingo -/

/-- The bits of `m` are among those of `h` exactly when `h & m` is `m`. -/
theorem and_eq_right_iff {w : Nat} (h m : BitVec w) :
    h &&& m = m ↔ ∀ i, m.getLsbD i = true → h.getLsbD i = true := by
  refine ⟨?_, ?_⟩
  · intro heq i hi
    rw [← heq, BitVec.getLsbD_and, Bool.and_eq_true] at hi
    exact hi.1
  · intro hsub
    apply BitVec.eq_of_getLsbD_eq
    intro i _
    rw [BitVec.getLsbD_and]
    cases hm : m.getLsbD i with
    | false => exact Bool.and_false _
    | true => rw [hsub i hm, Bool.true_and]

/-- Every tile of the line is hit. -/
def Line.Hit (ℓ : Line) (hits : Uint32) : Prop := ∀ k, hits.getLsbD (ℓ.tile k) = true

instance (ℓ : Line) (hits : Uint32) : Decidable (ℓ.Hit hits) :=
  inferInstanceAs (Decidable (∀ _ : Fin 5, _))

/-- Bingo is a line that is hit. -/
theorem checkForBingo_iff (hits : Uint32) :
    checkForBingo winningBingoMasks hits = true ↔ ∃ ℓ : Line, ℓ.Hit hits := by
  rw [Line.winningBingoMasks_eq, checkForBingo, List.any_map, List.any_eq_true]
  refine ⟨?_, ?_⟩
  · rintro ⟨ℓ, _, hmask⟩
    have hsub := (and_eq_right_iff hits ℓ.mask).mp (by simpa using hmask)
    exact ⟨ℓ, fun k => hsub _ ((ℓ.mask_getLsbD _).mpr ⟨k, rfl⟩)⟩
  · rintro ⟨ℓ, hhit⟩
    refine ⟨ℓ, ℓ.mem_all, ?_⟩
    have hsub : hits &&& ℓ.mask = ℓ.mask := by
      rw [and_eq_right_iff]
      intro i hi
      obtain ⟨k, rfl⟩ := (ℓ.mask_getLsbD i).mp hi
      exact hhit k
    simpa using hsub

/-- What the decoder shows at a row and a column of the grid. -/
def gridEntry (hits : Uint32) (row column : Fin 5) : Uint256 :=
  (getHitsArrayForCard hits).getD (5 * row + column) 0

theorem gridEntry_eq_one_iff (hits : Uint32) (row column : Fin 5) :
    gridEntry hits row column = 1 ↔ hits.getLsbD (5 * row + column) = true := by
  have hlt : 5 * (row : Nat) + column < 25 := by omega
  have hlen : 5 * (row : Nat) + column < (getHitsArrayForCard hits).length := by
    simpa [getHitsArrayForCard] using hlt
  rw [gridEntry, List.getD_eq_getElem _ _ hlen]
  simp only [getHitsArrayForCard, List.getElem_map, List.getElem_range]
  rw [StorageUtils.getBitValueByIndex_eq hits (by omega)]
  cases hits.getLsbD (5 * (row : Nat) + column) with
  | false => decide
  | true => decide

/-- **Bingo detection is exact**: the twelve masks find a full row, a full
    column or a full diagonal of the decoded grid, whatever the unused bits. -/
theorem checkForBingo_exact (hits : Uint32) :
    checkForBingo winningBingoMasks hits = true ↔
      (∃ row, ∀ column, gridEntry hits row column = 1) ∨
      (∃ column, ∀ row, gridEntry hits row column = 1) ∨
      (∀ row column : Fin 5, row = column → gridEntry hits row column = 1) ∨
      (∀ row column : Fin 5, (row : Nat) + column = 4 → gridEntry hits row column = 1) := by
  rw [checkForBingo_iff]
  simp only [gridEntry_eq_one_iff]
  refine ⟨?_, ?_⟩
  · rintro ⟨ℓ, hhit⟩
    cases ℓ with
    | column c => exact Or.inr (Or.inl ⟨c, hhit⟩)
    | row r => exact Or.inl ⟨r, hhit⟩
    | diagonal =>
        refine Or.inr (Or.inr (Or.inl ?_))
        rintro k _ rfl
        exact hhit k
    | antiDiagonal =>
        refine Or.inr (Or.inr (Or.inr fun row column hsum => ?_))
        have hcolumn : (column : Nat) = 4 - row := by omega
        rw [hcolumn]
        exact hhit row
  · rintro (⟨r, hrow⟩ | ⟨c, hcolumn⟩ | hdiagonal | hanti)
    · exact ⟨.row r, hrow⟩
    · exact ⟨.column c, hcolumn⟩
    · exact ⟨.diagonal, fun k => hdiagonal k k rfl⟩
    · refine ⟨.antiDiagonal, fun k => ?_⟩
      have hk := hanti k ⟨4 - k, by omega⟩ (by show (k : Nat) + (4 - k) = 4; omega)
      exact hk

/-- The card as dealt, with only the centre hit, is no bingo. -/
theorem checkForBingo_dealt : checkForBingo winningBingoMasks 4096 = false := by decide

/-- More hits keep a bingo. -/
theorem checkForBingo_mono {h h' : Uint32}
    (hsub : ∀ i, h.getLsbD i = true → h'.getLsbD i = true)
    (hb : checkForBingo winningBingoMasks h = true) :
    checkForBingo winningBingoMasks h' = true := by
  obtain ⟨ℓ, hhit⟩ := (checkForBingo_iff h).mp hb
  exact (checkForBingo_iff h').mpr ⟨ℓ, fun k => hsub _ (hhit k)⟩

end BitmaskBingo
