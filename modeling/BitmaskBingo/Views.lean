/-
  BitmaskBingo.Views

  What the views of the contract tell.  They answer with decoded numbers and
  hits, and refuse to speak of a game that was never created; on the storage
  of a run nothing is lost that way: the answers determine every word of it.
-/

import BitmaskBingo.Refinement

namespace BitmaskBingo

open Lib StorageUtils

variable {T T' : Token} {d d' : Deployment} {t₀ : T.State} {t₀' : T'.State} {l : List (Step T)}
  {l' : List (Step T')} {w : World T} {w' : World T'} {s s' : Storage} {p : Address} {g : Bytes32}

/-- The same answers from the views: the settings, the games, and the decoded
    numbers and hits of every card. -/
structure SameViews (s s' : Storage) : Prop where
  settings : s.getGameSettings = s'.getGameSettings
  games : ∀ g, s.getGameById g = s'.getGameById g
  cards : ∀ p g, (s.getPlayerBingoCardForGame p g).map (fun card => (card.1, card.2.1))
    = (s'.getPlayerBingoCardForGame p g).map fun card => (card.1, card.2.1)

-- ============================================================================
-- The storage of a run
-- ============================================================================

/-- What the words of a storage keep to: a game that does not exist has no
    other field, and a card uses 200 and 25 bits. -/
structure Canonical (s : Storage) : Prop where
  games : ∀ g, (s.gameRegistry g).createdAt = 0 → s.gameRegistry g = Game.zero
  numbers : ∀ p g, (s.playerRegistry p g).numberStorage.toNat < 2 ^ 200
  hits : ∀ p g, (s.playerRegistry p g).hitStorage.toNat < 2 ^ 25

theorem run_canonical (hrun : WorldRun d (World.initial t₀) l w) (ht : ∀ e ∈ l, e.ValidTime) :
    Canonical w.game := by
  have hcards : ∀ p g, w.game.playerRegistry p g = BingoCard.zero ∨
      (w.game.playerRegistry p g).WellFormed := by
    intro p g
    have hcard := run_cardInv hrun p g
    by_cases hp : Dealt p g l
    · exact Or.inr (hcard.wellFormed hp)
    · exact Or.inl (hcard.zero hp)
  refine ⟨fun g hzero => ?_, fun p g => ?_, fun p g => ?_⟩
  · have hgame := run_gameInv hrun ht g
    by_cases hc : Created g l
    · exact absurd hzero (hgame.exists_ ht hc)
    · exact hgame.record_zero hc
  · rcases hcards p g with hzero | hwell
    · rw [hzero]
      exact Nat.two_pow_pos 200
    · exact hwell.numbers_lt
  · rcases hcards p g with hzero | hwell
    · rw [hzero]
      exact Nat.two_pow_pos 25
    · exact hwell.hits_lt

-- ============================================================================
-- Decoding loses nothing
-- ============================================================================

theorem numbers_injective {c c' : Uint256} (hc : c.toNat < 2 ^ 200) (hc' : c'.toNat < 2 ^ 200)
    (h : getNumbersArrayForCard c = getNumbersArrayForCard c') : c = c' := by
  rw [getNumbersArrayForCard_eq, getNumbersArrayForCard_eq, Except.ok.injEq] at h
  have hbuckets : (List.range 25).map (bucket c) = (List.range 25).map (bucket c') := by
    refine List.map_congr_left fun i hi => ?_
    have hword := List.map_inj_left.mp h i hi
    have hlt := bucket_lt c i
    have hlt' := bucket_lt c' i
    have hnat := congrArg BitVec.toNat hword
    rwa [BitVec.toNat_ofNat, BitVec.toNat_ofNat, Nat.mod_eq_of_lt (by omega),
      Nat.mod_eq_of_lt (by omega)] at hnat
  rw [← packTiles_buckets hc, ← packTiles_buckets hc', hbuckets]

theorem hits_injective {h h' : Uint32} (hh : h.toNat < 2 ^ 25) (hh' : h'.toNat < 2 ^ 25)
    (harray : getHitsArrayForCard h = getHitsArrayForCard h') : h = h' := by
  rw [getHitsArrayForCard_eq, getHitsArrayForCard_eq, List.map_map, List.map_map] at harray
  apply BitVec.eq_of_getLsbD_eq
  intro i _
  by_cases hi : i < 25
  · have hbit := List.map_inj_left.mp harray i (List.mem_range.mpr hi)
    simp only [Function.comp_apply] at hbit
    revert hbit
    cases h.getLsbD i <;> cases h'.getLsbD i <;> simp
  · have hle : 2 ^ 25 ≤ 2 ^ i := Nat.pow_le_pow_right (by decide) (by omega)
    rw [BitVec.getLsbD, BitVec.getLsbD, Nat.testBit_lt_two_pow (by omega),
      Nat.testBit_lt_two_pow (by omega)]

theorem game_injective {r r' : Game}
    (h : (uint256 r.lastDrawnNumber, uint256 r.lastDrawnAt, uint256 r.prizePool,
        uint256 r.createdAt)
      = (uint256 r'.lastDrawnNumber, uint256 r'.lastDrawnAt, uint256 r'.prizePool,
        uint256 r'.createdAt)) : r = r' := by
  have hword : ∀ {x y : Uint64}, uint256 x = uint256 y → x = y := by
    intro x y hxy
    have hnat := congrArg BitVec.toNat hxy
    rw [uint256_toNat_uint64, uint256_toNat_uint64] at hnat
    exact BitVec.eq_of_toNat_eq hnat
  obtain ⟨n, a, q, c⟩ := r
  obtain ⟨n', a', q', c'⟩ := r'
  simp only [Prod.mk.injEq] at h
  rw [hword h.1, hword h.2.1, hword h.2.2.1, hword h.2.2.2]

/-- `getGameById` answers exactly for the games that exist. -/
theorem getGameById_eq (s : Storage) (g : Bytes32) :
    s.getGameById g
      = if (s.gameRegistry g).createdAt = 0 then .error (.error "Game does not exist")
        else .ok (uint256 (s.gameRegistry g).lastDrawnNumber,
          uint256 (s.gameRegistry g).lastDrawnAt, uint256 (s.gameRegistry g).prizePool,
          uint256 (s.gameRegistry g).createdAt) := by
  by_cases h : (s.gameRegistry g).createdAt = 0
  · have hpos : ¬ (s.gameRegistry g).createdAt > 0 := fun hpos => pos_iff_ne_zero.mp hpos h
    rw [Storage.getGameById, if_pos h]
    simp only [require, if_neg hpos]
    rfl
  · have hpos : (s.gameRegistry g).createdAt > 0 := pos_iff_ne_zero.mpr h
    rw [Storage.getGameById, if_neg h]
    simp only [require, if_pos hpos]
    rfl

-- ============================================================================
-- The views determine the storage
-- ============================================================================

theorem SameViews.record (h : SameViews s s') (hs : Canonical s) (hs' : Canonical s')
    (g : Bytes32) : s.gameRegistry g = s'.gameRegistry g := by
  have hview := h.games g
  rw [getGameById_eq, getGameById_eq] at hview
  by_cases hzero : (s.gameRegistry g).createdAt = 0
  · by_cases hzero' : (s'.gameRegistry g).createdAt = 0
    · rw [hs.games g hzero, hs'.games g hzero']
    · rw [if_pos hzero, if_neg hzero'] at hview
      cases hview
  · by_cases hzero' : (s'.gameRegistry g).createdAt = 0
    · rw [if_neg hzero, if_pos hzero'] at hview
      cases hview
    · rw [if_neg hzero, if_neg hzero', Except.ok.injEq] at hview
      exact game_injective hview

theorem SameViews.card (h : SameViews s s') (hs : Canonical s) (hs' : Canonical s')
    (p : Address) (g : Bytes32) : s.playerRegistry p g = s'.playerRegistry p g := by
  have hview := h.cards p g
  simp only [Storage.getPlayerBingoCardForGame, getNumbersArrayForCard_eq, bind, Except.bind, pure,
    Except.pure, Except.map, Except.ok.injEq, Prod.mk.injEq] at hview
  have hnumbers := numbers_injective (hs.numbers p g) (hs'.numbers p g)
    (by rw [getNumbersArrayForCard_eq, getNumbersArrayForCard_eq, hview.1])
  have hhits := hits_injective (hs.hits p g) (hs'.hits p g) hview.2
  generalize s.playerRegistry p g = c at hnumbers hhits
  generalize s'.playerRegistry p g = c' at hnumbers hhits
  obtain ⟨n, h⟩ := c
  obtain ⟨n', h'⟩ := c'
  exact congrArg₂ _ hnumbers hhits

/-- **The views tell everything.**  Two runs, of whatever deployments and
    tokens, end with the same storage exactly when the views answer alike. -/
theorem views_determine_storage (hrun : WorldRun d (World.initial t₀) l w)
    (ht : ∀ e ∈ l, e.ValidTime) (hrun' : WorldRun d' (World.initial t₀') l' w')
    (ht' : ∀ e ∈ l', e.ValidTime) : SameViews w.game w'.game ↔ w.game = w'.game := by
  have hs := run_canonical hrun ht
  have hs' := run_canonical hrun' ht'
  refine ⟨fun h => ?_, fun h => h ▸ ⟨rfl, fun _ => rfl, fun _ _ => rfl⟩⟩
  have hgames : w.game.gameRegistry = w'.game.gameRegistry := funext (h.record hs hs')
  have hcards : w.game.playerRegistry = w'.game.playerRegistry :=
    funext fun p => funext (h.card hs hs' p)
  have hsettings : w.game.gameSettings = w'.game.gameSettings := by
    have hview := h.settings
    simp only [Storage.getGameSettings, Prod.mk.injEq] at hview
    generalize w.game.gameSettings = settings at hview
    generalize w'.game.gameSettings = settings' at hview
    obtain ⟨fee, turn, join⟩ := settings
    obtain ⟨fee', turn', join'⟩ := settings'
    simp only at hview
    rw [hview.1, hview.2.1, hview.2.2]
  generalize w.game = s at hgames hcards hsettings
  generalize w'.game = s' at hgames hcards hsettings
  obtain ⟨settings, games, cards⟩ := s
  obtain ⟨settings', games', cards'⟩ := s'
  simp only at hgames hcards hsettings
  rw [hgames, hcards, hsettings]

theorem views_determine_storage_sample :
    ¬ SameViews (Sample.played 14).2.game (Sample.played 15).2.game := by
  intro h
  have hviews := views_determine_storage (Sample.played_run 14) (by decide +kernel)
    (Sample.played_run 15) (by decide +kernel)
  have hpots : ((Sample.played 14).2.game.gameRegistry Sample.gameId).prizePool
      ≠ ((Sample.played 15).2.game.gameRegistry Sample.gameId).prizePool := by decide +kernel
  exact hpots (congrArg (fun s : Storage => (s.gameRegistry Sample.gameId).prizePool)
    (hviews.mp h))

end BitmaskBingo
