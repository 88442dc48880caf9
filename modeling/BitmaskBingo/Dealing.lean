/-
  BitmaskBingo.Dealing

  Where cards come from.  The tiles of a card are hashes of the previous block
  hash and the tile's index; the player is not among the inputs.  So two
  players have cards of their own exactly when their cards were dealt after
  blocks with different hashes, and in one block everybody is dealt the same.
-/

import BitmaskBingo.LifeCycle

namespace BitmaskBingo

open Lib StorageUtils

variable {T : Token} {d : Deployment} {t₀ : T.State} {l : List (Step T)} {w w' : World T}
  {e : Step T} {p q : Address} {g : Bytes32}

-- ============================================================================
-- The inputs of a card
-- ============================================================================

/-- What is hashed for tile `i`: `abi.encode(_entropy, i)`. -/
def tileInput (entropy : Bytes32) (i : Nat) : List Byte := abiEncode [entropy, BitVec.ofNat 256 i]

/-- Different block hashes make different inputs. -/
theorem tileInput_inj {entropy entropy' : Bytes32} {i j : Nat}
    (h : tileInput entropy i = tileInput entropy' j) : entropy = entropy' := abiEncode_head h

/-- The tile is the hash of its input. -/
theorem tileRand_toNat (keccak256 : List Byte → Bytes32) (entropy : Bytes32) (i : Nat) :
    (tileRand keccak256 entropy i).toNat = (keccak256 (tileInput entropy i)).toNat % 255 :=
  BitVec.toNat_umod

/-- The step that dealt the card a player has now. -/
def lastDeal (p : Address) (g : Bytes32) (l : List (Step T)) : Option (Step T) :=
  l.reverse.find? fun e => e.sender = p ∧ e.enters g

theorem lastDeal_concat :
    lastDeal p g (l ++ [e]) = if e.sender = p ∧ e.enters g then some e else lastDeal p g l := by
  rw [lastDeal, List.reverse_append, List.reverse_singleton, List.singleton_append,
    List.find?_cons]
  by_cases he : e.sender = p ∧ e.enters g
  · simp [he]
  · simp [he, lastDeal]

/-- The block hash from which a player's card was dealt. -/
def dealtHash (p : Address) (g : Bytes32) (l : List (Step T)) : Option Bytes32 :=
  (lastDeal p g l).map fun e => e.block.entropy

/-- What was hashed for tile `i` of a player's card. -/
def cardInput (p : Address) (g : Bytes32) (l : List (Step T)) (i : Nat) : Option (List Byte) :=
  (dealtHash p g l).map fun entropy => tileInput entropy i

theorem dealtHash_concat :
    dealtHash p g (l ++ [e])
      = if e.sender = p ∧ e.enters g then some e.block.entropy else dealtHash p g l := by
  rw [dealtHash, lastDeal_concat]
  split <;> rfl

/-- Who was dealt a card was dealt it in some block. -/
theorem Dealt.dealtHash (hp : Dealt p g l) : ∃ entropy, dealtHash p g l = some entropy := by
  have hsome : (lastDeal p g l).isSome = true := by
    obtain ⟨e, he, hdeal⟩ := hp
    rw [lastDeal, List.find?_isSome]
    exact ⟨e, List.mem_reverse.mpr he, decide_eq_true hdeal⟩
  obtain ⟨e, he⟩ := Option.isSome_iff_exists.mp hsome
  exact ⟨e.block.entropy, by rw [BitmaskBingo.dealtHash, he, Option.map_some]⟩

-- ============================================================================
-- The card a player has
-- ============================================================================

/-- The numbers of a card are those of its last deal. -/
def DealInv (d : Deployment) (p : Address) (g : Bytes32) (l : List (Step T)) (s : Storage) : Prop :=
  ∀ entropy, dealtHash p g l = some entropy →
    (s.playerRegistry p g).numberStorage = dealtCard d.keccak256 entropy

theorem Steps.dealInv (h : Steps d w e w') (hinv : DealInv d p g l w.game) :
    DealInv d p g (l ++ [e]) w'.game := by
  intro entropy hhash
  rw [dealtHash_concat] at hhash
  have hcard := h.card p g
  generalize w'.game.playerRegistry p g = c at hcard
  cases hcard with
  | same hd =>
      rw [if_neg hd] at hhash
      exact hinv entropy hhash
  | dealt hp he =>
      rw [if_pos ⟨hp, he⟩] at hhash
      rw [← Option.some.inj hhash]
      rfl
  | marked hp he =>
      rw [if_neg fun hd => hd.2.not_marks he] at hhash
      exact hinv entropy hhash

theorem run_dealInv (hrun : WorldRun d (World.initial t₀) l w) (p : Address) (g : Bytes32) :
    DealInv d p g l w.game := by
  refine hrun.invariant (P := fun l w => DealInv d p g l w.game) ?_
    fun _ _ _ _ _ hinv hstep => hstep.dealInv hinv
  intro entropy hhash
  cases hhash

-- ============================================================================
-- Cards of one's own
-- ============================================================================

/-- No tile of the one card was hashed from the input of the same tile of the
    other. -/
def OwnInputs (p q : Address) (g : Bytes32) (l : List (Step T)) : Prop :=
  ∀ i < 25, cardInput p g l i ≠ cardInput q g l i

/-- Inputs differ as the block hashes do. -/
theorem ownInputs_iff (hp : Dealt p g l) (hq : Dealt q g l) :
    OwnInputs p q g l ↔ dealtHash p g l ≠ dealtHash q g l := by
  obtain ⟨entropy, hentropy⟩ := hp.dealtHash
  obtain ⟨entropy', hentropy'⟩ := hq.dealtHash
  have hinput : ∀ i, cardInput p g l i = some (tileInput entropy i) := fun i => by
    rw [cardInput, hentropy, Option.map_some]
  have hinput' : ∀ i, cardInput q g l i = some (tileInput entropy' i) := fun i => by
    rw [cardInput, hentropy', Option.map_some]
  rw [hentropy, hentropy']
  refine ⟨fun hown heq => ?_, fun hne i hi heq => ?_⟩
  · apply hown 0 (by decide)
    rw [hinput, hinput', Option.some.inj heq]
  · rw [hinput, hinput'] at heq
    exact hne (congrArg some (tileInput_inj (Option.some.inj heq)))

/-- Every tile of a card is the hash of its input. -/
theorem DealInv.tile {s : Storage} (h : DealInv d p g l s) (hp : Dealt p g l) {i : Nat}
    (hi : i < 25) : ∃ input, cardInput p g l i = some input ∧
      bucket (s.playerRegistry p g).numberStorage i = (d.keccak256 input).toNat % 255 := by
  obtain ⟨entropy, hentropy⟩ := hp.dealtHash
  refine ⟨tileInput entropy i, by rw [cardInput, hentropy, Option.map_some], ?_⟩
  rw [h entropy hentropy, bucket_dealtCard _ _ hi, tileRand_toNat]

/-- **Players get their own cards** exactly when their cards were dealt after
    blocks with different hashes; after the same hash they get the same card. -/
theorem own_cards_iff (hrun : WorldRun d (World.initial t₀) l w) (hp : Dealt p g l)
    (hq : Dealt q g l) :
    (OwnInputs p q g l ↔ dealtHash p g l ≠ dealtHash q g l) ∧
    (∀ r, Dealt r g l → ∀ i < 25, ∃ input, cardInput r g l i = some input ∧
      bucket (w.game.playerRegistry r g).numberStorage i = (d.keccak256 input).toNat % 255) ∧
    (¬ OwnInputs p q g l →
      (w.game.playerRegistry p g).numberStorage = (w.game.playerRegistry q g).numberStorage) := by
  refine ⟨ownInputs_iff hp hq, fun r hr i hi => (run_dealInv hrun r g).tile hr hi, fun hsame => ?_⟩
  have hhash : dealtHash p g l = dealtHash q g l := by
    by_contra hne
    exact hsame ((ownInputs_iff hp hq).mpr hne)
  obtain ⟨entropy, hentropy⟩ := hp.dealtHash
  rw [run_dealInv hrun p g entropy hentropy, run_dealInv hrun q g entropy (hhash ▸ hentropy)]

theorem own_cards_sample :
    dealtHash 17 Sample.gameId (Sample.played 6).1
      ≠ dealtHash 34 Sample.gameId (Sample.played 6).1 ∧
    (OwnInputs 17 34 Sample.gameId (Sample.played 6).1 ↔
      dealtHash 17 Sample.gameId (Sample.played 6).1
        ≠ dealtHash 34 Sample.gameId (Sample.played 6).1) :=
  ⟨by decide +kernel,
    (own_cards_iff (Sample.played_run 6) (by decide +kernel) (by decide +kernel)).1⟩

namespace Sample

/-- Player 34 joins in the block in which player 17 created the game. -/
def sameBlockTxs : List (Tx bingoToken) :=
  txs.take 5 ++ [⟨msg 34 1000 1, .game (.joinGame gameId)⟩]

end Sample

/-- Two players of one game are dealt the same card from the same inputs. -/
theorem same_block_same_card :
    ∃ l w, WorldRun Sample.deployment Sample.genesis l w ∧
      Dealt 17 Sample.gameId l ∧ Dealt 34 Sample.gameId l ∧ ¬ OwnInputs 17 34 Sample.gameId l ∧
      (w.game.playerRegistry 17 Sample.gameId).numberStorage
        = (w.game.playerRegistry 34 Sample.gameId).numberStorage := by
  have hrun : WorldRun Sample.deployment Sample.genesis
      (Sample.genesis.play Sample.deployment Sample.sameBlockTxs).1 _ := World.play_run ..
  refine ⟨_, _, hrun, by decide +kernel, by decide +kernel, fun hown => ?_, by decide +kernel⟩
  exact hown 0 (by decide) (by decide +kernel)

end BitmaskBingo
