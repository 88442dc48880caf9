/-
  BitmaskBingo.Refinement

  The contract with its packed words refines the plain game: read as plain
  cards and games, the contract accepts the same calls with the same answers,
  and its views show what the plain game holds.
-/

import BitmaskBingo.LifeCycle
import BitmaskBingo.PlainGame

namespace BitmaskBingo

open Lib StorageUtils

-- ============================================================================
-- Cards
-- ============================================================================

namespace PlainCard

/-- The card that a pair of words holds. -/
def ofWords (c : BingoCard) : PlainCard where
  numbers := cardTiles c.numberStorage
  hits := (List.range 25).map c.hitStorage.getLsbD
  numbers_length := cardTiles_length _
  hits_length := by simp

theorem deal_numbers (keccak256 : List Byte → Bytes32) (entropy : Bytes32) :
    (deal keccak256 entropy).numbers = dealtTiles keccak256 entropy := by
  rw [deal, dealtTiles]
  apply List.map_congr_left
  intro i _
  rw [tileRand, BitVec.toNat_umod]
  rfl

theorem cardTiles_dealtCard (keccak256 : List Byte → Bytes32) (entropy : Bytes32) :
    cardTiles (dealtCard keccak256 entropy) = dealtTiles keccak256 entropy := by
  rw [cardTiles, dealtTiles]
  apply List.map_congr_left
  intro i hi
  exact bucket_dealtCard keccak256 entropy (List.mem_range.mp hi)

theorem ofWords_newCard (d : Deployment) (block : Block) :
    ofWords (newCard d block) = deal d.keccak256 block.entropy := by
  ext1
  · rw [deal_numbers]
    exact cardTiles_dealtCard d.keccak256 block.entropy
  · show (List.range 25).map (4096 : Uint32).getLsbD = (List.range 25).map fun i => decide (i = 12)
    decide

theorem ofWords_marked (c : BingoCard) {n : Nat} (hn : n ∈ cardTiles c.numberStorage) :
    ofWords (c.marked n) = (ofWords c).mark n := by
  have hidx := List.idxOf_lt_length_of_mem hn
  rw [cardTiles_length] at hidx
  ext1
  · rfl
  · show (List.range 25).map (setBitValueByIndex c.hitStorage _).getLsbD
      = ((List.range 25).map c.hitStorage.getLsbD).set _ true
    apply List.ext_getElem
    · simp
    · intro i hi _
      rw [List.getElem_set, List.getElem_map, List.getElem_map, List.getElem_range,
        setBitValueByIndex_getLsbD _ (by omega)]
      by_cases heq : (cardTiles c.numberStorage).idxOf n = i
      · simp [heq, ofWords]
      · simp [heq, ofWords]

theorem ofWords_hit (c : BingoCard) {i : Nat} (hi : i < 25) :
    (ofWords c).hits.getD i false = c.hitStorage.getLsbD i := by
  rw [List.getD_eq_getElem _ _ (by rw [(ofWords c).hits_length]; exact hi)]
  simp [ofWords]

/-- A plain card wins when its words do. -/
theorem wins_ofWords (c : BingoCard) :
    (ofWords c).wins = checkForBingo winningBingoMasks c.hitStorage := by
  rw [Bool.eq_iff_iff, checkForBingo_iff, wins, List.any_eq_true]
  refine ⟨?_, ?_⟩
  · rintro ⟨ℓ, -, hall⟩
    rw [List.all_eq_true] at hall
    refine ⟨ℓ, fun k => ?_⟩
    rw [← ofWords_hit c (ℓ.tile_lt k)]
    exact hall k (List.mem_finRange k)
  · rintro ⟨ℓ, hhit⟩
    refine ⟨ℓ, ℓ.mem_all, ?_⟩
    rw [List.all_eq_true]
    intro k _
    rw [ofWords_hit c (ℓ.tile_lt k)]
    exact hhit k

end PlainCard

-- ============================================================================
-- The abstraction
-- ============================================================================

/-- A record stands for a game when it was created. -/
def Game.plain (game : Game) : Option Game := if game.createdAt = 0 then none else some game

/-- A pair of words stands for a card when it was dealt. -/
def BingoCard.plain (c : BingoCard) : Option PlainCard :=
  if c.numberStorage = 0 then none else some (.ofWords c)

/-- The plain game that the storage of the contract and a token hold. -/
def Storage.plain (s : Storage) (t : BingoToken) : PlainGame where
  settings := s.gameSettings
  games g := (s.gameRegistry g).plain
  cards p g := (s.playerRegistry p g).plain
  token := t

/-- The plain game of a world. -/
def World.plain (w : World bingoToken) : PlainGame := w.game.plain w.token

section Abstraction

variable {s : Storage} {t : BingoToken} {g : Bytes32} {p : Address}

theorem Game.plain_eq_some {game game' : Game} :
    game.plain = some game' ↔ game.createdAt ≠ 0 ∧ game = game' := by
  by_cases h : game.createdAt = 0
  · rw [Game.plain, if_pos h]
    exact ⟨fun hn => (by cases hn), fun hn => absurd h hn.1⟩
  · rw [Game.plain, if_neg h, Option.some.injEq]
    exact ⟨fun heq => ⟨h, heq⟩, fun heq => heq.2⟩

theorem Game.plain_isNone {game : Game} : game.plain.isNone = true ↔ game.createdAt = 0 := by
  by_cases h : game.createdAt = 0
  · rw [Game.plain, if_pos h]
    exact ⟨fun _ => h, fun _ => rfl⟩
  · rw [Game.plain, if_neg h]
    exact ⟨fun hn => (by cases hn), fun hn => absurd hn h⟩

theorem BingoCard.plain_eq_some {c : BingoCard} {card : PlainCard} :
    c.plain = some card ↔ c.numberStorage ≠ 0 ∧ .ofWords c = card := by
  by_cases h : c.numberStorage = 0
  · rw [BingoCard.plain, if_pos h]
    exact ⟨fun hn => (by cases hn), fun hn => absurd h hn.1⟩
  · rw [BingoCard.plain, if_neg h, Option.some.injEq]
    exact ⟨fun heq => ⟨h, heq⟩, fun heq => heq.2⟩

theorem plain_setGame {a : Game} (ha : a.createdAt ≠ 0) :
    (s.setGame g a).plain t = (s.plain t).setGame g a := by
  refine PlainGame.ext rfl ?_ rfl rfl
  funext g'
  show ((s.setGame g a).gameRegistry g').plain
    = Function.update (s.plain t).games g (some a) g'
  rw [Storage.setGame_gameRegistry, Function.update_apply]
  by_cases hg : g' = g
  · rw [if_pos hg, if_pos hg]
    exact Game.plain_eq_some.mpr ⟨ha, rfl⟩
  · rw [if_neg hg, if_neg hg]
    rfl

theorem plain_setCard {c : BingoCard} (hc : c.numberStorage ≠ 0) :
    (s.setCard p g c).plain t = (s.plain t).setCard p g (.ofWords c) := by
  refine PlainGame.ext rfl rfl ?_ rfl
  funext p' g'
  show ((s.setCard p g c).playerRegistry p' g').plain
    = Function.update (s.plain t).cards p
        (Function.update ((s.plain t).cards p) g (some (.ofWords c))) p' g'
  rw [Storage.setCard_playerRegistry, Function.update_apply]
  by_cases hpg : p' = p ∧ g' = g
  · obtain ⟨rfl, rfl⟩ := hpg
    rw [if_pos ⟨rfl, rfl⟩, if_pos rfl, Function.update_self]
    exact BingoCard.plain_eq_some.mpr ⟨hc, rfl⟩
  · rw [if_neg hpg]
    by_cases hp : p' = p
    · subst hp
      rw [if_pos rfl, Function.update_of_ne fun hg => hpg ⟨rfl, hg⟩]
      rfl
    · rw [if_neg hp]
      rfl

theorem found_bind {α β : Type} {m : String} {o : Option α} {f : α → Except Revert β} {b : β} :
    (PlainGame.found m o >>= f) = .ok b ↔ ∃ a, o = some a ∧ f a = .ok b := by
  cases o with
  | none => simp [PlainGame.found, bind, Except.bind]
  | some a => simp [PlainGame.found, bind, Except.bind]

end Abstraction

-- ============================================================================
-- When the plain functions succeed
-- ============================================================================

section Plain

variable {d : Deployment} {msg : Msg} {s : Storage} {t : BingoToken} {g : Bytes32}
  {a : PlainGame × Returned}

theorem plain_player_bind {α : Type} {f : Game × PlainCard → Except Revert α} {b : α} :
    ((s.plain t).player msg g >>= f) = .ok b ↔
      s.OnlyPlayer msg.sender g ∧
        f (s.gameRegistry g, .ofWords (s.playerRegistry msg.sender g)) = .ok b := by
  rw [bind_eq_ok]
  simp only [PlainGame.player, Storage.plain, require_bind, found_bind, Game.plain_eq_some,
    BingoCard.plain_eq_some, pure, Except.pure, Except.ok.injEq]
  refine ⟨?_, ?_⟩
  · rintro ⟨_, ⟨_, ⟨hex, rfl⟩, hover, _, ⟨hmember, rfl⟩, rfl⟩, hf⟩
    exact ⟨⟨hex, hover, hmember⟩, hf⟩
  · rintro ⟨⟨hex, hover, hmember⟩, hf⟩
    exact ⟨_, ⟨_, ⟨hex, rfl⟩, hover, _, ⟨hmember, rfl⟩, rfl⟩, hf⟩

theorem plain_createGame_iff :
    (s.plain t).createGame d msg = .ok a ↔
      ∃ t', t.transferFrom d.this msg.sender d.this s.gameSettings.entryFee = .ok t' ∧
        msg.block.number ≠ 0 ∧ (s.gameRegistry (newGameId d msg)).createdAt = 0 ∧
        (((s.plain t').setGame (newGameId d msg) (newGame msg s.gameSettings.entryFee)).setCard
          msg.sender (newGameId d msg) (.deal d.keccak256 msg.block.entropy),
          Returned.gameId (newGameId d msg)) = a := by
  rw [PlainGame.createGame, bind_eq_ok]
  simp only [Block.previousBlockhash_bind, require_bind, Storage.plain, Game.plain_isNone, pure,
    Except.pure, Except.ok.injEq]
  rfl

theorem plain_joinGame_iff :
    (s.plain t).joinGame d msg g = .ok a ↔
      s.JoinOpen msg.block.timestamp g ∧
      ∃ t', t.transferFrom d.this msg.sender d.this s.gameSettings.entryFee = .ok t' ∧
        (s.gameRegistry g).prizePool.toNat + (uint64 s.gameSettings.entryFee).toNat < 2 ^ 64 ∧
        msg.block.number ≠ 0 ∧
        (((s.plain t').setGame g { s.gameRegistry g with
            prizePool := (s.gameRegistry g).prizePool + uint64 s.gameSettings.entryFee }).setCard
          msg.sender g (.deal d.keccak256 msg.block.entropy), Returned.unit) = a := by
  rw [PlainGame.joinGame, found_bind]
  simp only [checkedAdd_bind, require_bind, Storage.plain, Game.plain_eq_some]
  refine ⟨?_, ?_⟩
  · rintro ⟨_, ⟨hex, rfl⟩, hfits, hbefore, hrest⟩
    obtain ⟨hfits', hbefore'⟩ := before_deadline_iff.mp ⟨hfits, hbefore⟩
    obtain ⟨t', ht', hrest⟩ := bind_eq_ok.mp hrest
    obtain ⟨hpot, hrest⟩ := checkedAdd_bind.mp hrest
    obtain ⟨hblock, hrest⟩ := Block.previousBlockhash_bind.mp hrest
    exact ⟨⟨hex, hfits', hbefore'⟩, t', ht', hpot, hblock, Except.ok.inj hrest⟩
  · rintro ⟨hopen, t', ht', hpot, hblock, ha⟩
    obtain ⟨hfits, hbefore⟩ := before_deadline_iff.mpr ⟨hopen.fits, hopen.before⟩
    refine ⟨_, ⟨hopen.exists_, rfl⟩, hfits, hbefore, bind_eq_ok.mpr ⟨t', ht', ?_⟩⟩
    refine checkedAdd_bind.mpr ⟨hpot, Block.previousBlockhash_bind.mpr ⟨hblock, ?_⟩⟩
    exact congrArg Except.ok ha

theorem plain_drawNumber_iff :
    (s.plain t).drawNumber d msg g = .ok a ↔
      s.OnlyPlayer msg.sender g ∧ s.DrawOpen msg.block.timestamp g ∧ msg.block.number ≠ 0 ∧
        ((s.plain t).setGame g ((s.gameRegistry g).drawn d msg.block), Returned.unit) = a := by
  rw [PlainGame.drawNumber, plain_player_bind]
  refine ⟨?_, ?_⟩
  · rintro ⟨hplayer, hrest⟩
    obtain ⟨hfits, hrest⟩ := checkedAdd_bind.mp hrest
    obtain ⟨hjoined, hrest⟩ := require_bind.mp hrest
    obtain ⟨hfits', hrest⟩ := checkedAdd_bind.mp hrest
    obtain ⟨hturned, hrest⟩ := require_bind.mp hrest
    obtain ⟨hblock, hrest⟩ := Block.previousBlockhash_bind.mp hrest
    have hopen : s.DrawOpen msg.block.timestamp g :=
      ⟨after_deadline_iff.mp ⟨hfits, hjoined⟩, after_deadline_iff.mp ⟨hfits', hturned⟩⟩
    exact ⟨hplayer, hopen, hblock, Except.ok.inj hrest⟩
  · rintro ⟨hplayer, hopen, hblock, ha⟩
    obtain ⟨hfits, hjoined⟩ := after_deadline_iff.mpr hopen.joined
    obtain ⟨hfits', hturned⟩ := after_deadline_iff.mpr hopen.turned
    refine ⟨hplayer, checkedAdd_bind.mpr ⟨hfits, require_bind.mpr ⟨hjoined, ?_⟩⟩⟩
    refine checkedAdd_bind.mpr ⟨hfits', require_bind.mpr ⟨hturned, ?_⟩⟩
    exact Block.previousBlockhash_bind.mpr ⟨hblock, congrArg Except.ok ha⟩

theorem plain_markNumberOnCard_iff :
    (s.plain t).markNumberOnCard msg g = .ok a ↔
      s.OnlyPlayer msg.sender g ∧
      (s.gameRegistry g).lastDrawnNumber.toNat
        ∈ cardTiles (s.playerRegistry msg.sender g).numberStorage ∧
      ((s.plain t).setCard msg.sender g ((PlainCard.ofWords (s.playerRegistry msg.sender g)).mark
        (s.gameRegistry g).lastDrawnNumber.toNat), Returned.unit) = a := by
  rw [PlainGame.markNumberOnCard, plain_player_bind]
  simp only [require_bind, pure, Except.pure, Except.ok.injEq]
  rfl

theorem plain_claimPrize_iff :
    (s.plain t).claimPrize d msg g = .ok a ↔
      s.OnlyPlayer msg.sender g ∧ s.checkForWinner msg.sender g = true ∧
      ∃ t₁ t₂, t.approve d.this d.this (uint256 (s.gameRegistry g).prizePool) = .ok t₁ ∧
        t₁.transferFrom d.this d.this msg.sender (uint256 (s.gameRegistry g).prizePool)
          = .ok t₂ ∧
        ((s.plain t₂).setGame g (s.gameRegistry g).finished, Returned.success true) = a := by
  rw [PlainGame.claimPrize, plain_player_bind]
  simp only [require_bind, PlainCard.wins_ofWords]
  refine ⟨?_, ?_⟩
  · rintro ⟨hplayer, hwin, hrest⟩
    obtain ⟨t₁, ht₁, hrest⟩ := bind_eq_ok.mp hrest
    obtain ⟨t₂, ht₂, hrest⟩ := bind_eq_ok.mp hrest
    exact ⟨hplayer, hwin, t₁, t₂, ht₁, ht₂, Except.ok.inj hrest⟩
  · rintro ⟨hplayer, hwin, t₁, t₂, ht₁, ht₂, ha⟩
    refine ⟨hplayer, hwin, bind_eq_ok.mpr ⟨t₁, ht₁, bind_eq_ok.mpr ⟨t₂, ht₂, ?_⟩⟩⟩
    exact congrArg Except.ok ha

theorem plain_updateSettings_iff {settings : GlobalGameSettings} :
    (s.plain t).updateSettings d msg settings = .ok a ↔
      msg.sender = d.owner ∧
        ({ s with gameSettings := settings }.plain t, Returned.unit) = a := by
  simp only [PlainGame.updateSettings, require_bind, pure, Except.pure, Except.ok.injEq]
  rfl

end Plain

-- ============================================================================
-- Single calls
-- ============================================================================

/-- Both card words are zero or neither is. -/
def CardsAgree (s : Storage) : Prop :=
  ∀ p g, (s.playerRegistry p g).numberStorage = 0 ↔ (s.playerRegistry p g).hitStorage = 0

section Calls

variable {d : Deployment} {w w' : World bingoToken} {tx : Tx bingoToken} {r : Returned}

/-- What the contract accepts, the plain game accepts, with the same answer
    and the corresponding state. -/
theorem plain_accepts (h : w.exec d tx = .ok (w', r))
    (ht : uint64 tx.msg.block.timestamp ≠ 0)
    (hdeal : (Step.mk w tx r w').deals →
      dealtCard d.keccak256 (Step.mk w tx r w').block.entropy ≠ 0) :
    w.plain.exec d tx = .ok (w'.plain, r) := by
  obtain ⟨msg, act⟩ := tx
  obtain ⟨s, t⟩ := w
  obtain ⟨s', t'⟩ := w'
  cases act with
  | token op =>
      obtain ⟨hop, rfl, rfl⟩ := World.exec_token_iff.mp h
      exact bind_eq_ok.mpr ⟨t', hop, rfl⟩
  | game c =>
      obtain ⟨heff, hcalls⟩ := World.exec_game_iff.mp h
      show (s.plain t).call d msg c = .ok (s'.plain t', r)
      simp only at heff hcalls
      cases heff with
      | createGame hblock hnew =>
          have hcall := runCalls_singleton.mp hcalls
          have hnumber := hdeal trivial
          refine plain_createGame_iff.mpr ⟨_, hcall, hblock, hnew, ?_⟩
          rw [plain_setCard (c := newCard d msg.block) hnumber, plain_setGame ht,
            PlainCard.ofWords_newCard]
      | @joinGame g pot hopen hpot hblock =>
          have hcall := runCalls_singleton.mp hcalls
          have hnumber := hdeal trivial
          obtain ⟨hfits, hsum⟩ := toNat_eq_add_iff.mp hpot
          refine plain_joinGame_iff.mpr ⟨hopen, _, hcall, hfits, hblock, ?_⟩
          rw [hsum, plain_setCard (c := newCard d msg.block) hnumber,
            plain_setGame (a := { s.gameRegistry g with prizePool := pot }) hopen.exists_,
            PlainCard.ofWords_newCard]
      | @drawNumber g hplayer hopen hblock =>
          obtain rfl : t = t' := Except.ok.inj hcalls
          refine plain_drawNumber_iff.mpr ⟨hplayer, hopen, hblock, ?_⟩
          rw [plain_setGame (a := (s.gameRegistry g).drawn d msg.block) hplayer.exists_]
      | markNumberOnCard hplayer hmem =>
          obtain rfl : t = t' := Except.ok.inj hcalls
          refine plain_markNumberOnCard_iff.mpr ⟨hplayer, hmem, ?_⟩
          rw [plain_setCard (c := (s.playerRegistry msg.sender _).marked _) hplayer.member,
            PlainCard.ofWords_marked _ hmem]
      | @claimPrize g hplayer hwin =>
          simp only [tokenCalls, runCalls_cons_eq_ok, runCalls_nil, Except.ok.injEq] at hcalls
          obtain ⟨t₁, hcall₁, t₂, hcall₂, rfl⟩ := hcalls
          refine plain_claimPrize_iff.mpr ⟨hplayer, hwin, t₁, _, hcall₁, hcall₂, ?_⟩
          rw [plain_setGame (a := (s.gameRegistry g).finished) hplayer.exists_]
      | updateEntryFee howner =>
          obtain rfl : t = t' := Except.ok.inj hcalls
          exact plain_updateSettings_iff.mpr ⟨howner, rfl⟩
      | updateJoinDuration howner =>
          obtain rfl : t = t' := Except.ok.inj hcalls
          exact plain_updateSettings_iff.mpr ⟨howner, rfl⟩
      | updateUpdateTurnDuration howner =>
          obtain rfl : t = t' := Except.ok.inj hcalls
          exact plain_updateSettings_iff.mpr ⟨howner, rfl⟩

/-- What the plain game accepts, the contract accepts. -/
theorem plain_refuses {a : PlainGame × Returned} (h : w.plain.exec d tx = .ok a) :
    ∃ b, w.exec d tx = .ok b := by
  obtain ⟨msg, act⟩ := tx
  obtain ⟨s, t⟩ := w
  cases act with
  | token op =>
      obtain ⟨t', hop, -⟩ := bind_eq_ok.mp h
      exact ⟨(⟨s, t'⟩, .unit), World.exec_token_iff.mpr ⟨hop, rfl, rfl⟩⟩
  | game c =>
      have hexec : ∀ {r s' t'}, Effect d msg s c r s' →
          runCalls (bingoToken.callee d msg) (tokenCalls d msg s c) t = .ok t' →
          ∃ b, (World.mk s t : World bingoToken).exec d ⟨msg, .game c⟩ = .ok b :=
        fun heff hcalls => ⟨(⟨_, _⟩, _), World.exec_game_iff.mpr ⟨heff, hcalls⟩⟩
      have hcall : (s.plain t).call d msg c = .ok a := h
      cases c with
      | createGame =>
          obtain ⟨t', ht', hblock, hnew, -⟩ := plain_createGame_iff.mp hcall
          exact hexec (.createGame hblock hnew) (runCalls_cons_eq_ok.mpr ⟨t', ht', rfl⟩)
      | joinGame g =>
          obtain ⟨hopen, t', ht', hpot, hblock, -⟩ := plain_joinGame_iff.mp hcall
          have hsum := toNat_eq_add_iff.mpr ⟨hpot, rfl⟩
          exact hexec (.joinGame hopen hsum hblock) (runCalls_cons_eq_ok.mpr ⟨t', ht', rfl⟩)
      | drawNumber g =>
          obtain ⟨hplayer, hopen, hblock, -⟩ := plain_drawNumber_iff.mp hcall
          exact hexec (.drawNumber hplayer hopen hblock) rfl
      | markNumberOnCard g =>
          obtain ⟨hplayer, hmem, -⟩ := plain_markNumberOnCard_iff.mp hcall
          exact hexec (.markNumberOnCard hplayer hmem) rfl
      | claimPrize g =>
          obtain ⟨hplayer, hwin, t₁, t₂, ht₁, ht₂, -⟩ := plain_claimPrize_iff.mp hcall
          exact hexec (.claimPrize hplayer hwin)
            (runCalls_cons_eq_ok.mpr ⟨t₁, ht₁, runCalls_cons_eq_ok.mpr ⟨t₂, ht₂, rfl⟩⟩)
      | updateEntryFee fee =>
          exact hexec (.updateEntryFee (plain_updateSettings_iff.mp hcall).1) rfl
      | updateJoinDuration v =>
          exact hexec (.updateJoinDuration (plain_updateSettings_iff.mp hcall).1) rfl
      | updateUpdateTurnDuration v =>
          exact hexec (.updateUpdateTurnDuration (plain_updateSettings_iff.mp hcall).1) rfl

/-- Marking and dealing keep the two card words together. -/
theorem Steps.cardsAgree {e : Step bingoToken} (h : Steps d w e w') (hinv : CardsAgree w.game)
    (hdeal : e.deals → dealtCard d.keccak256 e.block.entropy ≠ 0) : CardsAgree w'.game := by
  intro p g
  have hcard := h.card p g
  generalize w'.game.playerRegistry p g = c at hcard
  cases hcard with
  | same => exact hinv p g
  | dealt hp he =>
      exact ⟨fun hzero => absurd hzero (hdeal he.deals),
        fun hzero => absurd hzero (by decide : (4096 : Uint32) ≠ 0)⟩
  | marked hp he hplayer hmem =>
      refine ⟨fun hzero => absurd hzero hplayer.member, fun hzero => ?_⟩
      have hhits : (w.game.playerRegistry p g).hitStorage ≠ 0 := fun h =>
        hplayer.member ((hinv p g).mpr h)
      refine absurd (BitVec.eq_of_getLsbD_eq fun i hi => ?_) hhits
      have hidx := List.idxOf_lt_length_of_mem hmem
      rw [cardTiles_length] at hidx
      have hbit := setBitValueByIndex_getLsbD (w.game.playerRegistry p g).hitStorage
        (by omega : (cardTiles (w.game.playerRegistry p g).numberStorage).idxOf
          (w.game.gameRegistry g).lastDrawnNumber.toNat < 32) i
      rw [show setBitValueByIndex _ _ = (0 : Uint32) from hzero] at hbit
      have hzero_bit : (0 : Uint32).getLsbD i = false := BitVec.getLsbD_zero
      rw [hzero_bit] at hbit ⊢
      exact (Bool.or_eq_false_iff.mp hbit.symm).1

end Calls

-- ============================================================================
-- Whole runs
-- ============================================================================

def Tx.ValidTime (tx : Tx bingoToken) : Prop := tx.msg.block.ValidTime

instance (tx : Tx bingoToken) : Decidable tx.ValidTime :=
  inferInstanceAs (Decidable tx.msg.block.ValidTime)

/-- The contract and the plain game show the same. -/
structure ViewsAgree (s : Storage) (r : PlainGame) : Prop where
  cardNumbers : ∀ p g, s.getPlayerCardNumbersForGame p g
    = .ok ((r.cardNumbers p g).map (BitVec.ofNat 256))
  bingoCard : ∀ p g, s.getPlayerBingoCardForGame p g
    = .ok ((r.cardNumbers p g).map (BitVec.ofNat 256),
        (r.cardHits p g).map (fun hit => if hit then 1 else 0),
        (s.playerRegistry p g).numberStorage, (s.playerRegistry p g).hitStorage)
  hasPlayer : ∀ p g, s.checkGameHasPlayer p g = r.hasPlayer p g
  winner : ∀ p g, s.checkForWinner p g = r.isWinner p g
  game : ∀ g, s.getGameById g = r.gameById g

section Views

variable {s : Storage} {t : BingoToken}

theorem plain_cardNumbers (p : Address) (g : Bytes32) :
    (s.plain t).cardNumbers p g = cardTiles (s.playerRegistry p g).numberStorage := by
  show (((s.playerRegistry p g).plain).map PlainCard.numbers).getD _ = _
  by_cases h : (s.playerRegistry p g).numberStorage = 0
  · rw [BingoCard.plain, if_pos h, h]
    decide
  · rw [BingoCard.plain, if_neg h]
    rfl

theorem plain_cardHits (hinv : CardsAgree s) (p : Address) (g : Bytes32) :
    (s.plain t).cardHits p g = (List.range 25).map (s.playerRegistry p g).hitStorage.getLsbD := by
  show (((s.playerRegistry p g).plain).map PlainCard.hits).getD _ = _
  by_cases h : (s.playerRegistry p g).numberStorage = 0
  · rw [BingoCard.plain, if_pos h, (hinv p g).mp h]
    decide
  · rw [BingoCard.plain, if_neg h]
    rfl

theorem getHitsArrayForCard_eq (hits : Uint32) :
    getHitsArrayForCard hits
      = ((List.range 25).map hits.getLsbD).map fun hit => if hit then 1 else 0 := by
  rw [getHitsArrayForCard, List.map_map]
  apply List.map_congr_left
  intro i hi
  have hi25 : i < 25 := List.mem_range.mp hi
  exact getBitValueByIndex_eq hits (by omega)

theorem plain_views (hinv : CardsAgree s) : ViewsAgree s (s.plain t) where
  cardNumbers p g := by
    rw [plain_cardNumbers, cardTiles, List.map_map]
    exact getNumbersArrayForCard_eq _
  bingoCard p g := by
    rw [plain_cardNumbers, plain_cardHits hinv, cardTiles, List.map_map,
      Storage.getPlayerBingoCardForGame, getNumbersArrayForCard_eq, getHitsArrayForCard_eq]
    rfl
  hasPlayer p g := by
    show decide ((s.playerRegistry p g).hitStorage > 0) = (s.playerRegistry p g).plain.isSome
    by_cases h : (s.playerRegistry p g).numberStorage = 0
    · rw [BingoCard.plain, if_pos h, (hinv p g).mp h]
      rfl
    · rw [BingoCard.plain, if_neg h]
      exact decide_eq_true (pos_iff_ne_zero.mpr fun hz => h ((hinv p g).mpr hz))
  winner p g := by
    show checkForBingo winningBingoMasks (s.playerRegistry p g).hitStorage
      = ((s.playerRegistry p g).plain.map PlainCard.wins).getD false
    by_cases h : (s.playerRegistry p g).numberStorage = 0
    · rw [BingoCard.plain, if_pos h, (hinv p g).mp h]
      decide
    · rw [BingoCard.plain, if_neg h]
      exact (PlainCard.wins_ofWords _).symm
  game g := by
    rw [Storage.getGameById, PlainGame.gameById]
    by_cases h : (s.gameRegistry g).createdAt = 0
    · have hnone : (s.plain t).games g = none := by
        show (s.gameRegistry g).plain = none
        rw [Game.plain, if_pos h]
      have hpos : ¬ (s.gameRegistry g).createdAt > 0 := fun hpos => pos_iff_ne_zero.mp hpos h
      simp only [hnone, require, if_neg hpos]
      rfl
    · have hsome : (s.plain t).games g = some (s.gameRegistry g) :=
        Game.plain_eq_some.mpr ⟨h, rfl⟩
      have hpos : (s.gameRegistry g).createdAt > 0 := pos_iff_ne_zero.mpr h
      simp only [hsome, require, if_pos hpos]
      rfl

end Views

section Runs

variable {d : Deployment} {w : World bingoToken} {txs : List (Tx bingoToken)}

/-- The runs about which the refinement speaks: valid times, and no dealt card
    of 25 zeros. -/
structure GoodRun (d : Deployment) (w : World bingoToken) (txs : List (Tx bingoToken)) : Prop where
  agree : CardsAgree w.game
  time : ∀ tx ∈ txs, tx.ValidTime
  deals : NoZeroDeal d (w.play d txs).1

theorem NoZeroDeal.head {e : Step bingoToken} {l : List (Step bingoToken)}
    (h : NoZeroDeal d (e :: l)) (hd : e.deals) : dealtCard d.keccak256 e.block.entropy ≠ 0 :=
  (dealtCard_ne_zero_iff d.keccak256 e.block.entropy).mpr (h e (List.mem_cons_self ..) hd)

theorem plain_refines (d : Deployment) :
    Refines (World.exec d) (PlainGame.exec d) World.plain (GoodRun d) where
  accepts := by
    intro w tx txs w' r hgood hexec
    have hdeals := hgood.deals
    rw [World.play_cons_ok hexec] at hdeals
    exact plain_accepts hexec (hgood.time tx (List.mem_cons_self ..)).uint64_ne_zero
      hdeals.head
  refuses _ h := plain_refuses h
  good_ok := by
    intro w tx txs w' r hgood hexec
    have hdeals := hgood.deals
    rw [World.play_cons_ok hexec] at hdeals
    have hstep : Steps d w ⟨w, tx, r, w'⟩ w' := ⟨rfl, rfl, hexec⟩
    exact ⟨hstep.cardsAgree hgood.agree hdeals.head,
      fun tx' h => hgood.time tx' (List.mem_cons_of_mem _ h),
      fun e he => hdeals e (List.mem_cons_of_mem _ he)⟩
  good_error := by
    intro w tx txs e hgood hexec
    have hdeals := hgood.deals
    rw [World.play_cons_error hexec] at hdeals
    exact ⟨hgood.agree, fun tx' h => hgood.time tx' (List.mem_cons_of_mem _ h), hdeals⟩

theorem GoodRun.agree_after (h : GoodRun d w txs) :
    CardsAgree (serve (World.exec d) w txs).2.game := by
  induction txs generalizing w with
  | nil => exact h.agree
  | cons tx txs ih =>
      cases hexec : w.exec d tx with
      | error e =>
          rw [serve_cons_error hexec]
          exact ih ((plain_refines d).good_error h hexec)
      | ok a =>
          obtain ⟨w', r⟩ := a
          rw [serve_cons_ok hexec]
          exact ih ((plain_refines d).good_ok h hexec)

/-- **The bit-packed game refines the plain game.**  Given the same
    transactions, both accept the same ones with the same answers, and show
    the same afterwards. -/
theorem bit_packed_refines_plain (d : Deployment) (t : BingoToken) (txs : List (Tx bingoToken))
    (ht : ∀ tx ∈ txs, tx.ValidTime)
    (hdeal : NoZeroDeal d ((World.initial t : World bingoToken).play d txs).1) :
    (serve (PlainGame.exec d) (PlainGame.initial t) txs).1
        = (serve (World.exec d) (World.initial t) txs).1 ∧
      ViewsAgree (serve (World.exec d) (World.initial t : World bingoToken) txs).2.game
        (serve (PlainGame.exec d) (PlainGame.initial t) txs).2 := by
  have hgood : GoodRun d (World.initial t) txs :=
    ⟨fun _ _ => ⟨fun _ => rfl, fun _ => rfl⟩, ht, hdeal⟩
  have hinit : (World.initial t : World bingoToken).plain = PlainGame.initial t := rfl
  rw [← hinit, (plain_refines d).serve hgood]
  exact ⟨rfl, plain_views hgood.agree_after⟩

theorem bit_packed_refines_plain_sample :
    (serve (World.exec Sample.deployment) Sample.genesis Sample.txs).1.length = 15 ∧
    (serve (PlainGame.exec Sample.deployment) (PlainGame.initial (BingoToken.deployed 0xa1))
        Sample.txs).1
      = (serve (World.exec Sample.deployment) Sample.genesis Sample.txs).1 :=
  ⟨by decide +kernel,
    (bit_packed_refines_plain Sample.deployment (BingoToken.deployed 0xa1) Sample.txs
      (by decide +kernel) (by decide +kernel)).1⟩

end Runs

end BitmaskBingo
