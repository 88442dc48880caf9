/-
  BitmaskBingo.Segments

  The functions of the contract between their external calls.  One lemma a
  function says what its code does, check by check: with which guard it goes
  on, what it writes, which call it makes and what is left of it then.  The
  two functions that charge a fee are described from an arbitrary storage at
  the return of the call, so the same lemmas serve a token that calls back.
-/

import BitmaskBingo.Effect

namespace BitmaskBingo

open Lib StorageUtils
open Lib.Code (sstore)

variable {d : Deployment} {msg : Msg} {s : Storage} {g : Bytes32}

-- ============================================================================
-- The modifier and the deadlines
-- ============================================================================

/-- The reverts of the modifier `onlyPlayer`. -/
def onlyPlayerReverts : List Revert :=
  [.error "Game does not exist", .error "Game is over", .error "Not a member of this game"]

theorem onlyPlayer_ok (h : s.OnlyPlayer msg.sender g) : onlyPlayer msg g s = .done s () := by
  have h1 : 0#64 < (s.gameRegistry g).createdAt := pos_iff_ne_zero.mpr h.exists_
  have h2 : 0#256 < (s.playerRegistry msg.sender g).numberStorage := pos_iff_ne_zero.mpr h.member
  have h3 : ¬ (s.gameRegistry g).lastDrawnNumber = 1000#64 := h.not_over
  simp [onlyPlayer, require, h1, h2, h3]

theorem onlyPlayer_error (h : ¬ s.OnlyPlayer msg.sender g) :
    ∃ e ∈ onlyPlayerReverts, onlyPlayer msg g s = .revert e := by
  by_cases h1 : 0#64 < (s.gameRegistry g).createdAt
  · by_cases h3 : (s.gameRegistry g).lastDrawnNumber = 1000#64
    · exact ⟨.error "Game is over", by simp [onlyPlayerReverts],
        by simp [onlyPlayer, require, h1, h3]⟩
    · by_cases h2 : 0#256 < (s.playerRegistry msg.sender g).numberStorage
      · exact absurd ⟨pos_iff_ne_zero.mp h1, h3, pos_iff_ne_zero.mp h2⟩ h
      · exact ⟨.error "Not a member of this game", by simp [onlyPlayerReverts],
          by simp [onlyPlayer, require, h1, h2, h3]⟩
  · exact ⟨.error "Game does not exist", by simp [onlyPlayerReverts],
      by simp [onlyPlayer, require, h1]⟩

/-- `createdAt + duration` when it fits. -/
private theorem deadline_toNat {a : Uint64} {b : Uint256} (h : a.toNat + b.toNat < 2 ^ 256) :
    checkedAdd (uint256 a) b = .ok (uint256 a + b) ∧
      (uint256 a + b).toNat = a.toNat + b.toNat := by
  rw [← uint256_toNat_uint64 a] at h ⊢
  exact ⟨checkedAdd_ok h, by rw [BitVec.toNat_add, Nat.mod_eq_of_lt h]⟩

/-- A deadline the clock is past is a sum that fits and is below the clock. -/
private theorem deadline_passed {a : Uint64} {b t : Uint256} (h : a.toNat + b.toNat < t.toNat) :
    checkedAdd (uint256 a) b = .ok (uint256 a + b) ∧ uint256 a + b < t := by
  obtain ⟨hok, hsum⟩ := deadline_toNat (Nat.lt_trans h t.isLt)
  exact ⟨hok, by rw [BitVec.lt_def, hsum]; exact h⟩

/-- Otherwise the sum overflows, or the clock has not passed it. -/
private theorem deadline_pending {a : Uint64} {b t : Uint256}
    (h : ¬ a.toNat + b.toNat < t.toNat) :
    checkedAdd (uint256 a) b = .error arithmeticPanic ∨
      (checkedAdd (uint256 a) b = .ok (uint256 a + b) ∧ ¬ uint256 a + b < t) := by
  by_cases hfits : a.toNat + b.toNat < 2 ^ 256
  · obtain ⟨hok, hsum⟩ := deadline_toNat hfits
    exact Or.inr ⟨hok, by rw [BitVec.lt_def, hsum]; exact h⟩
  · rw [← uint256_toNat_uint64 a] at hfits
    exact Or.inl (checkedAdd_error hfits)

/-- A deadline that has not passed, in words and in numbers. -/
theorem before_deadline_iff {a : Uint64} {b t : Uint256} :
    (uint256 a).toNat + b.toNat < 2 ^ 256 ∧ t < uint256 a + b ↔
      a.toNat + b.toNat < 2 ^ 256 ∧ t.toNat < a.toNat + b.toNat := by
  rw [uint256_toNat_uint64]
  refine ⟨?_, ?_⟩
  · rintro ⟨hfits, hlt⟩
    rw [BitVec.lt_def, (deadline_toNat hfits).2] at hlt
    exact ⟨hfits, hlt⟩
  · rintro ⟨hfits, hlt⟩
    refine ⟨hfits, ?_⟩
    rw [BitVec.lt_def, (deadline_toNat hfits).2]
    exact hlt

/-- A deadline that has passed, in words and in numbers. -/
theorem after_deadline_iff {a : Uint64} {b t : Uint256} :
    (uint256 a).toNat + b.toNat < 2 ^ 256 ∧ uint256 a + b < t ↔
      a.toNat + b.toNat < t.toNat := by
  rw [uint256_toNat_uint64]
  refine ⟨?_, ?_⟩
  · rintro ⟨hfits, hlt⟩
    rw [BitVec.lt_def, (deadline_toNat hfits).2] at hlt
    exact hlt
  · intro hlt
    exact ⟨Nat.lt_trans hlt t.isLt, (deadline_passed hlt).2⟩

-- ============================================================================
-- Functions that charge the fee
-- ============================================================================

/-- `createGame` asks for the fee at once; what it checks, it checks on the
    storage it finds when the fee is paid. -/
theorem createGame_calls (d : Deployment) (msg : Msg) (s : Storage) :
    ∃ k, createGame d msg s
        = .call s (.transferFrom msg.sender d.this s.gameSettings.entryFee) k ∧
      ∀ s', (k s').Guarded
        (msg.block.number ≠ 0 ∧ (s'.gameRegistry (newGameId d msg)).createdAt = 0)
        (.done ((s'.setGame (newGameId d msg) (newGame msg s.gameSettings.entryFee)).setCard
          msg.sender (newGameId d msg) (newCard d msg.block)) (newGameId d msg)) := by
  refine ⟨_, by simp [createGame]; rfl, fun s' => ?_⟩
  by_cases hb : msg.block.number = 0
  · refine .refuse (fun h => h.1 hb) arithmeticPanic ?_
    simp [Block.previousBlockhash_error hb]
  · have hhash := Block.previousBlockhash_ok hb
    by_cases hnew : (s'.gameRegistry (newGameId d msg)).createdAt = 0#64
    · refine .pass ⟨hb, hnew⟩ ?_
      rw [newGameId] at hnew ⊢
      simp [hhash, require, hnew, createBingoCardForPlayer_eq, newGame, newCard]
    · refine .refuse (fun h => hnew h.2) (.error "Duplicate Game ID") ?_
      rw [newGameId] at hnew
      simp [hhash, require, hnew]

/-- `joinGame` checks the game and the clock, asks for the fee, and adds it to
    the pot it finds when the fee is paid. -/
theorem joinGame_cases (d : Deployment) (msg : Msg) (s : Storage) (g : Bytes32) :
    (s.JoinOpen msg.block.timestamp g ∧ ∃ k, joinGame d msg g s
        = .call s (.transferFrom msg.sender d.this s.gameSettings.entryFee) k ∧
      ∀ s', (k s').Guarded
        ((s'.gameRegistry g).prizePool.toNat + (uint64 s.gameSettings.entryFee).toNat < 2 ^ 64 ∧
          msg.block.number ≠ 0)
        (.done ((s'.setGame g { s'.gameRegistry g with
            prizePool := (s'.gameRegistry g).prizePool + uint64 s.gameSettings.entryFee }).setCard
          msg.sender g (newCard d msg.block)) ())) ∨
    (¬ s.JoinOpen msg.block.timestamp g ∧ ∃ e, joinGame d msg g s = .revert e) := by
  by_cases he : (s.gameRegistry g).createdAt = 0
  · refine Or.inr ⟨fun h => h.exists_ he, .error "joinGame: Game does not exist", ?_⟩
    simp [joinGame, require, he]
  have hpos : 0#64 < (s.gameRegistry g).createdAt := pos_iff_ne_zero.mpr he
  by_cases hf : (s.gameRegistry g).createdAt.toNat + s.gameSettings.minimumJoinDuration.toNat
      < 2 ^ 256
  · obtain ⟨hadd, hsum⟩ := deadline_toNat hf
    by_cases hb : msg.block.timestamp
        < uint256 (s.gameRegistry g).createdAt + s.gameSettings.minimumJoinDuration
    · have hbefore := hb
      rw [BitVec.lt_def, hsum] at hbefore
      refine Or.inl ⟨⟨he, hf, hbefore⟩, _, by simp [joinGame, require, hpos, hadd, hb]; rfl,
        fun s' => ?_⟩
      by_cases hpot : (s'.gameRegistry g).prizePool.toNat
          + (uint64 s.gameSettings.entryFee).toNat < 2 ^ 64
      · by_cases hn : msg.block.number = 0
        · refine .refuse (fun h => h.2 hn) arithmeticPanic ?_
          simp [checkedAdd_ok hpot, Block.previousBlockhash_error hn]
        · refine .pass ⟨hpot, hn⟩ ?_
          simp [checkedAdd_ok hpot, Block.previousBlockhash_ok hn, createBingoCardForPlayer_eq,
            newCard]
      · refine .refuse (fun h => hpot h.1) arithmeticPanic ?_
        simp [checkedAdd_error hpot]
    · refine Or.inr ⟨fun h => hb ?_, .error "joinGame: Game already started", ?_⟩
      · rw [BitVec.lt_def, hsum]
        exact h.before
      · simp [joinGame, require, hpos, hadd, hb]
  · refine Or.inr ⟨fun h => hf h.fits, arithmeticPanic, ?_⟩
    rw [← uint256_toNat_uint64 (s.gameRegistry g).createdAt] at hf
    simp [joinGame, require, hpos, checkedAdd_error hf]

-- ============================================================================
-- Functions without external calls
-- ============================================================================

theorem uint64_mod_256 (x : Uint256) :
    uint64 (x % 256#256) = BitVec.ofNat 64 (x.toNat % 256) := by
  apply BitVec.eq_of_toNat_eq
  rw [uint64_toNat, BitVec.toNat_umod, BitVec.toNat_ofNat, BitVec.toNat_ofNat]

theorem drawNumber_guarded : (drawNumber d msg g s).Guarded
    (s.OnlyPlayer msg.sender g ∧ s.DrawOpen msg.block.timestamp g ∧ msg.block.number ≠ 0)
    (.done (s.setGame g ((s.gameRegistry g).drawn d msg.block)) ()) := by
  by_cases hp : s.OnlyPlayer msg.sender g
  swap
  · obtain ⟨e, _, he⟩ := onlyPlayer_error hp
    exact .refuse (fun h => hp h.1) e (by simp [drawNumber, he])
  have hplayer := onlyPlayer_ok hp
  by_cases hj : (s.gameRegistry g).createdAt.toNat + s.gameSettings.minimumJoinDuration.toNat
      < msg.block.timestamp.toNat
  swap
  · refine Or.inr ⟨fun h => hj h.2.1.joined, ?_⟩
    rcases deadline_pending hj with hja | ⟨hja, hjt⟩
    · simp [drawNumber, hplayer, hja]
    · simp [drawNumber, hplayer, hja, require, hjt]
  obtain ⟨hja, hjt⟩ := deadline_passed hj
  by_cases ht : (s.gameRegistry g).lastDrawnAt.toNat + s.gameSettings.minimumTurnDuration.toNat
      < msg.block.timestamp.toNat
  swap
  · refine Or.inr ⟨fun h => ht h.2.1.turned, ?_⟩
    rcases deadline_pending ht with hta | ⟨hta, htt⟩
    · simp [drawNumber, hplayer, hja, require, hjt, hta]
    · simp [drawNumber, hplayer, hja, require, hjt, hta, htt]
  obtain ⟨hta, htt⟩ := deadline_passed ht
  by_cases hb : msg.block.number = 0
  · refine .refuse (fun h => h.2.2 hb) arithmeticPanic ?_
    simp [drawNumber, hplayer, hja, hjt, hta, htt, require, Block.previousBlockhash_error hb]
  · refine .pass ⟨hp, ⟨hj, ht⟩, hb⟩ ?_
    simp [drawNumber, hplayer, hja, hjt, hta, htt, require, Block.previousBlockhash_ok hb,
      Game.drawn, drawnNumber, uint64_mod_256]

/-- The decoded numbers are the tiles, as words. -/
private theorem numbers_eq_map (card : Uint256) :
    (List.range 25).map (fun i => BitVec.ofNat 256 (bucket card i))
      = (cardTiles card).map (BitVec.ofNat 256) := by
  simp [cardTiles]

private theorem ofNat_eq_uint256_iff {card : Uint256} {n : Uint64} {x : Nat}
    (hx : x ∈ cardTiles card) : BitVec.ofNat 256 x = uint256 n ↔ x = n.toNat := by
  have hlt := cardTiles_lt card x hx
  rw [← BitVec.toNat_inj, uint256_toNat_uint64, BitVec.toNat_ofNat, Nat.mod_eq_of_lt (by omega)]

theorem mem_numbers_iff (card : Uint256) (n : Uint64) :
    uint256 n ∈ (List.range 25).map (fun i => BitVec.ofNat 256 (bucket card i)) ↔
      n.toNat ∈ cardTiles card := by
  rw [numbers_eq_map, List.mem_map]
  refine ⟨?_, ?_⟩
  · rintro ⟨x, hx, heq⟩
    exact (ofNat_eq_uint256_iff hx).mp heq ▸ hx
  · intro hn
    exact ⟨n.toNat, hn, (ofNat_eq_uint256_iff hn).mpr rfl⟩

private theorem idxOf_map_eq {α β : Type} [DecidableEq α] [DecidableEq β] {f : α → β} {a : α}
    {b : β} {l : List α} (h : ∀ x ∈ l, f x = b ↔ x = a) : (l.map f).idxOf b = l.idxOf a := by
  induction l with
  | nil => rfl
  | cons x rest ih =>
      have hbeq : (f x == b) = (x == a) := by
        rw [Bool.eq_iff_iff, beq_iff_eq, beq_iff_eq]
        exact h x (List.mem_cons_self ..)
      rw [List.map_cons, List.idxOf_cons, List.idxOf_cons, hbeq,
        ih fun y hy => h y (List.mem_cons_of_mem _ hy)]

theorem idxOf_numbers (card : Uint256) (n : Uint64) :
    ((List.range 25).map (fun i => BitVec.ofNat 256 (bucket card i))).idxOf (uint256 n)
      = (cardTiles card).idxOf n.toNat := by
  rw [numbers_eq_map]
  exact idxOf_map_eq fun _ hx => ofNat_eq_uint256_iff hx

theorem markNumberOnCard_guarded : (markNumberOnCard msg g s).Guarded
    (s.OnlyPlayer msg.sender g ∧
      (s.gameRegistry g).lastDrawnNumber.toNat
        ∈ cardTiles (s.playerRegistry msg.sender g).numberStorage)
    (.done (s.setCard msg.sender g
      ((s.playerRegistry msg.sender g).marked (s.gameRegistry g).lastDrawnNumber.toNat)) ()) := by
  by_cases hp : s.OnlyPlayer msg.sender g
  swap
  · obtain ⟨e, _, he⟩ := onlyPlayer_error hp
    exact .refuse (fun h => hp h.1) e (by simp [markNumberOnCard, he])
  have hplayer := onlyPlayer_ok hp
  by_cases hm : (s.gameRegistry g).lastDrawnNumber.toNat
      ∈ cardTiles (s.playerRegistry msg.sender g).numberStorage
  · refine .pass ⟨hp, hm⟩ ?_
    rw [← mem_numbers_iff] at hm
    simp only [markNumberOnCard, Code.bind_apply, hplayer, Resumption.bind_done, Code.sload_apply,
      getNumbersArrayForCard_eq, Code.lift_ok_apply, playerHasNumber_eq, if_pos hm]
    simp [require, BingoCard.marked, idxOf_numbers]
  · refine .refuse (fun h => hm h.2)
      (.error "Player's card does not have last drawn number") ?_
    rw [← mem_numbers_iff] at hm
    simp only [markNumberOnCard, Code.bind_apply, hplayer, Resumption.bind_done, Code.sload_apply,
      getNumbersArrayForCard_eq, Code.lift_ok_apply, playerHasNumber_eq, if_neg hm]
    simp [require]

-- ============================================================================
-- Claiming
-- ============================================================================

/-- The reverts of `claimPrize` itself. -/
def claimPrizeReverts : List Revert := onlyPlayerReverts ++ [.error "Player is not a winner"]

/-- `claimPrize` finishes the game before it pays: an `approve` to itself, and
    then the transfer. -/
theorem claimPrize_ok (d : Deployment) (hp : s.OnlyPlayer msg.sender g)
    (hw : s.checkForWinner msg.sender g = true) :
    claimPrize d msg g s = .call (s.setGame g (s.gameRegistry g).finished)
      (.approve d.this (uint256 (s.gameRegistry g).prizePool)) fun s' =>
        .call s' (.transferFrom d.this msg.sender (uint256 (s.gameRegistry g).prizePool)) fun s'' =>
          .done s'' true := by
  have hplayer := onlyPlayer_ok hp
  rw [Storage.checkForWinner] at hw
  simp [claimPrize, hplayer, require, hw, Game.finished]

theorem claimPrize_error (d : Deployment)
    (h : ¬ (s.OnlyPlayer msg.sender g ∧ s.checkForWinner msg.sender g = true)) :
    ∃ e ∈ claimPrizeReverts, claimPrize d msg g s = .revert e := by
  by_cases hp : s.OnlyPlayer msg.sender g
  · have hw : ¬ s.checkForWinner msg.sender g = true := fun hw => h ⟨hp, hw⟩
    rw [Storage.checkForWinner] at hw
    exact ⟨.error "Player is not a winner", by simp [claimPrizeReverts],
      by simp [claimPrize, onlyPlayer_ok hp, require, hw]⟩
  · obtain ⟨e, hmem, he⟩ := onlyPlayer_error hp
    exact ⟨e, List.mem_append_left _ hmem, by simp [claimPrize, he]⟩

-- ============================================================================
-- Owner functions
-- ============================================================================

theorem onlyOwner_guarded : (onlyOwner d msg s).Guarded (msg.sender = d.owner) (.done s ()) := by
  by_cases h : msg.sender = d.owner
  · exact .pass h (by simp [onlyOwner, require, h])
  · exact .refuse h (.error "!owner") (by simp [onlyOwner, require, h])

/-- The three setters: one check, one write. -/
theorem setter_guarded (f : Storage → Storage) :
    ((do onlyOwner d msg; sstore f : GameM Unit) s).Guarded (msg.sender = d.owner)
      (.done (f s) ()) := by
  have howner : (onlyOwner d msg s).Guarded _ _ := onlyOwner_guarded
  rcases howner with ⟨h, heq⟩ | ⟨h, e, he⟩
  · exact .pass h (by simp [heq])
  · exact .refuse h e (by simp [he])

-- ============================================================================
-- Calls against a token that does not call back
-- ============================================================================

section Run

variable {τ : Type} {callee : IERC20 → τ → Except Revert τ} {t t' : τ} {r : Returned}
  {s' : Storage}

/-- A list of token calls, one after another. -/
def runCalls (callee : IERC20 → τ → Except Revert τ) (calls : List IERC20) (t : τ) :
    Except Revert τ :=
  calls.foldlM (fun t c => callee c t) t

@[simp] theorem runCalls_nil : runCalls callee [] t = .ok t := rfl

theorem runCalls_cons_eq_ok {c : IERC20} {cs : List IERC20} :
    runCalls callee (c :: cs) t = .ok t' ↔
      ∃ t₁, callee c t = .ok t₁ ∧ runCalls callee cs t₁ = .ok t' := by
  rw [runCalls, List.foldlM_cons]
  cases h : callee c t with
  | error e => simp [bind, Except.bind]
  | ok t₁ => simp [bind, Except.bind, runCalls]

theorem runCalls_singleton {c : IERC20} :
    runCalls callee [c] t = .ok t' ↔ callee c t = .ok t' := by
  simp [runCalls_cons_eq_ok]

/-- Wrapping the result changes nothing else. -/
private theorem runWith_bind_return {α : Type} (f : α → Returned)
    (x : Resumption Storage IERC20 Revert α) :
    (x.bind fun a s' => .done s' (f a)).runWith callee t = .ok (s', t', r) ↔
      ∃ a, x.runWith callee t = .ok (s', t', a) ∧ f a = r := by
  induction x generalizing t with
  | done s a => simp [and_assoc]
  | revert e => simp
  | call s c k ih =>
      simp only [Resumption.bind_call, Resumption.runWith_call_eq_ok, ih]
      refine ⟨?_, ?_⟩
      · rintro ⟨t₁, hc, a, ha, hr⟩
        exact ⟨a, ⟨t₁, hc, ha⟩, hr⟩
      · rintro ⟨a, ⟨t₁, hc, ha⟩, hr⟩
        exact ⟨t₁, hc, a, ha, hr⟩

/-- Functions without external calls: the guard is all that decides. -/
private theorem run_local_iff {c : Call} {x : GameM Unit} {P : Prop} {s₁ : Storage}
    (hx : (x s).Guarded P (.done s₁ ()))
    (hc : dispatch d msg c = (do x; return .unit))
    (hcalls : tokenCalls d msg s c = [])
    (heff : Effect d msg s c r s' ↔ P ∧ s₁ = s' ∧ .unit = r) :
    (dispatch d msg c s).runWith callee t = .ok (s', t', r) ↔
      Effect d msg s c r s' ∧ runCalls callee (tokenCalls d msg s c) t = .ok t' := by
  rw [hc, Code.bind_apply]
  simp only [Code.pure_apply]
  rw [runWith_bind_return (fun _ => .unit), heff, hcalls]
  simp only [hx.runWith_eq_ok, Resumption.runWith_done, runCalls_nil, Except.ok.injEq,
    Prod.mk.injEq]
  refine ⟨?_, ?_⟩
  · rintro ⟨_, ⟨hP, hs, ht, -⟩, hr⟩
    exact ⟨⟨hP, hs, hr⟩, ht⟩
  · rintro ⟨⟨hP, hs, hr⟩, ht⟩
    exact ⟨(), ⟨hP, hs, ht, trivial⟩, hr⟩

theorem run_createGame_iff :
    (dispatch d msg .createGame s).runWith callee t = .ok (s', t', r) ↔
      Effect d msg s .createGame r s' ∧
        runCalls callee (tokenCalls d msg s .createGame) t = .ok t' := by
  obtain ⟨k, heq, hk⟩ := createGame_calls d msg s
  simp only [dispatch, Code.bind_apply, Code.pure_apply, heq]
  rw [runWith_bind_return]
  simp only [Resumption.runWith_call_eq_ok, (hk s).runWith_eq_ok, tokenCalls,
    runCalls_cons_eq_ok, runCalls_nil, Resumption.runWith_done, Except.ok.injEq, Prod.mk.injEq]
  refine ⟨?_, ?_⟩
  · rintro ⟨id, ⟨t₁, hcall, ⟨hb, hnew⟩, rfl, rfl, rfl⟩, rfl⟩
    exact ⟨.createGame hb hnew, t₁, hcall, rfl⟩
  · rintro ⟨heff, t₁, hcall, rfl⟩
    cases heff with
    | createGame hb hnew => exact ⟨_, ⟨t₁, hcall, ⟨hb, hnew⟩, rfl, rfl, rfl⟩, rfl⟩

theorem run_joinGame_iff :
    (dispatch d msg (.joinGame g) s).runWith callee t = .ok (s', t', r) ↔
      Effect d msg s (.joinGame g) r s' ∧
        runCalls callee (tokenCalls d msg s (.joinGame g)) t = .ok t' := by
  simp only [dispatch, Code.bind_apply, Code.pure_apply]
  rw [runWith_bind_return (fun _ => .unit)]
  rcases joinGame_cases d msg s g with ⟨hopen, k, heq, hk⟩ | ⟨hclosed, e, heq⟩
  · simp only [heq, Resumption.runWith_call_eq_ok, (hk s).runWith_eq_ok, tokenCalls,
      runCalls_cons_eq_ok, runCalls_nil, Resumption.runWith_done, Except.ok.injEq, Prod.mk.injEq]
    refine ⟨?_, ?_⟩
    · rintro ⟨_, ⟨t₁, hcall, ⟨hpot, hb⟩, rfl, rfl, -⟩, rfl⟩
      exact ⟨.joinGame hopen (toNat_eq_add_iff.mpr ⟨hpot, rfl⟩) hb, t₁, hcall, rfl⟩
    · rintro ⟨heff, t₁, hcall, rfl⟩
      cases heff with
      | @joinGame _ pot _ hpot hb =>
          obtain ⟨hfits, hadd⟩ := toNat_eq_add_iff.mp hpot
          exact ⟨(), ⟨t₁, hcall, ⟨hfits, hb⟩, by rw [hadd], rfl, trivial⟩, rfl⟩
  · simp only [heq, Resumption.runWith_revert]
    refine ⟨?_, ?_⟩
    · rintro ⟨_, h, _⟩
      cases h
    · rintro ⟨heff, -⟩
      cases heff with
      | joinGame hopen => exact absurd hopen hclosed

theorem run_claimPrize_iff :
    (dispatch d msg (.claimPrize g) s).runWith callee t = .ok (s', t', r) ↔
      Effect d msg s (.claimPrize g) r s' ∧
        runCalls callee (tokenCalls d msg s (.claimPrize g)) t = .ok t' := by
  simp only [dispatch, Code.bind_apply, Code.pure_apply]
  rw [runWith_bind_return]
  by_cases h : s.OnlyPlayer msg.sender g ∧ s.checkForWinner msg.sender g = true
  · simp only [claimPrize_ok d h.1 h.2, Resumption.runWith_call_eq_ok, tokenCalls,
      runCalls_cons_eq_ok, runCalls_nil, Resumption.runWith_done, Except.ok.injEq, Prod.mk.injEq]
    refine ⟨?_, ?_⟩
    · rintro ⟨_, ⟨t₁, hc₁, t₂, hc₂, rfl, rfl, rfl⟩, rfl⟩
      exact ⟨.claimPrize h.1 h.2, t₁, hc₁, t₂, hc₂, rfl⟩
    · rintro ⟨heff, t₁, hc₁, t₂, hc₂, rfl⟩
      cases heff with
      | claimPrize => exact ⟨true, ⟨t₁, hc₁, t₂, hc₂, rfl, rfl, rfl⟩, rfl⟩
  · obtain ⟨e, _, he⟩ := claimPrize_error d h
    simp only [he, Resumption.runWith_revert]
    refine ⟨?_, ?_⟩
    · rintro ⟨_, h, _⟩
      cases h
    · rintro ⟨heff, -⟩
      cases heff with
      | claimPrize hp hw => exact absurd ⟨hp, hw⟩ h

/-- A call succeeds exactly when it has an effect and the token accepts its
    calls; the effect is what it returns and leaves. -/
theorem run_dispatch_iff (c : Call) :
    (dispatch d msg c s).runWith callee t = .ok (s', t', r) ↔
      Effect d msg s c r s' ∧ runCalls callee (tokenCalls d msg s c) t = .ok t' := by
  cases c with
  | createGame => exact run_createGame_iff
  | joinGame g => exact run_joinGame_iff
  | drawNumber g =>
      refine run_local_iff drawNumber_guarded rfl rfl ⟨fun heff => ?_, ?_⟩
      · cases heff with
        | drawNumber hp ho hb => exact ⟨⟨hp, ho, hb⟩, rfl, rfl⟩
      · rintro ⟨⟨hp, ho, hb⟩, rfl, rfl⟩
        exact .drawNumber hp ho hb
  | markNumberOnCard g =>
      refine run_local_iff markNumberOnCard_guarded rfl rfl ⟨fun heff => ?_, ?_⟩
      · cases heff with
        | markNumberOnCard hp hm => exact ⟨⟨hp, hm⟩, rfl, rfl⟩
      · rintro ⟨⟨hp, hm⟩, rfl, rfl⟩
        exact .markNumberOnCard hp hm
  | claimPrize g => exact run_claimPrize_iff
  | updateEntryFee v =>
      refine run_local_iff (setter_guarded _) rfl rfl ⟨fun heff => ?_, ?_⟩
      · cases heff with
        | updateEntryFee ho => exact ⟨ho, rfl, rfl⟩
      · rintro ⟨ho, rfl, rfl⟩
        exact .updateEntryFee ho
  | updateJoinDuration v =>
      refine run_local_iff (setter_guarded _) rfl rfl ⟨fun heff => ?_, ?_⟩
      · cases heff with
        | updateJoinDuration ho => exact ⟨ho, rfl, rfl⟩
      · rintro ⟨ho, rfl, rfl⟩
        exact .updateJoinDuration ho
  | updateUpdateTurnDuration v =>
      refine run_local_iff (setter_guarded _) rfl rfl ⟨fun heff => ?_, ?_⟩
      · cases heff with
        | updateUpdateTurnDuration ho => exact ⟨ho, rfl, rfl⟩
      · rintro ⟨ho, rfl, rfl⟩
        exact .updateUpdateTurnDuration ho

end Run

end BitmaskBingo
