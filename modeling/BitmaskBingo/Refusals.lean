/-
  BitmaskBingo.Refusals

  Why a call reverts.  Each function makes its checks in a fixed order, some
  of its own, some in the token; the first one that fails gives the reason.
  `checks` lists them for a state of the world, and no others are ever seen:
  in particular a pot never overflows, a winner's payment is never refused,
  and the arithmetic only panics in block 0 or over a duration of the owner
  that carries the deadline past `2 ^ 256`.
-/

import BitmaskBingo.Entering

namespace BitmaskBingo

open Lib BingoToken StorageUtils
open Lib.Code (sstore)
open Lib.Resumption (behind refusal)

variable {d : Deployment} {deployer : Address} {l : List (Step bingoToken)}
  {w : World bingoToken} {msg : Msg} {s : Storage} {g : Bytes32}

/-- A check of a function: whether it passes, and the reason if not. -/
abbrev Check := Bool × Revert

-- ============================================================================
-- Code that checks
-- ============================================================================

theorem require_behind (p : Prop) [Decidable p] (reason : String) :
    (liftM (require p reason) : GameM Unit) s
      = behind [(decide p, .error reason)] (.done s ()) := by
  by_cases hp : p
  · simp [require, behind, hp]
  · simp [require, behind, hp]

theorem decide_pos {n : Nat} (x : BitVec n) : decide (x > 0#n) = decide (x ≠ 0#n) :=
  decide_eq_decide.mpr pos_iff_ne_zero

theorem checkedAdd_behind {n : Nat} (a b : BitVec n) :
    (liftM (checkedAdd a b) : GameM (BitVec n)) s
      = behind [(decide (a.toNat + b.toNat < 2 ^ n), arithmeticPanic)] (.done s (a + b)) := by
  by_cases hfits : a.toNat + b.toNat < 2 ^ n
  · rw [checkedAdd_ok hfits, decide_eq_true hfits]
    rfl
  · rw [checkedAdd_error hfits, decide_eq_false hfits]
    rfl

theorem previousBlockhash_behind (block : Block) :
    (liftM block.previousBlockhash : GameM Bytes32) s
      = behind [(decide (block.number ≠ 0), arithmeticPanic)] (.done s block.entropy) := by
  by_cases hb : block.number = 0
  · rw [Block.previousBlockhash_error hb, decide_eq_false (not_not_intro hb)]
    rfl
  · rw [Block.previousBlockhash_ok hb, decide_eq_true hb]
    rfl

/-- A check of a deadline, in numbers. -/
private theorem deadline_behind {α : Type} {a : Uint64} {b : Uint256} {p q : Prop} [Decidable p]
    [Decidable q] {e : Revert} {r : Resumption Storage IERC20 Revert α}
    (hiff : (uint256 a).toNat + b.toNat < 2 ^ 256 → (p ↔ q)) :
    behind [(decide ((uint256 a).toNat + b.toNat < 2 ^ 256), arithmeticPanic)]
        (behind [(decide p, e)] r)
      = behind [(decide (a.toNat + b.toNat < 2 ^ 256), arithmeticPanic), (decide q, e)] r := by
  have hchecks : behind [(decide ((uint256 a).toNat + b.toNat < 2 ^ 256), arithmeticPanic)]
        (behind [(decide p, e)] r)
      = behind [(decide ((uint256 a).toNat + b.toNat < 2 ^ 256), arithmeticPanic)]
        (behind [(decide q, e)] r) :=
    Resumption.behind_congr fun hfits => by
      rw [decide_eq_decide.mpr (hiff (of_decide_eq_true hfits))]
  rw [hchecks, uint256_toNat_uint64, ← Resumption.behind_append, List.singleton_append]

/-- A deadline that must have passed. -/
theorem after_behind {α : Type} (a : Uint64) (b t : Uint256) (e : Revert)
    (r : Resumption Storage IERC20 Revert α) :
    behind [(decide ((uint256 a).toNat + b.toNat < 2 ^ 256), arithmeticPanic)]
        (behind [(decide (t > uint256 a + b), e)] r)
      = behind [(decide (a.toNat + b.toNat < 2 ^ 256), arithmeticPanic),
          (decide (a.toNat + b.toNat < t.toNat), e)] r :=
  deadline_behind fun hfits => ⟨fun h => after_deadline_iff.mp ⟨hfits, h⟩,
    fun h => (after_deadline_iff.mpr h).2⟩

/-- A deadline that must not have passed. -/
theorem before_behind {α : Type} (a : Uint64) (b t : Uint256) (e : Revert)
    (r : Resumption Storage IERC20 Revert α) :
    behind [(decide ((uint256 a).toNat + b.toNat < 2 ^ 256), arithmeticPanic)]
        (behind [(decide (t < uint256 a + b), e)] r)
      = behind [(decide (a.toNat + b.toNat < 2 ^ 256), arithmeticPanic),
          (decide (t.toNat < a.toNat + b.toNat), e)] r :=
  deadline_behind fun hfits => ⟨fun h => (before_deadline_iff.mp ⟨hfits, h⟩).2,
    fun h => (before_deadline_iff.mpr ⟨uint256_toNat_uint64 a ▸ hfits, h⟩).2⟩

-- ============================================================================
-- The checks of the functions
-- ============================================================================

/-- `onlyPlayer`. -/
def playerChecks (s : Storage) (p : Address) (g : Bytes32) : List Check :=
  [ ((s.gameRegistry g).createdAt ≠ 0, .error "Game does not exist"),
    ((s.gameRegistry g).lastDrawnNumber ≠ 1000, .error "Game is over"),
    ((s.playerRegistry p g).numberStorage ≠ 0, .error "Not a member of this game") ]

theorem onlyPlayer_behind :
    onlyPlayer msg g s = behind (playerChecks s msg.sender g) (.done s ()) := by
  simp only [onlyPlayer, Code.bind_apply, Code.sload_apply, Resumption.bind_done,
    Resumption.bind_behind, require_behind, BitVec.ofNat_eq_ofNat, decide_pos]
  simp only [playerChecks, behind, BitVec.ofNat_eq_ofNat]

/-- What `drawNumber` checks after `onlyPlayer`. -/
def drawChecks (s : Storage) (block : Block) (g : Bytes32) : List Check :=
  let joinEnd := (s.gameRegistry g).createdAt.toNat + s.gameSettings.minimumJoinDuration.toNat
  let turnEnd := (s.gameRegistry g).lastDrawnAt.toNat + s.gameSettings.minimumTurnDuration.toNat
  [ (joinEnd < 2 ^ 256, arithmeticPanic),
    (joinEnd < block.timestamp.toNat, .error "drawNumber: player are still joining"),
    (turnEnd < 2 ^ 256, arithmeticPanic),
    (turnEnd < block.timestamp.toNat, .error "drawNumber: turn duration pending"),
    (block.number ≠ 0, arithmeticPanic) ]

theorem drawNumber_behind : drawNumber d msg g s
    = behind (playerChecks s msg.sender g ++ drawChecks s msg.block g)
        (.done (s.setGame g ((s.gameRegistry g).drawn d msg.block)) ()) := by
  simp only [drawNumber, Code.bind_apply, Code.sload_apply, Code.sstore_apply, Resumption.bind_done,
    Resumption.bind_behind, onlyPlayer_behind, require_behind, checkedAdd_behind, after_behind,
    previousBlockhash_behind, Resumption.behind_append]
  have hdrawn : ({ s.gameRegistry g with
      lastDrawnNumber := uint64 (d.keccak256 (abiEncode [msg.block.entropy]) % 256)
      lastDrawnAt := uint64 msg.block.timestamp } : Game)
      = (s.gameRegistry g).drawn d msg.block := by
    rw [Game.drawn, drawnNumber, ← uint64_mod_256]
    rfl
  rw [hdrawn]
  simp only [drawChecks, behind]

/-- What `markNumberOnCard` checks after `onlyPlayer`. -/
def markChecks (s : Storage) (p : Address) (g : Bytes32) : List Check :=
  [ ((s.gameRegistry g).lastDrawnNumber.toNat ∈ cardTiles (s.playerRegistry p g).numberStorage,
      .error "Player's card does not have last drawn number") ]

theorem markNumberOnCard_behind : markNumberOnCard msg g s
    = behind (playerChecks s msg.sender g ++ markChecks s msg.sender g)
        (.done (s.setCard msg.sender g
          ((s.playerRegistry msg.sender g).marked (s.gameRegistry g).lastDrawnNumber.toNat)) ())
      := by
  simp only [markNumberOnCard, Code.bind_apply, Code.sload_apply, Resumption.bind_done,
    Resumption.bind_behind, onlyPlayer_behind, getNumbersArrayForCard_eq, Code.lift_ok_apply,
    playerHasNumber_eq, Resumption.behind_append]
  by_cases hm : (s.gameRegistry g).lastDrawnNumber.toNat
      ∈ cardTiles (s.playerRegistry msg.sender g).numberStorage
  · rw [if_pos ((mem_numbers_iff ..).mpr hm), markChecks, decide_eq_true hm]
    simp only [require_behind, Resumption.bind_behind, Resumption.bind_done, Code.sstore_apply,
      idxOf_numbers, decide_true, BingoCard.marked]
  · rw [if_neg fun h => hm ((mem_numbers_iff ..).mp h), markChecks, decide_eq_false hm]
    simp only [require_behind, behind, Bool.false_eq_true, decide_false, if_false,
      Resumption.bind_revert]

/-- What `claimPrize` checks after `onlyPlayer`. -/
def claimChecks (s : Storage) (p : Address) (g : Bytes32) : List Check :=
  [ (s.checkForWinner p g, .error "Player is not a winner") ]

theorem claimPrize_behind : claimPrize d msg g s
    = behind (playerChecks s msg.sender g ++ claimChecks s msg.sender g)
        (.call (s.setGame g (s.gameRegistry g).finished)
          (.approve d.this (uint256 (s.gameRegistry g).prizePool)) fun s' =>
            .call s' (.transferFrom d.this msg.sender (uint256 (s.gameRegistry g).prizePool))
              fun s'' => .done s'' true) := by
  simp only [claimPrize, Code.bind_apply, Code.sload_apply, Resumption.bind_done,
    Resumption.bind_behind, Resumption.bind_call, Code.sstore_apply, Code.externalCall_apply,
    Code.pure_apply, onlyPlayer_behind, require_behind, Resumption.behind_append, claimChecks,
    Storage.checkForWinner, Bool.decide_eq_true, Game.finished]

theorem setter_behind (f : Storage → Storage) :
    (do onlyOwner d msg; sstore f : GameM Unit) s
      = behind [(msg.sender = d.owner, .error "!owner")] (.done (f s) ()) := by
  simp only [onlyOwner, Code.bind_apply, require_behind, Resumption.bind_behind,
    Resumption.bind_done, Code.sstore_apply]

/-- What `joinGame` checks before it asks for the fee. -/
def joinChecks (s : Storage) (block : Block) (g : Bytes32) : List Check :=
  let joinEnd := (s.gameRegistry g).createdAt.toNat + s.gameSettings.minimumJoinDuration.toNat
  [ ((s.gameRegistry g).createdAt ≠ 0, .error "joinGame: Game does not exist"),
    (joinEnd < 2 ^ 256, arithmeticPanic),
    (block.timestamp.toNat < joinEnd, .error "joinGame: Game already started") ]

theorem joinGame_behind : joinGame d msg g s
    = behind (joinChecks s msg.block g)
        (.call s (.transferFrom msg.sender d.this s.gameSettings.entryFee) fun s' =>
          behind [ ((s'.gameRegistry g).prizePool.toNat + (uint64 s.gameSettings.entryFee).toNat
                < 2 ^ 64, arithmeticPanic),
              (msg.block.number ≠ 0, arithmeticPanic) ]
            (.done ((s'.setGame g { s'.gameRegistry g with
                prizePool := (s'.gameRegistry g).prizePool + uint64 s.gameSettings.entryFee
                }).setCard msg.sender g (newCard d msg.block)) ())) := by
  simp only [joinGame, Code.bind_apply, Code.sload_apply, Resumption.bind_done,
    Resumption.bind_behind, Resumption.bind_call, Code.sstore_apply, Code.externalCall_apply,
    require_behind, checkedAdd_behind, before_behind, previousBlockhash_behind, decide_pos,
    BitVec.ofNat_eq_ofNat, createBingoCardForPlayer_eq, Code.lift_ok_apply]
  simp only [joinChecks, behind, newCard, BitVec.ofNat_eq_ofNat]

theorem createGame_behind : createGame d msg s
    = .call s (.transferFrom msg.sender d.this s.gameSettings.entryFee) fun s' =>
        behind [ (msg.block.number ≠ 0, arithmeticPanic),
            ((s'.gameRegistry (newGameId d msg)).createdAt = 0, .error "Duplicate Game ID") ]
          (.done ((s'.setGame (newGameId d msg) (newGame msg s.gameSettings.entryFee)).setCard
            msg.sender (newGameId d msg) (newCard d msg.block)) (newGameId d msg)) := by
  simp only [createGame, Code.bind_apply, Code.sload_apply, Resumption.bind_done,
    Resumption.bind_behind, Resumption.bind_call, Code.sstore_apply, Code.externalCall_apply,
    Code.pure_apply, require_behind, previousBlockhash_behind, BitVec.ofNat_eq_ofNat,
    createBingoCardForPlayer_eq, Code.lift_ok_apply]
  refine congrArg _ (funext fun s' => ?_)
  rw [← List.singleton_append, Resumption.behind_append]
  refine Resumption.behind_congr fun hnumber => Resumption.behind_congr fun _ => ?_
  -- the block number is checked once more for the card
  rw [hnumber]
  rfl

-- ============================================================================
-- The checks of the token
-- ============================================================================

/-- What the token checks before it charges `p` the fee.  An unlimited
    allowance covers every fee. -/
def feeChecks (d : Deployment) (w : World bingoToken) (p : Address) : List Check :=
  let fee := w.game.gameSettings.entryFee
  [ (fee ≤ w.token.allowances p d.this, .error "ERC20: insufficient allowance"),
    (fee ≤ w.token.balances p, .error "ERC20: transfer amount exceeds balance") ]

theorem _transfer_error {t : BingoToken} {from_ to_ : Address} {amount : Uint256}
    (hfrom : from_ ≠ 0) (hto : to_ ≠ 0) (hfunds : ¬ amount ≤ t.balances from_) :
    t._transfer from_ to_ amount = .error (.error "ERC20: transfer amount exceeds balance") := by
  simp only [_transfer, require, hfrom, hto, ge_iff_le, hfunds, ne_eq, not_false_eq_true, if_true,
    if_false, bind, Except.bind]

theorem charge_decided (hzero : msg.sender ≠ 0) :
    Resumption.DecidedBy (bingoToken.callee d msg
      (.transferFrom msg.sender d.this w.game.gameSettings.entryFee) w.token)
      (feeChecks d w msg.sender) := by
  have hcallee : bingoToken.callee d msg
      (.transferFrom msg.sender d.this w.game.gameSettings.entryFee) w.token
      = w.token.transferFrom d.this msg.sender d.this w.game.gameSettings.entryFee := rfl
  by_cases hallowance : w.game.gameSettings.entryFee ≤ w.token.allowances msg.sender d.this
  swap
  · have hlimited : w.token.allowances msg.sender d.this ≠ maxUint256 := by
      intro hmax
      rw [hmax] at hallowance
      exact hallowance (le_maxUint256 _)
    simp [Resumption.DecidedBy, refusal, feeChecks, hallowance, hcallee, transferFrom,
      _spendAllowance, allowance, hlimited, require, bind, Except.bind]
  by_cases hfunds : w.game.gameSettings.entryFee ≤ w.token.balances msg.sender
  · have hpay : ∃ t', bingoToken.callee d msg
        (.transferFrom msg.sender d.this w.game.gameSettings.entryFee) w.token = .ok t' := by
      obtain ⟨t', hcalls⟩ := (charge_iff hzero).mpr ⟨hfunds, hallowance⟩
      exact ⟨t', runCalls_singleton.mp hcalls⟩
    simpa [Resumption.DecidedBy, refusal, feeChecks, hallowance, hfunds] using hpay
  · have hspend : w.token._spendAllowance msg.sender d.this w.game.gameSettings.entryFee
        = .ok (w.token.spent msg.sender d.this w.game.gameSettings.entryFee) :=
      _spendAllowance_iff.mpr ⟨Or.inr ⟨hallowance, hzero, d.this_ne_zero⟩, rfl⟩
    have hrefused : w.token.transferFrom d.this msg.sender d.this w.game.gameSettings.entryFee
        = .error (.error "ERC20: transfer amount exceeds balance") := by
      rw [transferFrom, hspend]
      exact _transfer_error hzero d.this_ne_zero (by rwa [spent_balances])
    simp [Resumption.DecidedBy, refusal, feeChecks, hallowance, hfunds, hcallee, hrefused]

-- ============================================================================
-- Every call
-- ============================================================================

/-- What `createGame` checks once the fee is paid. -/
def createChecks (d : Deployment) (s : Storage) (msg : Msg) : List Check :=
  [ (msg.block.number ≠ 0, arithmeticPanic),
    ((s.gameRegistry (newGameId d msg)).createdAt = 0, .error "Duplicate Game ID") ]

/-- What `joinGame` checks once the fee is paid. -/
def dealChecks (block : Block) : List Check := [(block.number ≠ 0, arithmeticPanic)]

def ownerChecks (d : Deployment) (p : Address) : List Check := [(p = d.owner, .error "!owner")]

/-- The checks of a call, in their order. -/
def checks (d : Deployment) (w : World bingoToken) (msg : Msg) : Call → List Check
  | .createGame => feeChecks d w msg.sender ++ createChecks d w.game msg
  | .joinGame g =>
      joinChecks w.game msg.block g ++ (feeChecks d w msg.sender ++ dealChecks msg.block)
  | .drawNumber g => playerChecks w.game msg.sender g ++ drawChecks w.game msg.block g
  | .markNumberOnCard g => playerChecks w.game msg.sender g ++ markChecks w.game msg.sender g
  | .claimPrize g => playerChecks w.game msg.sender g ++ claimChecks w.game msg.sender g
  | .updateEntryFee _ | .updateJoinDuration _ | .updateUpdateTurnDuration _ =>
      ownerChecks d msg.sender

theorem World.exec_decided {c : Call} {checks : List Check}
    (h : Resumption.DecidedBy
      ((dispatch d msg c w.game).runWith (bingoToken.callee d msg) w.token) checks) :
    Resumption.DecidedBy (w.exec d ⟨msg, .game c⟩) checks := by
  rw [Resumption.DecidedBy] at h ⊢
  cases hrefusal : refusal checks with
  | none =>
      rw [hrefusal] at h
      obtain ⟨⟨s, t, r⟩, hrun⟩ := h
      exact ⟨(⟨s, t⟩, r), by simp only [World.exec, hrun]⟩
  | some e =>
      rw [hrefusal] at h
      have hrun : (dispatch d msg c w.game).runWith (bingoToken.callee d msg) w.token
          = .error e := h
      show w.exec d ⟨msg, .game c⟩ = .error e
      simp only [World.exec, hrun]

/-- Functions without external calls. -/
private theorem local_decided {c : Call} {x : GameM Unit} {checks : List Check} {s' : Storage}
    (hx : x w.game = behind checks (.done s' ()))
    (hc : dispatch d msg c = (do x; return .unit)) :
    Resumption.DecidedBy (w.exec d ⟨msg, .game c⟩) checks := by
  apply World.exec_decided
  rw [hc, Code.bind_apply, hx, Resumption.bind_behind]
  exact Resumption.decided_behind_done

theorem createGame_decided (hzero : msg.sender ≠ 0) :
    Resumption.DecidedBy (w.exec d ⟨msg, .game .createGame⟩) (checks d w msg .createGame) := by
  apply World.exec_decided
  simp only [dispatch, Code.bind_apply, createGame_behind, Resumption.bind_call,
    Resumption.bind_behind, Resumption.bind_done, Code.pure_apply]
  exact Resumption.decided_call (charge_decided hzero) fun _ _ => Resumption.decided_behind_done

theorem joinGame_decided (hzero : msg.sender ≠ 0)
    (hroom : CanPay d w msg.sender → (w.game.gameRegistry g).prizePool.toNat
      + (uint64 w.game.gameSettings.entryFee).toNat < 2 ^ 64) :
    Resumption.DecidedBy (w.exec d ⟨msg, .game (.joinGame g)⟩)
      (checks d w msg (.joinGame g)) := by
  apply World.exec_decided
  simp only [dispatch, Code.bind_apply, joinGame_behind, Resumption.bind_call,
    Resumption.bind_behind, Resumption.bind_done, Code.pure_apply]
  refine Resumption.decided_behind (Resumption.decided_call (charge_decided hzero) fun t' ht' => ?_)
  -- the fee was paid, so the pot has room for it
  have hpays := hroom ((charge_iff hzero).mp ⟨t', runCalls_singleton.mpr ht'⟩)
  simp only [hpays, decide_true]
  exact Resumption.decided_behind_done

/-- Nothing is refused after the checks: a winner is paid. -/
theorem claimPrize_decided (hrun : WorldRun d (World.initial (deployed deployer)) l w)
    (hsenders : ∀ e ∈ l, e.sender ≠ d.this) (hzero : msg.sender ≠ 0) :
    Resumption.DecidedBy (w.exec d ⟨msg, .game (.claimPrize g)⟩)
      (checks d w msg (.claimPrize g)) := by
  rw [Resumption.DecidedBy]
  cases hrefusal : refusal (checks d w msg (.claimPrize g)) with
  | none =>
      have hpass := Resumption.refusal_eq_none_iff.mp hrefusal
      simp only [checks, playerChecks, claimChecks, List.cons_append, List.nil_append,
        List.forall_mem_cons, decide_eq_true_eq] at hpass
      obtain ⟨hexists, hnot_over, hmember, hwin, -⟩ := hpass
      exact claimPrize_pays hrun hsenders hzero ⟨hexists, hnot_over, hmember⟩ hwin
  | some e =>
      refine World.exec_error_of_revert ?_
      have hclaim : claimPrize d msg g w.game = .revert e :=
        claimPrize_behind.trans (Resumption.behind_refused hrefusal)
      simp only [dispatch, Code.bind_apply, hclaim, Resumption.bind_revert]

theorem call_decided (hrun : WorldRun d (World.initial (deployed deployer)) l w)
    (hsenders : ∀ e ∈ l, e.sender ≠ d.this) (hzero : msg.sender ≠ 0) (hthis : msg.sender ≠ d.this)
    (c : Call) : Resumption.DecidedBy (w.exec d ⟨msg, .game c⟩) (checks d w msg c) := by
  cases c with
  | createGame => exact createGame_decided hzero
  | joinGame g =>
      exact joinGame_decided hzero fun hpay =>
        hpay.room (run_sound hrun hsenders) (run_covers hrun hsenders) hthis g
  | drawNumber g => exact local_decided drawNumber_behind rfl
  | markNumberOnCard g => exact local_decided markNumberOnCard_behind rfl
  | claimPrize g => exact claimPrize_decided hrun hsenders hzero
  | updateEntryFee v => exact local_decided (setter_behind _) rfl
  | updateJoinDuration v => exact local_decided (setter_behind _) rfl
  | updateUpdateTurnDuration v => exact local_decided (setter_behind _) rfl

/-- **Why calls revert.**  In every reachable state a call fails with the
    reason of its first failing check, and succeeds when none fails. -/
theorem reverts_iff (hrun : WorldRun d (World.initial (deployed deployer)) l w)
    (hsenders : ∀ e ∈ l, e.sender ≠ d.this) (hzero : msg.sender ≠ 0) (hthis : msg.sender ≠ d.this)
    (c : Call) :
    ((∃ x, w.exec d ⟨msg, .game c⟩ = .ok x) ↔ refusal (checks d w msg c) = none) ∧
    ∀ r, w.exec d ⟨msg, .game c⟩ = .error r ↔ refusal (checks d w msg c) = some r := by
  have hdecided := call_decided hrun hsenders hzero hthis c
  exact ⟨hdecided.ok_iff, hdecided.error_iff⟩

/-- Player 34 draws before the turn is over, and claims without a line. -/
theorem reverts_iff_sample :
    ((Sample.played 7).2.exec Sample.deployment
        ⟨Sample.msg 34 5100 11, .game (.drawNumber Sample.gameId)⟩
      = .error (.error "drawNumber: turn duration pending")) ∧
    (Sample.played 7).2.exec Sample.deployment
        ⟨Sample.msg 34 5100 11, .game (.claimPrize Sample.gameId)⟩
      = .error (.error "Player is not a winner") := by
  have hrun := Sample.played_run 7
  exact ⟨((reverts_iff hrun (by decide +kernel) (by decide) (by decide) _).2 _).mpr
      (by decide +kernel),
    ((reverts_iff hrun (by decide +kernel) (by decide) (by decide) _).2 _).mpr (by decide +kernel)⟩

-- ============================================================================
-- Panics
-- ============================================================================

/-- Durations that no deadline of a game can carry past `2 ^ 256`. -/
structure DurationsFit (settings : GlobalGameSettings) : Prop where
  join : settings.minimumJoinDuration.toNat + 2 ^ 64 ≤ 2 ^ 256
  turn : settings.minimumTurnDuration.toNat + 2 ^ 64 ≤ 2 ^ 256

/-- The step sets no duration that is too long. -/
def Step.SetsFit (e : Step bingoToken) : Prop :=
  match e.call? with
  | some (.updateJoinDuration v) | some (.updateUpdateTurnDuration v) =>
      v.toNat + 2 ^ 64 ≤ 2 ^ 256
  | _ => True

instance : DecidablePred Step.SetsFit := by
  intro e
  unfold Step.SetsFit
  split <;> infer_instance

theorem Steps.durationsFit {w' : World bingoToken} {e : Step bingoToken} (h : Steps d w e w')
    (hfit : DurationsFit w.game.gameSettings) (hsets : e.SetsFit) :
    DurationsFit w'.game.gameSettings := by
  cases hc : e.call? with
  | none => rwa [h.of_token hc]
  | some c =>
      have heff := (h.of_call hc).1
      rw [Step.SetsFit, hc] at hsets
      generalize w'.game = s' at heff
      generalize e.ret = r at heff
      cases heff with
      | updateJoinDuration => exact ⟨hsets, hfit.turn⟩
      | updateUpdateTurnDuration => exact ⟨hfit.join, hsets⟩
      | _ => exact ⟨hfit.join, hfit.turn⟩

theorem run_durationsFit {t₀ : BingoToken} (hrun : WorldRun d (World.initial t₀) l w)
    (hsets : ∀ e ∈ l, e.SetsFit) : DurationsFit w.game.gameSettings := by
  have hinitial : DurationsFit Storage.initial.gameSettings := ⟨by decide, by decide⟩
  exact hrun.invariant_of (P := fun _ w => DurationsFit w.game.gameSettings) hsets hinitial
    fun _ _ _ _ _ _ hinv hs hstep => hstep.durationsFit hinv hs

/-- A deadline of a game fits. -/
theorem deadline_fits {a : Uint64} {b : Uint256} (hb : b.toNat + 2 ^ 64 ≤ 2 ^ 256) :
    a.toNat + b.toNat < 2 ^ 256 := by
  have ha := a.isLt
  omega

/-- No check of the list that panics fails. -/
def Calm (checks : List Check) : Prop := ∀ c ∈ checks, c.2 = arithmeticPanic → c.1 = true

theorem Calm.nil : Calm [] := nofun

theorem Calm.reason {p : Bool} {reason : String} {checks : List Check} (h : Calm checks) :
    Calm ((p, .error reason) :: checks) :=
  List.forall_mem_cons.mpr ⟨nofun, h⟩

theorem Calm.holds {p : Prop} [Decidable p] {e : Revert} {checks : List Check} (hp : p)
    (h : Calm checks) : Calm ((decide p, e) :: checks) :=
  List.forall_mem_cons.mpr ⟨fun _ => decide_eq_true hp, h⟩

theorem Calm.append {checks checks' : List Check} (h : Calm checks) (h' : Calm checks') :
    Calm (checks ++ checks') := List.forall_mem_append.mpr ⟨h, h'⟩

theorem calm_playerChecks (s : Storage) (p : Address) (g : Bytes32) : Calm (playerChecks s p g) :=
  .reason (.reason (.reason .nil))

theorem calm_feeChecks (d : Deployment) (w : World bingoToken) (p : Address) :
    Calm (feeChecks d w p) := .reason (.reason .nil)

/-- Between sane durations and after block 0, nothing panics. -/
theorem calm_checks (hfit : DurationsFit w.game.gameSettings) (hblock : msg.block.number ≠ 0)
    (c : Call) : Calm (checks d w msg c) := by
  cases c with
  | createGame => exact .append (calm_feeChecks _ _ _) (.holds hblock (.reason .nil))
  | joinGame g =>
      have hjoin : Calm (joinChecks w.game msg.block g) :=
        .reason (.holds (deadline_fits hfit.join) (.reason .nil))
      exact hjoin.append (.append (calm_feeChecks _ _ _) (.holds hblock .nil))
  | drawNumber g =>
      have hdraw : Calm (drawChecks w.game msg.block g) :=
        .holds (deadline_fits hfit.join) (.reason (.holds (deadline_fits hfit.turn)
          (.reason (.holds hblock .nil))))
      exact .append (calm_playerChecks _ _ _) hdraw
  | markNumberOnCard g => exact .append (calm_playerChecks _ _ _) (.reason .nil)
  | claimPrize g => exact .append (calm_playerChecks _ _ _) (.reason .nil)
  | updateEntryFee v => exact .reason .nil
  | updateJoinDuration v => exact .reason .nil
  | updateUpdateTurnDuration v => exact .reason .nil

/-- **The arithmetic never panics**, after any run in which the owner set no
    duration within `2 ^ 64` of the largest word, from block 1 on. -/
theorem never_panics (hrun : WorldRun d (World.initial (deployed deployer)) l w)
    (hsenders : ∀ e ∈ l, e.sender ≠ d.this) (hsets : ∀ e ∈ l, e.SetsFit)
    (hblock : msg.block.number ≠ 0) (hzero : msg.sender ≠ 0) (hthis : msg.sender ≠ d.this)
    (c : Call) : w.exec d ⟨msg, .game c⟩ ≠ .error arithmeticPanic := by
  intro hpanic
  have hrefusal := ((call_decided hrun hsenders hzero hthis c).error_iff _).mp hpanic
  have hpass := calm_checks (run_durationsFit hrun hsets) hblock c _
    (Resumption.mem_of_refusal hrefusal) rfl
  cases hpass

theorem never_panics_sample : (Sample.played 7).2.exec Sample.deployment
    ⟨Sample.msg 34 5100 11, .game (.drawNumber Sample.gameId)⟩ ≠ .error arithmeticPanic :=
  never_panics (Sample.played_run 7) (by decide +kernel) (by decide +kernel) (by decide)
    (by decide) (by decide) _

end BitmaskBingo
