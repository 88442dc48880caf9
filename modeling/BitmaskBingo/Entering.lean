/-
  BitmaskBingo.Entering

  When `createGame` and `joinGame` succeed: the caller can pay the fee and the
  game is there to enter.  Nothing else on the way can fail.  In particular
  the pot has room for the fee, whatever the owner sets it to: all pots and
  the caller's tokens are part of one supply below `2 ^ 64`.
-/

import BitmaskBingo.Solvency

namespace BitmaskBingo

open Lib BingoToken

variable {d : Deployment} {deployer : Address} {l : List (Step bingoToken)}
  {w w' : World bingoToken} {msg : Msg} {g : Bytes32} {r : Returned}

-- ============================================================================
-- Paying the fee
-- ============================================================================

/-- The caller holds the fee and has granted it to the game. -/
structure CanPay (d : Deployment) (w : World bingoToken) (p : Address) : Prop where
  balance : w.game.gameSettings.entryFee ≤ w.token.balances p
  allowance : w.game.gameSettings.entryFee ≤ w.token.allowances p d.this

theorem le_maxUint256 (x : Uint256) : x ≤ maxUint256 := by
  have hlt := x.isLt
  have hmax : maxUint256.toNat = 2 ^ 256 - 1 := by decide
  rw [BitVec.le_def, hmax]
  omega

/-- The token charges exactly who can pay. -/
theorem charge_iff (hzero : msg.sender ≠ 0) :
    (∃ t', runCalls (bingoToken.callee d msg)
      [.transferFrom msg.sender d.this w.game.gameSettings.entryFee] w.token = .ok t') ↔
      CanPay d w msg.sender := by
  refine ⟨?_, fun h => ?_⟩
  · rintro ⟨t', hcalls⟩
    have heff := callee_transferFrom_iff.mp (runCalls_singleton.mp hcalls)
    refine ⟨heff.funds, ?_⟩
    rcases heff.covers with hmax | ⟨hle, -⟩
    · rw [hmax]
      exact le_maxUint256 _
    · exact hle
  · have hcovers : w.token.Covers msg.sender d.this w.game.gameSettings.entryFee :=
      Or.inr ⟨h.allowance, hzero, d.this_ne_zero⟩
    have heff := Effect.transferFrom hcovers hzero d.this_ne_zero h.balance
    exact ⟨_, runCalls_singleton.mpr (callee_transferFrom_iff.mpr heff)⟩

/-- A fee that somebody can pay fits in a `uint64`. -/
theorem CanPay.fee_toNat {p : Address} (h : CanPay d w p) (hsound : w.token.Sound d.this) :
    (uint64 w.game.gameSettings.entryFee).toNat = w.game.gameSettings.entryFee.toNat :=
  uint64_toNat_of_lt (hsound.funds_lt h.balance)

/-- The pot has room for what the caller pays. -/
theorem CanPay.room {p : Address} (h : CanPay d w p) (hsound : w.token.Sound d.this)
    (hcovers : w.game.pots ≤ (w.token.balances d.this).toNat) (hp : p ≠ d.this) (g : Bytes32) :
    (w.game.gameRegistry g).prizePool.toNat + (uint64 w.game.gameSettings.entryFee).toNat
      < 2 ^ 64 := by
  have hpot := w.game.prizePool_le_pots g
  have hboth := Ledger.add_le_total w.token.balances hp
  have htotal := hsound.total_lt
  have hbalance := BitVec.le_def.mp h.balance
  rw [h.fee_toNat hsound]
  omega

-- ============================================================================
-- Success
-- ============================================================================

/-- `createGame` succeeds exactly for who can pay, where there is no game. -/
theorem createGame_succeeds_iff (hblock : msg.block.number ≠ 0) (hzero : msg.sender ≠ 0) :
    (∃ x, w.exec d ⟨msg, .game .createGame⟩ = .ok x) ↔
      CanPay d w msg.sender ∧ (w.game.gameRegistry (newGameId d msg)).createdAt = 0 := by
  rw [← charge_iff hzero]
  refine ⟨?_, ?_⟩
  · rintro ⟨⟨w', r⟩, hexec⟩
    obtain ⟨heff, hcalls⟩ := World.exec_game_iff.mp hexec
    generalize w'.game = s' at heff
    cases heff with
    | createGame hb hnew => exact ⟨⟨_, hcalls⟩, hnew⟩
  · rintro ⟨⟨t', hcalls⟩, hnew⟩
    exact ⟨(⟨_, t'⟩, _), World.exec_game_iff.mpr ⟨.createGame hblock hnew, hcalls⟩⟩

/-- `joinGame` succeeds exactly for who can pay, while the game is open. -/
theorem joinGame_succeeds_iff (hblock : msg.block.number ≠ 0) (hzero : msg.sender ≠ 0)
    (hroom : CanPay d w msg.sender → (w.game.gameRegistry g).prizePool.toNat
      + (uint64 w.game.gameSettings.entryFee).toNat < 2 ^ 64) :
    (∃ x, w.exec d ⟨msg, .game (.joinGame g)⟩ = .ok x) ↔
      CanPay d w msg.sender ∧ w.game.JoinOpen msg.block.timestamp g := by
  refine ⟨?_, ?_⟩
  · rintro ⟨⟨w', r⟩, hexec⟩
    obtain ⟨heff, hcalls⟩ := World.exec_game_iff.mp hexec
    generalize w'.game = s' at heff
    cases heff with
    | joinGame hopen hpot hb => exact ⟨(charge_iff hzero).mp ⟨_, hcalls⟩, hopen⟩
  · rintro ⟨hpay, hopen⟩
    obtain ⟨t', hcalls⟩ := (charge_iff hzero).mpr hpay
    have hpot := toNat_eq_add_iff.mpr ⟨hroom hpay, rfl⟩
    exact ⟨(⟨_, t'⟩, _), World.exec_game_iff.mpr ⟨.joinGame hopen hpot hblock, hcalls⟩⟩

/-- The fee is what the pot of the entered game grows by. -/
def PotGrows (w w' : World bingoToken) (g : Bytes32) : Prop :=
  (w'.game.gameRegistry g).prizePool.toNat
    = (w.game.gameRegistry g).prizePool.toNat + w.game.gameSettings.entryFee.toNat

theorem joinGame_potGrows (hsound : w.token.Sound d.this) (hzero : msg.sender ≠ 0)
    (hexec : w.exec d ⟨msg, .game (.joinGame g)⟩ = .ok (w', r)) : PotGrows w w' g := by
  obtain ⟨heff, hcalls⟩ := World.exec_game_iff.mp hexec
  have hpay : CanPay d w msg.sender := (charge_iff hzero).mp ⟨_, hcalls⟩
  rw [PotGrows, ← hpay.fee_toNat hsound]
  generalize w'.game = s' at heff
  cases heff with
  | joinGame hopen hpot hb => simpa using hpot

theorem createGame_potGrows (hsound : w.token.Sound d.this) (hzero : msg.sender ≠ 0)
    (hempty : (w.game.gameRegistry (newGameId d msg)).createdAt = 0 →
      (w.game.gameRegistry (newGameId d msg)).prizePool = 0)
    (hexec : w.exec d ⟨msg, .game .createGame⟩ = .ok (w', r)) :
    PotGrows w w' (newGameId d msg) := by
  obtain ⟨heff, hcalls⟩ := World.exec_game_iff.mp hexec
  have hpay : CanPay d w msg.sender := (charge_iff hzero).mp ⟨_, hcalls⟩
  rw [PotGrows, ← hpay.fee_toNat hsound]
  generalize w'.game = s' at heff
  cases heff with
  | createGame hb hnew =>
      rw [hempty hnew]
      simp [newGame]

/-- **Exactly when entering a game succeeds.** -/
theorem entering_succeeds_iff
    (hrun : WorldRun d (World.initial (BingoToken.deployed deployer)) l w)
    (hsenders : ∀ e ∈ l, e.sender ≠ d.this) (ht : ∀ e ∈ l, e.ValidTime)
    (hblock : msg.block.number ≠ 0) (hzero : msg.sender ≠ 0) (hthis : msg.sender ≠ d.this) :
    ((∃ x, w.exec d ⟨msg, .game .createGame⟩ = .ok x) ↔
      w.game.gameSettings.entryFee ≤ w.token.balances msg.sender ∧
        w.game.gameSettings.entryFee ≤ w.token.allowances msg.sender d.this ∧
        (w.game.gameRegistry (newGameId d msg)).createdAt = 0) ∧
    (∀ g, (∃ x, w.exec d ⟨msg, .game (.joinGame g)⟩ = .ok x) ↔
      (w.game.gameRegistry g).createdAt ≠ 0 ∧
        (w.game.gameRegistry g).createdAt.toNat + w.game.gameSettings.minimumJoinDuration.toNat
          < 2 ^ 256 ∧
        msg.block.timestamp.toNat < (w.game.gameRegistry g).createdAt.toNat
          + w.game.gameSettings.minimumJoinDuration.toNat ∧
        w.game.gameSettings.entryFee ≤ w.token.balances msg.sender ∧
        w.game.gameSettings.entryFee ≤ w.token.allowances msg.sender d.this) ∧
    (∀ w' r, w.exec d ⟨msg, .game .createGame⟩ = .ok (w', r) → PotGrows w w' (newGameId d msg)) ∧
    (∀ g w' r, w.exec d ⟨msg, .game (.joinGame g)⟩ = .ok (w', r) → PotGrows w w' g) := by
  have hsound := run_sound hrun hsenders
  have hcovers := run_covers hrun hsenders
  refine ⟨?_, fun g => ?_, fun w' r hexec => ?_, fun g w' r hexec => ?_⟩
  · rw [createGame_succeeds_iff hblock hzero]
    exact ⟨fun h => ⟨h.1.balance, h.1.allowance, h.2⟩, fun h => ⟨⟨h.1, h.2.1⟩, h.2.2⟩⟩
  · rw [joinGame_succeeds_iff hblock hzero fun hpay => hpay.room hsound hcovers hthis g]
    exact ⟨fun h => ⟨h.2.exists_, h.2.fits, h.2.before, h.1.balance, h.1.allowance⟩,
      fun h => ⟨⟨h.2.2.2.1, h.2.2.2.2⟩, ⟨h.1, h.2.1, h.2.2.1⟩⟩⟩
  · refine createGame_potGrows hsound hzero (fun hnew => ?_) hexec
    have hgame := run_gameInv hrun ht (newGameId d msg)
    rw [hgame.record_zero fun hc => hgame.exists_ ht hc hnew]
    rfl
  · exact joinGame_potGrows hsound hzero hexec

theorem entering_sample :
    (Sample.played 5).2.game.gameSettings.entryFee = 1000 ∧
    ((∃ x, (Sample.played 5).2.exec Sample.deployment
        ⟨Sample.msg 34 2000 2, .game (.joinGame Sample.gameId)⟩ = .ok x) ↔
      ((Sample.played 5).2.game.gameRegistry Sample.gameId).createdAt ≠ 0 ∧
        ((Sample.played 5).2.game.gameRegistry Sample.gameId).createdAt.toNat
          + (Sample.played 5).2.game.gameSettings.minimumJoinDuration.toNat < 2 ^ 256 ∧
        (Sample.msg 34 2000 2).block.timestamp.toNat
          < ((Sample.played 5).2.game.gameRegistry Sample.gameId).createdAt.toNat
            + (Sample.played 5).2.game.gameSettings.minimumJoinDuration.toNat ∧
        (Sample.played 5).2.game.gameSettings.entryFee
          ≤ (Sample.played 5).2.token.balances (Sample.msg 34 2000 2).sender ∧
        (Sample.played 5).2.game.gameSettings.entryFee
          ≤ (Sample.played 5).2.token.allowances (Sample.msg 34 2000 2).sender
            Sample.deployment.this) :=
  ⟨by decide +kernel,
    (entering_succeeds_iff (Sample.played_run 5) (by decide +kernel) (by decide +kernel)
      (by decide) (by decide) (by decide)).2.1 Sample.gameId⟩

end BitmaskBingo
