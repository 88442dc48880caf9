/-
  BitmaskBingo.Solvency

  The money of the game, with `BingoToken` as the token.  The tokens of the
  game contract are the pots of all games and what was sent there directly;
  a pot is what the players of its game were charged; and a winner is always
  paid, once.

  One lemma says what a step does to the tokens of the game, one what it does
  to the pots, and the results follow along the run.  No transaction of a run
  is sent by the game contract: it is no account of anybody, and what its code
  asks of the token is part of its own calls.
-/

import BitmaskBingo.LifeCycle

namespace BitmaskBingo

open Lib

variable {d : Deployment} {deployer : Address} {l : List (Step bingoToken)}
  {w w' : World bingoToken} {e : Step bingoToken} {g : Bytes32}

-- ============================================================================
-- Pots
-- ============================================================================

/-- The sum of all pots. -/
def Storage.pots (s : Storage) : Nat := Ledger.total fun g => (s.gameRegistry g).prizePool

theorem Storage.prizePool_le_pots (s : Storage) (g : Bytes32) :
    (s.gameRegistry g).prizePool.toNat ≤ s.pots :=
  Ledger.le_total (fun g => (s.gameRegistry g).prizePool) g

@[simp] theorem Storage.pots_setCard (s : Storage) (p : Address) (g : Bytes32) (c : BingoCard) :
    (s.setCard p g c).pots = s.pots := rfl

theorem Storage.pots_settings (s : Storage) (settings : GlobalGameSettings) :
    Storage.pots { s with gameSettings := settings } = s.pots := rfl

theorem Storage.pots_setGame (s : Storage) (g : Bytes32) (r : Game) :
    (s.setGame g r).pots + (s.gameRegistry g).prizePool.toNat = s.pots + r.prizePool.toNat := by
  have hupdate : (fun g' => ((s.setGame g r).gameRegistry g').prizePool)
      = Function.update (fun g' => (s.gameRegistry g').prizePool) g r.prizePool := by
    funext g'
    rw [Storage.setGame_gameRegistry, Function.update_apply]
    split <;> rfl
  rw [Storage.pots, hupdate]
  exact Ledger.total_update (fun g' => (s.gameRegistry g').prizePool) g r.prizePool

-- ============================================================================
-- What a step does to the token
-- ============================================================================

/-- The fee in force when the step was taken. -/
def Step.fee (e : Step bingoToken) : Uint256 := e.pre.game.gameSettings.entryFee

/-- A step that deals a card charges the fee. -/
theorem Steps.charge (h : Steps d w e w') (he : e.deals) :
    w.token.Effect d.this (.transferFrom e.sender d.this e.fee) w'.token := by
  have hfee : e.fee = w.game.gameSettings.entryFee := by rw [Step.fee, h.1]
  rw [hfee]
  rw [Step.deals] at he
  split at he
  · rename_i hc
    exact callee_transferFrom_iff.mp (runCalls_singleton.mp (h.of_call hc).2)
  · rename_i hc
    exact callee_transferFrom_iff.mp (runCalls_singleton.mp (h.of_call hc).2)
  · exact he.elim

/-- A claim pays the pot. -/
theorem Steps.pay (h : Steps d w e w') (hsound : w.token.Sound d.this) (he : e.claims g) :
    uint256 (w.game.gameRegistry g).prizePool ≤ w.token.balances d.this ∧
      paid d e.sender (uint256 (w.game.gameRegistry g).prizePool) w.token = w'.token := by
  have hcalls := (h.of_call he).2
  have hprize : (uint256 (w.game.gameRegistry g).prizePool).toNat < 2 ^ 64 := by
    rw [uint256_toNat_uint64]
    exact BitVec.isLt _
  exact ((pay_iff hsound hprize).mp hcalls).2

/-- A call of the token is a step of the token. -/
theorem Steps.token_call (h : Steps d w e w') (hc : e.call? = none) :
    ∃ op, e.tx.action = .token op ∧ w.token.Effect e.sender op w'.token := by
  obtain ⟨_, _, hexec⟩ := h
  obtain ⟨_, ⟨msg, act⟩, _, _⟩ := e
  cases act with
  | game c => simp [Step.call?] at hc
  | token op =>
      have hcall := (World.exec_token_iff.mp hexec).1
      exact ⟨op, rfl, (BingoToken.call_iff (t := w.token) op).mp hcall⟩

/-- A function that makes no call leaves the token alone. -/
theorem Steps.token_same {c : Call} (h : Steps d w e w') (hc : e.call? = some c)
    (hnone : tokenCalls d e.tx.msg w.game c = []) : w'.token = w.token := by
  have hcalls := (h.of_call hc).2
  rw [hnone, runCalls_nil] at hcalls
  exact (Except.ok.inj hcalls).symm

/-- What a call of the game can do to the token. -/
inductive TokenChange (d : Deployment) (e : Step bingoToken) (w : World bingoToken) :
    BingoToken → Prop where
  | charged {t : BingoToken} (he : e.deals)
      (heff : w.token.Effect d.this (.transferFrom e.sender d.this e.fee) t) :
      TokenChange d e w t
  | won {g : Bytes32} (he : e.claims g)
      (hfunds : uint256 (w.game.gameRegistry g).prizePool ≤ w.token.balances d.this) :
      TokenChange d e w (paid d e.sender (uint256 (w.game.gameRegistry g).prizePool) w.token)
  | same (hd : ¬ e.deals) (hp : ∀ g, ¬ e.claims g) : TokenChange d e w w.token

theorem Steps.token_change (h : Steps d w e w') (hsound : w.token.Sound d.this)
    (hgame : e.call? ≠ none) : TokenChange d e w w'.token := by
  cases hc : e.call? with
  | none => exact absurd hc hgame
  | some c =>
      by_cases hd : e.deals
      · exact .charged hd (h.charge hd)
      · cases c with
        | createGame => exact absurd (by rw [Step.deals, hc]; trivial) hd
        | joinGame g => exact absurd (by rw [Step.deals, hc]; trivial) hd
        | claimPrize g =>
            obtain ⟨hfunds, heq⟩ := h.pay hsound hc
            rw [← heq]
            exact .won hc hfunds
        | _ =>
            rw [h.token_same hc rfl]
            exact .same hd fun g hp => by simp [Step.claims, hc] at hp

/-- The ledger stays sound. -/
theorem Steps.sound (h : Steps d w e w') (hsound : w.token.Sound d.this)
    (hs : e.sender ≠ d.this) : w'.token.Sound d.this := by
  by_cases hc : e.call? = none
  · obtain ⟨op, -, heff⟩ := h.token_call hc
    exact hsound.call hs heff
  · have hchange := h.token_change hsound hc
    generalize w'.token = t' at hchange
    cases hchange with
    | charged he heff => exact hsound.transferFrom heff
    | won he hfunds => exact paid_sound hsound hfunds
    | same => exact hsound

theorem run_sound (hrun : WorldRun d (World.initial (BingoToken.deployed deployer)) l w)
    (hsenders : ∀ e ∈ l, e.sender ≠ d.this) : w.token.Sound d.this :=
  hrun.invariant_of (P := fun _ w => w.token.Sound d.this) hsenders
    (BingoToken.deployed_sound d.this deployer)
    fun _ _ _ _ _ _ hinv hs hstep => hstep.sound hinv hs

/-- A fee that was charged fits in a `uint64`. -/
theorem Steps.fee_lt (h : Steps d w e w') (hsound : w.token.Sound d.this) (he : e.deals) :
    e.fee.toNat < 2 ^ 64 := hsound.funds_lt (h.charge he).funds

/-- What is added to the pot is the fee that was charged. -/
theorem Steps.fee_toNat (h : Steps d w e w') (hsound : w.token.Sound d.this) (he : e.deals) :
    (uint64 w.game.gameSettings.entryFee).toNat = e.fee.toNat := by
  have hpre : e.fee = w.game.gameSettings.entryFee := by rw [Step.fee, h.1]
  rw [← hpre]
  exact uint64_toNat_of_lt (h.fee_lt hsound he)

/-- The fee moves from the player to the game. -/
theorem Steps.charge_balances (h : Steps d w e w') (hsound : w.token.Sound d.this)
    (he : e.deals) (hs : e.sender ≠ d.this) :
    (w'.token.balances e.sender).toNat + e.fee.toNat = (w.token.balances e.sender).toNat ∧
      (w'.token.balances d.this).toNat = (w.token.balances d.this).toNat + e.fee.toNat := by
  have hpayer := hsound.transferFrom_balances (h.charge he) e.sender
  have hgame := hsound.transferFrom_balances (h.charge he) d.this
  rw [if_pos rfl, if_neg hs] at hpayer
  rw [if_neg hs.symm, if_pos rfl] at hgame
  exact ⟨hpayer, hgame⟩

/-- The pot moves from the game to the winner. -/
theorem Steps.pay_balances (h : Steps d w e w') (hsound : w.token.Sound d.this)
    (he : e.claims g) (hs : e.sender ≠ d.this) :
    (w'.token.balances e.sender).toNat
        = (w.token.balances e.sender).toNat + (w.game.gameRegistry g).prizePool.toNat ∧
      (w'.token.balances d.this).toNat + (w.game.gameRegistry g).prizePool.toNat
        = (w.token.balances d.this).toNat := by
  obtain ⟨hfunds, heq⟩ := h.pay hsound he
  have hmove := paid_balances e.sender hsound hfunds
  rw [heq, uint256_toNat_uint64] at hmove
  have hwinner := hmove e.sender
  have hgame := hmove d.this
  rw [if_pos rfl, if_neg hs] at hwinner
  rw [if_neg hs.symm, if_pos rfl] at hgame
  exact ⟨hwinner, hgame⟩

-- ============================================================================
-- The money of a step
-- ============================================================================

/-- The tokens that a step brings to `this` outside the game. -/
def Step.direct (this : Address) (e : Step bingoToken) : Nat :=
  match e.tx.action with
  | .token op => BingoToken.received this e.sender op
  | .game _ => 0

/-- The tokens that reached `this` outside the game. -/
def direct (this : Address) (l : List (Step bingoToken)) : Nat := (l.map (Step.direct this)).sum

theorem direct_concat (this : Address) :
    direct this (l ++ [e]) = direct this l + e.direct this := by
  simp [direct]

theorem Step.direct_game {this : Address} {c : Call} (hc : e.call? = some c) :
    e.direct this = 0 := by
  obtain ⟨_, ⟨msg, act⟩, _, _⟩ := e
  cases act with
  | game c' => rfl
  | token op => simp [Step.call?] at hc

/-- The pot that `createGame` overwrites: one of a game whose `createdAt` is 0. -/
def Step.overwritten (e : Step bingoToken) (d : Deployment) : Nat :=
  if e.call? = some .createGame then
    (e.pre.game.gameRegistry (newGameId d e.tx.msg)).prizePool.toNat
  else 0

/-- The fee that the step charges its caller. -/
def Step.charged (e : Step bingoToken) : Nat := if e.deals then e.fee.toNat else 0

/-- The pot that a claim pays out. -/
def Step.pot (e : Step bingoToken) : Nat :=
  match e.call? with
  | some (.claimPrize g) => (e.pre.game.gameRegistry g).prizePool.toNat
  | _ => 0

theorem Step.charged_of_deals (hd : e.deals) : e.charged = e.fee.toNat := if_pos hd

theorem Step.charged_of_not_deals (hd : ¬ e.deals) : e.charged = 0 := if_neg hd

theorem Step.pot_of_claims (he : e.claims g) :
    e.pot = (e.pre.game.gameRegistry g).prizePool.toNat := by
  rw [Step.pot, show e.call? = some (.claimPrize g) from he]

theorem Step.pot_of_not_claims (hp : ∀ g, ¬ e.claims g) : e.pot = 0 := by
  rw [Step.pot]
  split
  · rename_i g hc
    exact absurd hc (hp g)
  · rfl

theorem Step.deals.not_claims (hd : e.deals) (g : Bytes32) : ¬ e.claims g := by
  intro hp
  rw [Step.deals, show e.call? = some (.claimPrize g) from hp] at hd
  exact hd

/-- Only entries are charged, and only claims are paid. -/
theorem Step.quiet_moves {c : Call} (hc : e.call? = some c) (hcreate : c ≠ .createGame)
    (hjoin : ∀ g, c ≠ .joinGame g) (hclaim : ∀ g, c ≠ .claimPrize g) :
    e.charged = 0 ∧ e.pot = 0 := by
  refine ⟨Step.charged_of_not_deals fun hd => ?_, Step.pot_of_not_claims fun g hp => ?_⟩
  · rw [Step.deals] at hd
    split at hd
    · rename_i hc'
      exact hcreate (Option.some.inj (hc.symm.trans hc'))
    · rename_i hc'
      exact hjoin _ (Option.some.inj (hc.symm.trans hc'))
    · exact hd
  · exact hclaim g (Option.some.inj (hc.symm.trans hp))

/-- A call of the token is no call of the game. -/
theorem Step.token_moves (hc : e.call? = none) :
    e.charged = 0 ∧ e.pot = 0 ∧ e.overwritten d = 0 := by
  refine ⟨Step.charged_of_not_deals ?_, Step.pot_of_not_claims fun g hp => ?_, ?_⟩
  · rw [Step.deals, hc]
    exact id
  · rw [Step.claims, hc] at hp
    cases hp
  · rw [Step.overwritten, hc]
    exact if_neg (by simp)

/-- What a step does to the tokens of the game. -/
theorem Steps.game_balance (h : Steps d w e w') (hsound : w.token.Sound d.this)
    (hs : e.sender ≠ d.this) :
    (w'.token.balances d.this).toNat + e.pot
      = (w.token.balances d.this).toNat + e.charged + e.direct d.this := by
  cases hc : e.call? with
  | none =>
      obtain ⟨op, hop, heff⟩ := h.token_call hc
      obtain ⟨hcharged, hpot, -⟩ := Step.token_moves (d := d) hc
      have hbalance := hsound.balance_call hs heff
      have hdirect : e.direct d.this = BingoToken.received d.this e.sender op := by
        rw [Step.direct, hop]
      omega
  | some c =>
      have hchange := h.token_change hsound (by rw [hc]; simp)
      rw [Step.direct_game hc]
      generalize w'.token = t' at hchange
      cases hchange with
      | charged he heff =>
          have hmove := hsound.transferFrom_balances heff d.this
          rw [if_neg hs.symm, if_pos rfl] at hmove
          rw [Step.charged_of_deals he, Step.pot_of_not_claims he.not_claims]
          exact hmove
      | won he hfunds =>
          have hmove := paid_balances e.sender hsound hfunds d.this
          rw [if_neg hs.symm, if_pos rfl, uint256_toNat_uint64] at hmove
          rw [Step.charged_of_not_deals fun hd => hd.not_claims _ he, Step.pot_of_claims he, h.1]
          exact hmove
      | same hd hp => rw [Step.charged_of_not_deals hd, Step.pot_of_not_claims hp]

/-- What a step does to the pots. -/
theorem Steps.pots (h : Steps d w e w') (hsound : w.token.Sound d.this) :
    w'.game.pots + e.pot + e.overwritten d = w.game.pots + e.charged := by
  cases hc : e.call? with
  | none =>
      obtain ⟨hcharged, hpot, hover⟩ := Step.token_moves (d := d) hc
      rw [h.of_token hc]
      omega
  | some c =>
      have heff := (h.of_call hc).1
      have hfee := fun hd => h.fee_toNat hsound hd
      have hwrite := Storage.pots_setGame w.game
      rw [Step.overwritten, hc, h.1]
      generalize e.ret = r at heff
      generalize w'.game = s' at heff ⊢
      cases heff with
      | createGame hblock hnew =>
          have hd : e.deals := by rw [Step.deals, hc]; trivial
          have hpots := hwrite (newGameId d e.tx.msg)
            (newGame e.tx.msg w.game.gameSettings.entryFee)
          have hpot : (newGame e.tx.msg w.game.gameSettings.entryFee).prizePool.toNat
              = e.fee.toNat := hfee hd
          rw [Step.charged_of_deals hd, Step.pot_of_not_claims hd.not_claims,
            Storage.pots_setCard, if_pos rfl]
          omega
      | @joinGame g pot hopen hpot hblock =>
          have hd : e.deals := by rw [Step.deals, hc]; trivial
          have hpots : (w.game.setGame g { w.game.gameRegistry g with prizePool := pot }).pots
              + (w.game.gameRegistry g).prizePool.toNat = w.game.pots + pot.toNat := hwrite g _
          rw [hfee hd] at hpot
          rw [Step.charged_of_deals hd, Step.pot_of_not_claims hd.not_claims,
            Storage.pots_setCard, if_neg (by simp)]
          omega
      | @claimPrize g hplayer hwin =>
          have hp : e.claims g := hc
          have hpots := hwrite g (w.game.gameRegistry g).finished
          have hempty : (w.game.gameRegistry g).finished.prizePool.toNat = 0 := rfl
          rw [Step.charged_of_not_deals fun hd => hd.not_claims g hp, Step.pot_of_claims hp, h.1,
            if_neg (by simp)]
          omega
      | @drawNumber g hplayer hopen hblock =>
          have hpots : _ + (w.game.gameRegistry g).prizePool.toNat
              = _ + (w.game.gameRegistry g).prizePool.toNat :=
            hwrite g ((w.game.gameRegistry g).drawn d e.tx.msg.block)
          obtain ⟨hcharged, hpot⟩ := Step.quiet_moves hc (by simp) (by simp) (by simp)
          rw [if_neg (by simp)]
          omega
      | markNumberOnCard =>
          obtain ⟨hcharged, hpot⟩ := Step.quiet_moves hc (by simp) (by simp) (by simp)
          rw [Storage.pots_setCard, if_neg (by simp)]
          omega
      | _ =>
          obtain ⟨hcharged, hpot⟩ := Step.quiet_moves hc (by simp) (by simp) (by simp)
          rw [Storage.pots_settings, if_neg (by simp)]
          omega

/-- The tokens of the game and the pots move together. -/
theorem Steps.money (h : Steps d w e w') (hsound : w.token.Sound d.this)
    (hs : e.sender ≠ d.this) :
    (w'.token.balances d.this).toNat + w.game.pots
      = (w.token.balances d.this).toNat + w'.game.pots + e.direct d.this + e.overwritten d := by
  have hbalance := h.game_balance hsound hs
  have hpots := h.pots hsound
  omega

-- ============================================================================
-- Solvency
-- ============================================================================

theorem initial_pots : Storage.initial.pots = 0 := Ledger.total_zero

/-- The game can pay all its pots, whatever the clock does. -/
theorem run_covers (hrun : WorldRun d (World.initial (BingoToken.deployed deployer)) l w)
    (hsenders : ∀ e ∈ l, e.sender ≠ d.this) :
    w.game.pots ≤ (w.token.balances d.this).toNat := by
  refine hrun.invariant_of (P := fun _ w => w.game.pots ≤ (w.token.balances d.this).toNat)
    hsenders ?_ ?_
  · exact Nat.le_of_eq initial_pots
  · intro k a e b hrun hk hinv hs hstep
    have hmoney := hstep.money (run_sound hrun hk) hs
    omega

/-- With valid times no pot is overwritten. -/
theorem Steps.overwritten_eq_zero (h : Steps d w e w') (hinv : ∀ g, GameInv g l w.game)
    (ht : ∀ e ∈ l, e.ValidTime) : e.overwritten d = 0 := by
  rw [Step.overwritten]
  split
  · rename_i hc
    have heff := (h.of_call hc).1
    generalize e.ret = r at heff
    generalize w'.game = s' at heff
    cases heff with
    | createGame hblock hnew =>
        have hfresh : ¬ Created (newGameId d e.tx.msg) l := fun hcreated =>
          (hinv _).exists_ ht hcreated hnew
        rw [h.1, (hinv _).record_zero hfresh]
        rfl
  · rfl

/-- **Solvency.** -/
theorem solvency (hrun : WorldRun d (World.initial (BingoToken.deployed deployer)) l w)
    (hsenders : ∀ e ∈ l, e.sender ≠ d.this) (ht : ∀ e ∈ l, e.ValidTime) :
    (w.token.balances d.this).toNat
        = (∑ g, (w.game.gameRegistry g).prizePool.toNat) + direct d.this l ∧
      (∀ g, (w.game.gameRegistry g).prizePool.toNat ≤ (w.token.balances d.this).toNat) ∧
      (∀ e ∈ l, ∀ g, e.enters g → (uint64 e.fee).toNat = e.fee.toNat) := by
  have hequal : (w.token.balances d.this).toNat = w.game.pots + direct d.this l := by
    refine hrun.invariant_of (Q := fun e => e.sender ≠ d.this ∧ e.ValidTime)
      (P := fun l w => (w.token.balances d.this).toNat = w.game.pots + direct d.this l)
      (fun e he => ⟨hsenders e he, ht e he⟩) ?_ ?_
    · show 0 = Storage.initial.pots + 0
      rw [initial_pots]
    · intro k a e b hrun hk hinv hq hstep
      have htk : ∀ e' ∈ k, e'.ValidTime := fun e' he' => (hk e' he').2
      have hmoney := hstep.money (run_sound hrun fun e' he' => (hk e' he').1) hq.1
      rw [hstep.overwritten_eq_zero (fun g => run_gameInv hrun htk g) htk] at hmoney
      rw [direct_concat]
      omega
  refine ⟨hequal, fun g => ?_, fun e he g henters => ?_⟩
  · have hle := w.game.prizePool_le_pots g
    omega
  · obtain ⟨k, k', a, b, rfl, hrun₁, hstep, -⟩ := hrun.exists_step he
    have hsound := run_sound hrun₁ (List.forall_mem_append.mp hsenders).1
    exact uint64_toNat_of_lt (hstep.fee_lt hsound henters.deals)

theorem solvency_sample :
    (Sample.played 14).1.length = 14 ∧
    ((Sample.played 14).2.token.balances Sample.deployment.this).toNat
      = (∑ g, ((Sample.played 14).2.game.gameRegistry g).prizePool.toNat)
        + direct Sample.deployment.this (Sample.played 14).1 :=
  ⟨by decide +kernel,
    (solvency (Sample.played_run 14) (by decide +kernel) (by decide +kernel)).1⟩

-- ============================================================================
-- Single exact payout
-- ============================================================================

/-- The fees charged for game `g`, over all its entries. -/
def charged (g : Bytes32) (l : List (Step bingoToken)) : Nat :=
  ((l.filter fun e => e.enters g).map fun e => e.fee.toNat).sum

theorem charged_concat :
    charged g (l ++ [e]) = charged g l + if e.enters g then e.fee.toNat else 0 := by
  by_cases he : e.enters g
  · simp [charged, he]
  · simp [charged, he]

theorem countP_claims_concat :
    (l ++ [e]).countP (fun e => e.claims g)
      = l.countP (fun e => e.claims g) + if e.claims g then 1 else 0 := by
  rw [List.countP_append, List.countP_singleton]
  simp

/-- The pot of game `g` after the history `l`. -/
structure PotInv (g : Bytes32) (l : List (Step bingoToken)) (s : Storage) : Prop where
  once : l.countP (fun e => e.claims g) ≤ 1
  ended : l.countP (fun e => e.claims g) ≠ 0 →
    (s.gameRegistry g).createdAt ≠ 0 ∧ (s.gameRegistry g).lastDrawnNumber = 1000
  pot : l.countP (fun e => e.claims g) = 0 →
    (s.gameRegistry g).prizePool.toNat = charged g l

/-- An open game was not claimed. -/
theorem PotInv.unclaimed {s : Storage} {p : Address} (h : PotInv g l s)
    (hplayer : s.OnlyPlayer p g) : l.countP (fun e => e.claims g) = 0 := by
  by_contra hclaimed
  exact hplayer.not_over (h.ended hclaimed).2

theorem Steps.potInv (h : Steps d w e w') (hinv : PotInv g l w.game)
    (hgame : GameInv g l w.game) (ht : ∀ e ∈ l, e.ValidTime)
    (hcast : e.enters g → (uint64 w.game.gameSettings.entryFee).toNat = e.fee.toNat) :
    PotInv g (l ++ [e]) w'.game := by
  have hrec := h.record g
  generalize w'.game = s' at hrec
  generalize hr : s'.gameRegistry g = r at hrec
  cases hrec with
  | same hc hj hd hp =>
      have henters : ¬ e.enters g := fun he => he.elim hc hj
      refine ⟨?_, ?_, ?_⟩
      all_goals rw [countP_claims_concat, if_neg hp, Nat.add_zero]
      · exact hinv.once
      · rw [hr]
        exact hinv.ended
      · rw [hr, charged_concat, if_neg henters, Nat.add_zero]
        exact hinv.pot
  | created he hnew =>
      have hzero : l.countP (fun e => e.claims g) = 0 := by
        by_contra hclaimed
        exact (hinv.ended hclaimed).1 hnew
      have hnone : charged g l = 0 := by
        rw [← hinv.pot hzero, hgame.record_zero fun hc => hgame.exists_ ht hc hnew]
        rfl
      have henters : e.enters g := Or.inl he
      have hp : ¬ e.claims g := fun hp => hp.not_enters henters
      refine ⟨?_, ?_, ?_⟩
      all_goals rw [countP_claims_concat, if_neg hp, hzero]
      · exact Nat.zero_le _
      · exact fun hne => absurd rfl hne
      · intro _
        rw [hr, charged_concat, if_pos henters, hnone, Nat.zero_add]
        exact hcast henters
  | joined he hopen hpot =>
      have henters : e.enters g := Or.inr he
      have hp : ¬ e.claims g := fun hp => hp.not_enters henters
      refine ⟨?_, ?_, ?_⟩
      all_goals rw [countP_claims_concat, if_neg hp, Nat.add_zero]
      · exact hinv.once
      · rw [hr]
        exact hinv.ended
      · intro hzero
        rw [hr, charged_concat, if_pos henters, ← hinv.pot hzero, ← hcast henters]
        exact hpot
  | drawn he hplayer hopen =>
      have hp : ¬ e.claims g := fun hp => hp.not_draws he
      have henters : ¬ e.enters g := he.not_enters
      refine ⟨?_, ?_, ?_⟩
      all_goals rw [countP_claims_concat, if_neg hp, Nat.add_zero]
      · exact hinv.once
      · exact fun hne => absurd (hinv.unclaimed hplayer) hne
      · rw [hr, charged_concat, if_neg henters, Nat.add_zero]
        exact hinv.pot
  | claimed he hplayer hwin =>
      refine ⟨?_, ?_, ?_⟩
      all_goals rw [countP_claims_concat, if_pos he, hinv.unclaimed hplayer]
      · rw [hr]
        exact fun _ => ⟨hplayer.exists_, rfl⟩
      · exact fun hne => absurd hne (by decide)

theorem run_potInv (hrun : WorldRun d (World.initial (BingoToken.deployed deployer)) l w)
    (hsenders : ∀ e ∈ l, e.sender ≠ d.this) (ht : ∀ e ∈ l, e.ValidTime) (g : Bytes32) :
    PotInv g l w.game := by
  refine hrun.invariant_of (P := fun l w => PotInv g l w.game)
    (Q := fun e => e.sender ≠ d.this ∧ e.ValidTime) (fun e he => ⟨hsenders e he, ht e he⟩) ?_ ?_
  · exact ⟨Nat.zero_le _, fun hne => absurd rfl hne, fun _ => rfl⟩
  · intro k a e b hrun hk hinv hq hstep
    have htk : ∀ e' ∈ k, e'.ValidTime := fun e' he' => (hk e' he').2
    have hsound := run_sound hrun fun e' he' => (hk e' he').1
    exact hstep.potInv hinv (run_gameInv hrun htk g) htk fun henters =>
      hstep.fee_toNat hsound henters.deals

/-- **Single exact payout.** -/
theorem single_exact_payout
    (hrun : WorldRun d (World.initial (BingoToken.deployed deployer)) l w)
    (hsenders : ∀ e ∈ l, e.sender ≠ d.this) (ht : ∀ e ∈ l, e.ValidTime) (g : Bytes32) :
    l.countP (fun e => e.claims g) ≤ 1 ∧
      (∀ l₁ e l₂, l = l₁ ++ e :: l₂ → e.claims g →
        (e.post.token.balances e.sender).toNat
          = (e.pre.token.balances e.sender).toNat + charged g l₁) ∧
      (∀ e ∈ l, e.enters g →
        (e.post.token.balances e.sender).toNat + e.fee.toNat
          = (e.pre.token.balances e.sender).toNat) := by
  refine ⟨(run_potInv hrun hsenders ht g).once, ?_, ?_⟩
  · rintro l₁ e l₂ rfl he
    obtain ⟨a, b, hrun₁, hstep, -⟩ := hrun.split_at
    have hs₁ := (List.forall_mem_append.mp hsenders).1
    have ht₁ := (List.forall_mem_append.mp ht).1
    have hpot := run_potInv hrun₁ hs₁ ht₁ g
    have hpaid := (hstep.pay_balances (run_sound hrun₁ hs₁) he (hsenders e (by simp))).1
    have hunclaimed := hpot.unclaimed (hstep.of_claims he).1
    rw [hstep.1, hstep.2.1, hpaid, hpot.pot hunclaimed]
  · intro e he henters
    obtain ⟨k, k', a, b, rfl, hrun₁, hstep, -⟩ := hrun.exists_step he
    have hsound := run_sound hrun₁ (List.forall_mem_append.mp hsenders).1
    have hcharge := hstep.charge_balances hsound henters.deals (hsenders e (by simp))
    rw [hstep.1, hstep.2.1]
    exact hcharge.1

theorem single_exact_payout_sample :
    (Sample.played 15).1.countP (fun e => e.claims Sample.gameId) = 1 ∧
    ∀ l₁ e l₂, (Sample.played 15).1 = l₁ ++ e :: l₂ → e.claims Sample.gameId →
      (e.post.token.balances e.sender).toNat
        = (e.pre.token.balances e.sender).toNat + charged Sample.gameId l₁ :=
  ⟨by decide +kernel,
    (single_exact_payout (Sample.played_run 15) (by decide +kernel) (by decide +kernel)
      Sample.gameId).2.1⟩

-- ============================================================================
-- A winner can always collect
-- ============================================================================

/-- A winner who passes the checks is paid. -/
theorem claimPrize_pays
    (hrun : WorldRun d (World.initial (BingoToken.deployed deployer)) l w)
    (hsenders : ∀ e ∈ l, e.sender ≠ d.this) {msg : Msg} (hzero : msg.sender ≠ 0)
    (hplayer : w.game.OnlyPlayer msg.sender g)
    (hwin : w.game.checkForWinner msg.sender g = true) :
    ∃ x, w.exec d ⟨msg, .game (.claimPrize g)⟩ = .ok x := by
  have hsound := run_sound hrun hsenders
  have hcovers := run_covers hrun hsenders
  have hpot := w.game.prizePool_le_pots g
  have hprize : (uint256 (w.game.gameRegistry g).prizePool).toNat < 2 ^ 64 := by
    rw [uint256_toNat_uint64]
    exact BitVec.isLt _
  have hfunds : uint256 (w.game.gameRegistry g).prizePool ≤ w.token.balances d.this := by
    rw [BitVec.le_def, uint256_toNat_uint64]
    omega
  have hcalls : runCalls (bingoToken.callee d msg) (tokenCalls d msg w.game (.claimPrize g)) w.token
      = .ok (paid d msg.sender _ w.token) := (pay_iff hsound hprize).mpr ⟨hzero, hfunds, rfl⟩
  exact ⟨(⟨_, _⟩, _), World.exec_game_iff.mpr ⟨.claimPrize hplayer hwin, hcalls⟩⟩

/-- **A winner can always collect.**  Whenever `claimPrize` fails, it fails on
    its own checks, before any call to the token. -/
theorem winner_collects
    (hrun : WorldRun d (World.initial (BingoToken.deployed deployer)) l w)
    (hsenders : ∀ e ∈ l, e.sender ≠ d.this) (msg : Msg) (hzero : msg.sender ≠ 0) (g : Bytes32) :
    ((∃ x, w.exec d ⟨msg, .game (.claimPrize g)⟩ = .ok x) ↔
      (w.game.gameRegistry g).createdAt ≠ 0 ∧ (w.game.gameRegistry g).lastDrawnNumber ≠ 1000 ∧
        (w.game.playerRegistry msg.sender g).numberStorage ≠ 0 ∧
        w.game.checkForWinner msg.sender g = true) ∧
    (∀ r, w.exec d ⟨msg, .game (.claimPrize g)⟩ = .error r →
      dispatch d msg (.claimPrize g) w.game = .revert r ∧ r ∈ claimPrizeReverts) := by
  have hpasses : w.game.OnlyPlayer msg.sender g ∧ w.game.checkForWinner msg.sender g = true →
      ∃ x, w.exec d ⟨msg, .game (.claimPrize g)⟩ = .ok x := fun h =>
    claimPrize_pays hrun hsenders hzero h.1 h.2
  have hrefuses : ¬ (w.game.OnlyPlayer msg.sender g ∧ w.game.checkForWinner msg.sender g = true) →
      ∃ r ∈ claimPrizeReverts, dispatch d msg (.claimPrize g) w.game = .revert r ∧
        w.exec d ⟨msg, .game (.claimPrize g)⟩ = .error r := by
    intro h
    obtain ⟨r, hmem, hr⟩ := claimPrize_error d h
    have hdispatch : dispatch d msg (.claimPrize g) w.game = .revert r := by
      simp [dispatch, hr]
    exact ⟨r, hmem, hdispatch, World.exec_error_of_revert hdispatch⟩
  refine ⟨⟨?_, ?_⟩, ?_⟩
  · rintro ⟨x, hx⟩
    by_cases h : w.game.OnlyPlayer msg.sender g ∧ w.game.checkForWinner msg.sender g = true
    · exact ⟨h.1.exists_, h.1.not_over, h.1.member, h.2⟩
    · obtain ⟨r, -, -, hr⟩ := hrefuses h
      cases hr.symm.trans hx
  · rintro ⟨hex, hnot, hmember, hwin⟩
    exact hpasses ⟨⟨hex, hnot, hmember⟩, hwin⟩
  · intro r hr
    by_cases h : w.game.OnlyPlayer msg.sender g ∧ w.game.checkForWinner msg.sender g = true
    · obtain ⟨x, hx⟩ := hpasses h
      cases hx.symm.trans hr
    · obtain ⟨r', hmem, hdispatch, hr'⟩ := hrefuses h
      obtain rfl : r' = r := Except.error.inj (hr'.symm.trans hr)
      exact ⟨hdispatch, hmem⟩

theorem winner_collects_sample :
    (Sample.played 14).2.game.checkForWinner 17 Sample.gameId = true ∧
    ((∃ x, (Sample.played 14).2.exec Sample.deployment
        ⟨Sample.claim, .game (.claimPrize Sample.gameId)⟩ = .ok x) ↔
      ((Sample.played 14).2.game.gameRegistry Sample.gameId).createdAt ≠ 0 ∧
        ((Sample.played 14).2.game.gameRegistry Sample.gameId).lastDrawnNumber ≠ 1000 ∧
        ((Sample.played 14).2.game.playerRegistry Sample.claim.sender Sample.gameId).numberStorage
          ≠ 0 ∧
        (Sample.played 14).2.game.checkForWinner Sample.claim.sender Sample.gameId = true) :=
  ⟨by decide +kernel,
    (winner_collects (Sample.played_run 14) (by decide +kernel) Sample.claim (by decide)
      Sample.gameId).1⟩

end BitmaskBingo
