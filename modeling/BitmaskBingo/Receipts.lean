/-
  BitmaskBingo.Receipts

  What can be known of the game from outside the chain.  A transaction leaves
  a receipt: the time of its block and the events of both contracts.  A
  `Mirror` is rebuilt from receipts alone, by writing down what each event
  says; of a draw it takes the time from the receipt, as the event of a draw
  has none.

  `receipts_determine_state`: after every run the mirror holds every game,
  every card and the whole ledger of the token.  Only the settings leave no
  trace.  `receipts_pass_audit`: each receipt of a run agrees with what the
  receipts before it say.
-/

import BitmaskBingo.Events
import BitmaskBingo.TokenEvents
import BitmaskBingo.LifeCycle

namespace BitmaskBingo

open Lib StorageUtils

-- ============================================================================
-- Receipts
-- ============================================================================

/-- What a transaction leaves behind: when, and the events of the two
    contracts, each in order. -/
structure Receipt where
  timestamp : Uint256
  game : List Event
  token : List BingoToken.Event
deriving Repr, DecidableEq

/-- The token with its events, as the token of the game. -/
abbrev loggedToken : Token where
  State := Logged BingoToken BingoToken.Event
  Op := BingoToken.Call
  exec op msg t := BingoToken.Emitting.call t msg.sender op
  ofIERC20 := bingoToken.ofIERC20

/-- Execute a transaction with its events. -/
def World.transact (d : Deployment) (w : World bingoToken) (tx : Tx bingoToken) :
    Except Revert (World bingoToken × Returned × Receipt) :=
  match tx.action with
  | .game c => do
      let code := Emitting.dispatch d tx.msg c ⟨w.game, []⟩
      let (s, t, r) ← code.runWith (loggedToken.callee d tx.msg) ⟨w.token, []⟩
      return (⟨s.state, t.state⟩, r, ⟨tx.msg.block.timestamp, s.log, t.log⟩)
  | .token op => do
      let t ← BingoToken.Emitting.call ⟨w.token, []⟩ tx.msg.sender op
      return (⟨w.game, t.state⟩, .unit, ⟨tx.msg.block.timestamp, [], t.log⟩)

/-- The receipt of a step. -/
def Step.receipt (d : Deployment) (e : Step bingoToken) : Receipt :=
  match e.pre.transact d e.tx with
  | .ok (_, _, receipt) => receipt
  | .error _ => ⟨0, [], []⟩

section Transact

variable {d : Deployment} {msg : Msg} {w w' : World bingoToken}

/-- The token's events of a list of calls. -/
def callEvents (d : Deployment) (msg : Msg) : List IERC20 → BingoToken → List BingoToken.Event
  | [], _ => []
  | c :: cs, t =>
      t.events d.this (bingoToken.ofIERC20 c) ++
        match bingoToken.callee d msg c t with
        | .ok t' => callEvents d msg cs t'
        | .error _ => []

theorem runCalls_logged_iff {calls : List IERC20} {t t' : Logged BingoToken BingoToken.Event} :
    runCalls (loggedToken.callee d msg) calls t = .ok t' ↔
      runCalls (bingoToken.callee d msg) calls t.state = .ok t'.state ∧
        t'.log = t.log ++ callEvents d msg calls t.state := by
  induction calls generalizing t with
  | nil =>
      obtain ⟨u, log⟩ := t
      obtain ⟨u', log'⟩ := t'
      simp [callEvents, eq_comm]
  | cons c cs ih =>
      have hc : ∀ t₁, loggedToken.callee d msg c t = .ok t₁ ↔
          bingoToken.callee d msg c t.state = .ok t₁.state ∧
            t₁.log = t.log ++ t.state.events d.this (bingoToken.ofIERC20 c) :=
        fun t₁ => BingoToken.Emitting.call_iff _
      simp only [runCalls_cons_eq_ok, hc, ih, callEvents]
      refine ⟨?_, ?_⟩
      · rintro ⟨t₁, ⟨hcall, hlog⟩, hrest, hlog'⟩
        rw [hcall]
        exact ⟨⟨t₁.state, rfl, hrest⟩, by rw [hlog', hlog, List.append_assoc]⟩
      · rintro ⟨⟨u, hcall, hrest⟩, hlog⟩
        refine ⟨⟨u, t.log ++ t.state.events d.this (bingoToken.ofIERC20 c)⟩, ⟨hcall, rfl⟩, hrest,
          ?_⟩
        rw [hlog, hcall, List.append_assoc]

/-- A call of the game does what it does without its events. -/
theorem World.transact_game_iff {c : Call} {r : Returned} {receipt : Receipt} :
    w.transact d ⟨msg, .game c⟩ = .ok (w', r, receipt) ↔
      w.exec d ⟨msg, .game c⟩ = .ok (w', r) ∧
        receipt = ⟨msg.block.timestamp, events d msg w.game c,
          callEvents d msg (tokenCalls d msg w.game c) w.token⟩ := by
  rw [transact, exec_game_iff, bind_eq_ok]
  simp only [Prod.exists, Emitting.run_dispatch_iff, List.nil_append, pure, Except.pure,
    Except.ok.injEq, Prod.mk.injEq]
  refine ⟨?_, ?_⟩
  · rintro ⟨s, t, _, ⟨heff, hcalls, hs⟩, rfl, rfl, rfl⟩
    obtain ⟨hcalls, ht⟩ := runCalls_logged_iff.mp hcalls
    exact ⟨⟨heff, hcalls⟩, by rw [hs, ht, List.nil_append]⟩
  · rintro ⟨⟨heff, hcalls⟩, rfl⟩
    exact ⟨⟨w'.game, _⟩, ⟨w'.token, _⟩, r,
      ⟨heff, runCalls_logged_iff.mpr ⟨hcalls, rfl⟩, rfl⟩, rfl, rfl, rfl⟩

/-- A call of the token does what it does without its events. -/
theorem World.transact_token_iff {op : BingoToken.Call} {r : Returned} {receipt : Receipt} :
    w.transact d ⟨msg, .token op⟩ = .ok (w', r, receipt) ↔
      w.exec d ⟨msg, .token op⟩ = .ok (w', r) ∧
        receipt = ⟨msg.block.timestamp, [], w.token.events msg.sender op⟩ := by
  rw [transact, exec_token_iff, bind_eq_ok]
  simp only [BingoToken.Emitting.call_iff, List.nil_append, pure, Except.pure, Except.ok.injEq,
    Prod.mk.injEq]
  refine ⟨?_, ?_⟩
  · rintro ⟨t, ⟨hcall, hlog⟩, rfl, rfl, rfl⟩
    exact ⟨⟨hcall, rfl, rfl⟩, by rw [hlog]⟩
  · rintro ⟨⟨hcall, hgame, rfl⟩, rfl⟩
    exact ⟨⟨w'.token, _⟩, ⟨hcall, rfl⟩, by rw [← hgame], rfl, rfl⟩

variable {e : Step bingoToken}

theorem Steps.receipt_of_call {c : Call} (h : Steps d w e w') (hc : e.call? = some c) :
    e.receipt d = ⟨e.block.timestamp, events d e.tx.msg w.game c,
      callEvents d e.tx.msg (tokenCalls d e.tx.msg w.game c) w.token⟩ := by
  obtain ⟨hpre, _, hexec⟩ := h
  obtain ⟨_, ⟨msg, act⟩, r, _⟩ := e
  obtain rfl : _ = w := hpre
  cases act with
  | token op => simp [Step.call?] at hc
  | game c' =>
      obtain rfl : c' = c := by simpa [Step.call?] using hc
      rw [Step.receipt, World.transact_game_iff.mpr ⟨hexec, rfl⟩]
      rfl

/-- A step of the token, with its receipt. -/
theorem Steps.receipt_of_token (h : Steps d w e w') (hc : e.call? = none) :
    ∃ op, BingoToken.Effect w.token e.sender op w'.token ∧ w'.game = w.game ∧
      e.receipt d = ⟨e.block.timestamp, [], w.token.events e.sender op⟩ := by
  obtain ⟨hpre, _, hexec⟩ := h
  obtain ⟨_, ⟨msg, act⟩, r, _⟩ := e
  obtain rfl : _ = w := hpre
  cases act with
  | game c' => simp [Step.call?] at hc
  | token op =>
      obtain ⟨hcall, hgame, -⟩ := World.exec_token_iff.mp hexec
      refine ⟨op, (BingoToken.call_iff op).mp hcall, hgame, ?_⟩
      rw [Step.receipt, World.transact_token_iff.mpr ⟨hexec, rfl⟩]
      rfl

end Transact

-- ============================================================================
-- The token, replayed
-- ============================================================================

namespace BingoToken

variable {t t' : BingoToken} {sender : Address}

/-- Write down what an event of the token says. -/
def note (t : BingoToken) : Event → BingoToken
  | .Transfer from_ to_ value =>
      if from_ = 0 then
        { t with
          supply := t.supply + value
          totalSupply := t.totalSupply + value
          balances := Ledger.credit t.balances to_ value }
      else { t with balances := Ledger.transfer t.balances from_ to_ value }
  | .Approval owner spender value => t.setAllowance owner spender value
  | .OwnershipTransferred _ newOwner => { t with owner := newOwner }

theorem note_transfer {from_ to_ : Address} {value : Uint256} (h : from_ ≠ 0) :
    t.note (.Transfer from_ to_ value)
      = { t with balances := Ledger.transfer t.balances from_ to_ value } := by
  rw [note, if_neg h]

/-- An allowance is announced exactly when it changes hands. -/
theorem foldl_note_spendEvents (t : BingoToken) (owner spender : Address) (amount : Uint256) :
    (t.spendEvents owner spender amount).foldl note t = t.spent owner spender amount := by
  rw [spendEvents, spent]
  split <;> rfl

/-- The events of a call say all that it did. -/
theorem Effect.replay {c : Call} (h : Effect t sender c t') :
    (t.events sender c).foldl note t = t' := by
  cases h with
  | mint howner hto hcap hfit =>
      rw [events, List.foldl_cons, List.foldl_nil, note, if_pos rfl]
  | transfer hfrom hto hfunds => exact note_transfer hfrom
  | transferFrom hcovers hfrom hto hfunds =>
      rw [events, List.foldl_append, foldl_note_spendEvents, List.foldl_cons, List.foldl_nil,
        note_transfer hfrom, spent_balances]
  | _ => rfl

end BingoToken

/-- The events of several calls say all that they did. -/
theorem runCalls_replay {d : Deployment} {msg : Msg} {calls : List IERC20} {t t' : BingoToken}
    (h : runCalls (bingoToken.callee d msg) calls t = .ok t') :
    (callEvents d msg calls t).foldl BingoToken.note t = t' := by
  induction calls generalizing t with
  | nil => simpa [callEvents] using h
  | cons c cs ih =>
      obtain ⟨t₁, hc, hrest⟩ := runCalls_cons_eq_ok.mp h
      have heff : BingoToken.Effect t d.this (bingoToken.ofIERC20 c) t₁ :=
        (BingoToken.call_iff _).mp hc
      rw [callEvents, hc, List.foldl_append, heff.replay]
      exact ih hrest

/-- When calls end with a transfer, so does the log. -/
theorem callEvents_getLast? {d : Deployment} {msg : Msg} {calls : List IERC20}
    {from_ to_ : Address} {amount : Uint256} {t t' : BingoToken}
    (h : runCalls (bingoToken.callee d msg) (calls ++ [.transferFrom from_ to_ amount]) t
      = .ok t') :
    (callEvents d msg (calls ++ [.transferFrom from_ to_ amount]) t).getLast?
      = some (.Transfer from_ to_ amount) := by
  induction calls generalizing t with
  | nil =>
      rw [List.nil_append] at h ⊢
      simp only [callEvents, runCalls_singleton.mp h, List.append_nil]
      exact List.getLast?_concat
  | cons c cs ih =>
      rw [List.cons_append] at h ⊢
      obtain ⟨t₁, hc, hrest⟩ := runCalls_cons_eq_ok.mp h
      rw [callEvents, hc, List.getLast?_append, ih hrest]
      rfl

-- ============================================================================
-- The game, replayed
-- ============================================================================

/-- What the receipts so far say. -/
structure Mirror where
  gameRegistry : Bytes32 → Game
  playerRegistry : Address → Bytes32 → BingoCard
  token : BingoToken

/-- What there is to know of a world, apart from the settings. -/
def World.mirror (w : World bingoToken) : Mirror where
  gameRegistry := w.game.gameRegistry
  playerRegistry := w.game.playerRegistry
  token := w.token

/-- The amount that a receipt moved last. -/
def Receipt.moved (receipt : Receipt) : Uint256 :=
  match receipt.token.getLast? with
  | some (.Transfer _ _ value) => value
  | _ => 0

/-- The last thing a receipt tells of the token is this payment. -/
def Receipt.Pays (receipt : Receipt) (from_ to_ : Address) (amount : Uint256) : Prop :=
  receipt.token.getLast? = some (.Transfer from_ to_ amount)

instance (receipt : Receipt) (from_ to_ : Address) (amount : Uint256) :
    Decidable (receipt.Pays from_ to_ amount) := inferInstanceAs (Decidable (_ = _))

/-- Payer and payee of the payment that a receipt tells of last. -/
def Receipt.parties? (receipt : Receipt) : Option (Address × Address) :=
  match receipt.token.getLast? with
  | some (.Transfer from_ to_ _) => some (from_, to_)
  | _ => none

theorem Receipt.Pays.moved {receipt : Receipt} {from_ to_ : Address} {amount : Uint256}
    (h : receipt.Pays from_ to_ amount) : receipt.moved = amount := by
  rw [Receipt.Pays] at h
  rw [Receipt.moved, h]

theorem Receipt.Pays.parties {receipt : Receipt} {from_ to_ : Address} {amount : Uint256}
    (h : receipt.Pays from_ to_ amount) : receipt.parties? = some (from_, to_) := by
  rw [Receipt.Pays] at h
  rw [Receipt.parties?, h]

namespace Mirror

/-- Before the token was deployed. -/
def blank : Mirror where
  gameRegistry _ := Game.zero
  playerRegistry _ _ := BingoCard.zero
  token := BingoToken.deployed 0

def setGame (m : Mirror) (gameId : Bytes32) (game : Game) : Mirror :=
  { m with gameRegistry := Function.update m.gameRegistry gameId game }

def setCard (m : Mirror) (player : Address) (gameId : Bytes32) (card : BingoCard) : Mirror :=
  let ofPlayer := Function.update (m.playerRegistry player) gameId card
  { m with playerRegistry := Function.update m.playerRegistry player ofPlayer }

/-- Write down what an event of the game says. -/
def note (receipt : Receipt) (m : Mirror) : Event → Mirror
  | .LogUint256 _ => m
  | .GameCreated creator id creatorCardNumbers timestamp =>
      (m.setGame id
        { lastDrawnNumber := 999
          lastDrawnAt := uint64 timestamp
          prizePool := uint64 receipt.moved
          createdAt := uint64 timestamp }).setCard creator id ⟨creatorCardNumbers, 4096⟩
  | .PlayerJoined id player playerCardNumbers =>
      let game := m.gameRegistry id
      (m.setGame id { game with prizePool := game.prizePool + uint64 receipt.moved }).setCard
        player id ⟨playerCardNumbers, 4096⟩
  | .GameNumberDrawn gameId _ number =>
      m.setGame gameId
        { m.gameRegistry gameId with
          lastDrawnNumber := uint64 number
          lastDrawnAt := uint64 receipt.timestamp }
  | .PlayerHitRecorded player gameId _ hitPosition =>
      let card := m.playerRegistry player gameId
      let position : Uint32 := hitPosition.setWidth 32
      m.setCard player gameId
        { card with hitStorage := setBitValueByIndex card.hitStorage position }
  | .GameEnded gameId _ => m.setGame gameId { m.gameRegistry gameId with lastDrawnNumber := 1000 }
  | .Bingo gameId _ _ => m.setGame gameId { m.gameRegistry gameId with prizePool := 0 }

/-- Write down a receipt. -/
def replay (m : Mirror) (receipt : Receipt) : Mirror :=
  { receipt.game.foldl (note receipt) m with token := receipt.token.foldl BingoToken.note m.token }

end Mirror

section Replay

variable {d : Deployment} {msg : Msg} {s s' : Storage} {c : Call} {r : Returned}
  {w w' : World bingoToken} {e : Step bingoToken} {l : List (Step bingoToken)}

theorem uint64_ofNat {n : Nat} : uint64 (BitVec.ofNat 256 n) = BitVec.ofNat 64 n :=
  BitVec.setWidth_ofNat_of_le (by decide) n

theorem uint32_ofNat {n : Nat} : (BitVec.ofNat 256 n).setWidth 32 = BitVec.ofNat 32 n :=
  BitVec.setWidth_ofNat_of_le (by decide) n

/-- The events of a call say all that it did to games and cards. -/
theorem Effect.replay (h : Effect d msg s c r s') {receipt : Receipt} {t : BingoToken}
    (htime : receipt.timestamp = msg.block.timestamp)
    (hfee : c = .createGame ∨ (∃ g, c = .joinGame g) → receipt.moved = s.gameSettings.entryFee) :
    (events d msg s c).foldl (Mirror.note receipt) (World.mirror ⟨s, t⟩)
      = World.mirror ⟨s', t⟩ := by
  cases h with
  | createGame hblock hnew =>
      simp only [events, List.foldl_cons, List.foldl_nil, Mirror.note, hfee (Or.inl rfl)]
      rfl
  | @joinGame g pot hopen hpot hblock =>
      obtain ⟨-, rfl⟩ := toNat_eq_add_iff.mp hpot
      simp only [events, List.foldl_cons, List.foldl_nil, Mirror.note,
        hfee (Or.inr ⟨g, rfl⟩)]
      rfl
  | drawNumber hplayer hopen hblock =>
      simp only [events, List.foldl_cons, List.foldl_nil, Mirror.note, uint64_ofNat, htime]
      rfl
  | markNumberOnCard hplayer hmem =>
      simp only [events, List.foldl_cons, List.foldl_nil, Mirror.note, uint32_ofNat]
      rfl
  | @claimPrize g hplayer hwin =>
      have hgame : ∀ (m : Mirror) (a b : Game), (m.setGame g a).setGame g b = m.setGame g b := by
        intro m a b
        rw [Mirror.setGame, Mirror.setGame, Function.update_idem]
        rfl
      simp only [events, List.foldl_cons, List.foldl_nil, Mirror.note, hgame]
      simp only [Mirror.setGame, World.mirror, Storage.setGame, Function.update_self]
      rfl
  | _ => rfl

/-- A receipt of a deal ends with the payment of the fee. -/
theorem Steps.receipt_pays_fee (h : Steps d w e w') (he : e.deals) :
    (e.receipt d).Pays e.sender d.this w.game.gameSettings.entryFee := by
  have hpays : ∀ c, e.call? = some c →
      tokenCalls d e.tx.msg w.game c
        = [] ++ [.transferFrom e.sender d.this w.game.gameSettings.entryFee] →
      (e.receipt d).Pays e.sender d.this w.game.gameSettings.entryFee := by
    intro c hc hcalls
    have hrun := (h.of_call hc).2
    rw [h.receipt_of_call hc, Receipt.Pays]
    rw [hcalls] at hrun ⊢
    exact callEvents_getLast? hrun
  cases hc : e.call? with
  | none => simp [Step.deals, hc] at he
  | some c =>
      cases c with
      | createGame => exact hpays _ hc rfl
      | joinGame g => exact hpays _ hc rfl
      | _ => simp [Step.deals, hc] at he

/-- A receipt of a claim ends with the payment of the prize. -/
theorem Steps.receipt_pays_prize {g : Bytes32} (h : Steps d w e w') (he : e.claims g) :
    (e.receipt d).Pays d.this e.sender (uint256 (w.game.gameRegistry g).prizePool) := by
  have hcalls : tokenCalls d e.tx.msg w.game (.claimPrize g)
      = [.approve d.this (uint256 (w.game.gameRegistry g).prizePool)]
        ++ [.transferFrom d.this e.sender (uint256 (w.game.gameRegistry g).prizePool)] := rfl
  have hrun := (h.of_call he).2
  rw [h.receipt_of_call he, Receipt.Pays]
  rw [hcalls] at hrun ⊢
  exact callEvents_getLast? hrun

/-- **A step, replayed.**  Its receipt takes the mirror to where it took the
    world. -/
theorem Steps.replay (h : Steps d w e w') : w.mirror.replay (e.receipt d) = w'.mirror := by
  cases hc : e.call? with
  | none =>
      obtain ⟨op, heff, hgame, hreceipt⟩ := h.receipt_of_token hc
      rw [hreceipt, Mirror.replay]
      simp only [List.foldl_nil, World.mirror, heff.replay, hgame]
  | some c =>
      obtain ⟨heff, hcalls⟩ := h.of_call hc
      have hfee : c = .createGame ∨ (∃ g, c = .joinGame g) →
          (e.receipt d).moved = w.game.gameSettings.entryFee := by
        intro hdeal
        refine (h.receipt_pays_fee ?_).moved
        rw [Step.deals, hc]
        rcases hdeal with rfl | ⟨g, rfl⟩ <;> trivial
      have hreceipt := h.receipt_of_call hc
      have hgame : (e.receipt d).game.foldl (Mirror.note (e.receipt d)) w.mirror
          = World.mirror ⟨w'.game, w.token⟩ := by
        rw [hreceipt] at hfee ⊢
        exact heff.replay rfl hfee
      have htoken : (e.receipt d).token.foldl BingoToken.note w.token = w'.token := by
        rw [hreceipt]
        exact runCalls_replay hcalls
      rw [Mirror.replay, hgame]
      simp only [World.mirror, htoken]

/-- The receipt of the token's deployment. -/
def deployReceipt (time : Uint256) (deployer : Address) : Receipt :=
  ⟨time, [], [.OwnershipTransferred 0 deployer]⟩

/-- **The log is complete.**  Whoever replays the receipts of all transactions
    since the token was deployed, their events and the times of their blocks,
    holds every game, every card and the whole ledger of the token. -/
theorem receipts_determine_state {time : Uint256} {deployer : Address}
    (hrun : WorldRun d (World.initial (BingoToken.deployed deployer)) l w) :
    (deployReceipt time deployer :: l.map (Step.receipt d)).foldl Mirror.replay Mirror.blank
      = w.mirror := by
  rw [List.foldl_cons]
  exact hrun.replays fun _ _ _ he => he.replay

/-- The sample game, read from its receipts up to the claim. -/
theorem receipts_determine_state_sample :
    (Sample.played 15).1.length = 15 ∧
      (deployReceipt 800 0xa1 :: (Sample.played 15).1.map (Step.receipt Sample.deployment)).foldl
        Mirror.replay Mirror.blank = (Sample.played 15).2.mirror :=
  ⟨by decide +kernel, receipts_determine_state (Sample.played_run 15)⟩

end Replay

-- ============================================================================
-- The audit
-- ============================================================================

/-- The numbers of a card as they are dealt. -/
def WellDealt (numbers : Uint256) : Prop :=
  numbers.toNat < 2 ^ 200 ∧ ∀ x ∈ cardTiles numbers, x ≤ 254

instance (numbers : Uint256) : Decidable (WellDealt numbers) :=
  inferInstanceAs (Decidable (_ ∧ _))

namespace Mirror

/-- The player has a card in a game that goes on. -/
def Plays (m : Mirror) (player : Address) (gameId : Bytes32) : Prop :=
  (m.gameRegistry gameId).createdAt ≠ 0 ∧ (m.gameRegistry gameId).lastDrawnNumber ≠ 1000 ∧
    (m.playerRegistry player gameId).numberStorage ≠ 0

instance (m : Mirror) (player : Address) (gameId : Bytes32) : Decidable (m.Plays player gameId) :=
  inferInstanceAs (Decidable (_ ∧ _))

/-- Whether a receipt agrees with what the receipts before it say. -/
def confirms (this : Address) (m : Mirror) (receipt : Receipt) : Bool :=
  match receipt.game with
  | [] => true
  | [.LogUint256 fee, .GameCreated creator id numbers timestamp] =>
      decide ((m.gameRegistry id).createdAt = 0 ∧ timestamp = receipt.timestamp ∧
        WellDealt numbers ∧ receipt.Pays creator this fee)
  | [.PlayerJoined id player numbers] =>
      -- no receipt tells the fee in force, so only payer and payee can be checked
      decide ((m.gameRegistry id).createdAt ≠ 0 ∧ WellDealt numbers ∧
        receipt.parties? = some (player, this))
  | [.GameNumberDrawn gameId drawnBy number] =>
      decide (m.Plays drawnBy gameId ∧ number.toNat < 256)
  | [.PlayerHitRecorded player gameId number hitPosition] =>
      decide (m.Plays player gameId ∧ number = uint256 (m.gameRegistry gameId).lastDrawnNumber ∧
        (cardTiles (m.playerRegistry player gameId).numberStorage)[hitPosition.toNat]?
          = some number.toNat)
  | [.GameEnded gameId time, .Bingo gameId' winner prize] =>
      decide (gameId' = gameId ∧ time = receipt.timestamp ∧ m.Plays winner gameId ∧
        (m.gameRegistry gameId).lastDrawnNumber.toNat < 256 ∧
        checkForBingo winningBingoMasks (m.playerRegistry winner gameId).hitStorage = true ∧
        prize = uint256 (m.gameRegistry gameId).prizePool ∧ receipt.Pays this winner prize)
  | _ => false

end Mirror

section Audit

variable {d : Deployment} {w w' : World bingoToken} {e : Step bingoToken}
  {l : List (Step bingoToken)}

theorem dealt_wellDealt (d : Deployment) (block : Block) :
    WellDealt (dealtCard d.keccak256 block.entropy) := by
  have hcard := newCard_wellFormed d block
  refine ⟨hcard.numbers_lt, ?_⟩
  intro x hx
  obtain ⟨i, hi, rfl⟩ := List.mem_map.mp hx
  exact hcard.tiles_le i (List.mem_range.mp hi)

theorem Storage.OnlyPlayer.plays {s : Storage} {t : BingoToken} {p : Address} {g : Bytes32}
    (h : s.OnlyPlayer p g) : (World.mirror ⟨s, t⟩).Plays p g :=
  ⟨h.exists_, h.not_over, h.member⟩

/-- The position in the event is where the number is. -/
theorem getElem?_position {card : Uint256} {n : Nat} (hmem : n ∈ cardTiles card) :
    (cardTiles card)[(BitVec.ofNat 256 ((cardTiles card).idxOf n)).toNat]? = some n := by
  have hidx := List.idxOf_lt_length_of_mem hmem
  rw [cardTiles_length] at hidx
  rw [BitVec.toNat_ofNat, Nat.mod_eq_of_lt (by omega)]
  exact List.getElem?_idxOf hmem

/-- The receipt of a step agrees with the world before it. -/
theorem Steps.confirms (h : Steps d w e w') (hunhit : ∀ g, Unhit w.game g)
    (hstage : ∀ g, (w.game.gameRegistry g).createdAt ≠ 0 →
      IsStage (w.game.gameRegistry g).lastDrawnNumber) :
    w.mirror.confirms d.this (e.receipt d) = true := by
  cases hc : e.call? with
  | none =>
      obtain ⟨op, -, -, hreceipt⟩ := h.receipt_of_token hc
      rw [hreceipt]
      rfl
  | some c =>
      have hreceipt := h.receipt_of_call hc
      have heff := (h.of_call hc).1
      have hgame : (e.receipt d).game = events d e.tx.msg w.game c := by rw [hreceipt]
      have htime : (e.receipt d).timestamp = e.block.timestamp := by rw [hreceipt]
      rw [Mirror.confirms, hgame, htime]
      generalize e.ret = r at heff
      generalize w'.game = s' at heff
      cases heff with
      | createGame hblock hnew =>
          have hpays := h.receipt_pays_fee (by simp [Step.deals, hc])
          exact decide_eq_true ⟨hnew, rfl, dealt_wellDealt d e.block, hpays⟩
      | joinGame hopen hpot hblock =>
          have hpays := h.receipt_pays_fee (by simp [Step.deals, hc])
          exact decide_eq_true ⟨hopen.exists_, dealt_wellDealt d e.block, hpays.parties⟩
      | drawNumber hplayer hopen hblock =>
          have hlt := drawnNumber_lt d e.tx.msg.block
          refine decide_eq_true ⟨hplayer.plays, ?_⟩
          rw [BitVec.toNat_ofNat]
          omega
      | @markNumberOnCard g hplayer hmem =>
          refine decide_eq_true ⟨hplayer.plays, rfl, ?_⟩
          rw [uint256_toNat_uint64]
          exact getElem?_position hmem
      | @claimPrize g hplayer hwin =>
          have hdrawn := h.claimed_drawing hc (hunhit g) (hstage g)
          exact decide_eq_true ⟨rfl, rfl, hplayer.plays, hdrawn, hwin, rfl,
            h.receipt_pays_prize hc⟩
      | _ => rfl

/-- **The log is consistent.**  Each receipt of a run agrees with what the
    receipts before it say. -/
theorem receipts_pass_audit {time : Uint256} {deployer : Address}
    (hrun : WorldRun d (World.initial (BingoToken.deployed deployer)) l w) :
    audit Mirror.replay (Mirror.confirms d.this) Mirror.blank
      (deployReceipt time deployer :: l.map (Step.receipt d)) = true := by
  have hdeploy : audit Mirror.replay (Mirror.confirms d.this) Mirror.blank
      [deployReceipt time deployer] = true := rfl
  have hrest : audit Mirror.replay (Mirror.confirms d.this)
      (World.initial (BingoToken.deployed deployer)).mirror (l.map (Step.receipt d)) = true :=
    hrun.audits (fun _ _ _ he => he.replay)
      fun _ _ _ _ hk he => he.confirms (run_unhit hk) (run_stage hk)
  exact audit_append.mpr ⟨hdeploy, hrest⟩

theorem receipts_pass_audit_sample :
    (Sample.played 15).1.length = 15 ∧
      audit Mirror.replay (Mirror.confirms Sample.deployment.this) Mirror.blank
        (deployReceipt 800 0xa1 :: (Sample.played 15).1.map (Step.receipt Sample.deployment))
          = true :=
  ⟨by decide +kernel, receipts_pass_audit (Sample.played_run 15)⟩

end Audit

end BitmaskBingo
