/-
  BitmaskBingo.Winning

  Which cards can win.  A mark covers the first tile with the drawn number, so
  a tile whose number stands earlier on the card is never covered, unless it
  is the centre, which is covered from the deal.  A card is `Winnable` when
  some line has no such tile outside the centre.

  `winner_iff_marked`: who wins depends on the hash the card was dealt from
  and on the numbers marked since.  `pot_locked`: a game without a winnable
  card keeps its pot for ever.  `can_win_iff`: the holder of a winnable card
  can win alone, in at most five turns.
-/

import BitmaskBingo.Marking
import BitmaskBingo.Solvency

namespace BitmaskBingo

open Lib StorageUtils

-- ============================================================================
-- Winnable cards
-- ============================================================================

/-- No earlier tile carries the number of tile `i`. -/
def FirstTile (card : Uint256) (i : Nat) : Prop := (cardTiles card).idxOf (bucket card i) = i

instance (card : Uint256) (i : Nat) : Decidable (FirstTile card i) :=
  inferInstanceAs (Decidable (_ = _))

/-- Some line has only tiles that can be covered; the centre always is. -/
def Winnable (card : Uint256) : Prop :=
  ∃ ℓ : Line, ∀ k, ℓ.tile k = 12 ∨ FirstTile card (ℓ.tile k)

instance (card : Uint256) : Decidable (Winnable card) :=
  decidable_of_iff (∃ ℓ ∈ Line.all, ∀ k, ℓ.tile k = 12 ∨ FirstTile card (ℓ.tile k))
    ⟨fun ⟨ℓ, _, h⟩ => ⟨ℓ, h⟩, fun ⟨ℓ, h⟩ => ⟨ℓ, ℓ.mem_all, h⟩⟩

/-- Marking the number of a first tile covers that tile. -/
theorem idxOf_eq_iff {card : Uint256} {i n : Nat} (hi : i < 25) :
    (cardTiles card).idxOf n = i ↔ FirstTile card i ∧ bucket card i = n := by
  refine ⟨?_, ?_⟩
  · rintro rfl
    have hmem : n ∈ cardTiles card := by
      rw [← List.idxOf_lt_length_iff, cardTiles_length]
      exact hi
    have hbucket := bucket_idxOf hmem
    exact ⟨by rw [FirstTile, hbucket], hbucket⟩
  · rintro ⟨hfirst, rfl⟩
    exact hfirst

theorem bucket_mem_cardTiles (card : Uint256) {i : Nat} (hi : i < 25) :
    bucket card i ∈ cardTiles card :=
  List.mem_map.mpr ⟨i, List.mem_range.mpr hi, rfl⟩

-- ============================================================================
-- Who wins
-- ============================================================================

section Run

variable {T : Token} {d : Deployment} {t₀ : T.State} {l l₀ l₁ : List (Step T)} {w w' w₀ : World T}
  {e : Step T} {p : Address} {g : Bytes32}

/-- Entering a game deals the card of the block. -/
theorem Steps.dealt_card (h : Steps d w e w') (hp : e.sender = p) (he : e.enters g) :
    w'.game.playerRegistry p g = newCard d e.block := by
  have hcard := h.card p g
  generalize w'.game.playerRegistry p g = c at hcard ⊢
  cases hcard with
  | same hd => exact absurd ⟨hp, he⟩ hd
  | dealt => rfl
  | marked _ hm => exact absurd hm he.not_marks

/-- **Who wins.**  Since a player's card was dealt, and not dealt again, the
    player wins exactly when on some line every tile is the centre or the
    first one with a number that the player marked. -/
theorem winner_iff_marked (hrun : WorldRun d (World.initial t₀) (l₀ ++ e :: l₁) w)
    (ht : ∀ e' ∈ l₀ ++ e :: l₁, e'.ValidTime) (hp : e.sender = p) (he : e.enters g)
    (hjoin : NoRejoin p g l₁) :
    w.game.checkForWinner p g = true ↔
      ∃ ℓ : Line, ∀ k, ℓ.tile k = 12 ∨
        (FirstTile (dealtCard d.keccak256 e.block.entropy) (ℓ.tile k) ∧
          bucket (dealtCard d.keccak256 e.block.entropy) (ℓ.tile k) ∈ markedNumbers p g l₁) := by
  obtain ⟨a, b, hrun₀, hstep, hrun₁⟩ := hrun.split_at
  have hdealt : Dealt p g (l₀ ++ [e]) := dealt_concat.mpr (Or.inr ⟨hp, he⟩)
  have ht₀ : ∀ e' ∈ l₀ ++ [e], e'.ValidTime := by
    intro e' he'
    refine ht e' ?_
    rw [← List.singleton_append, ← List.append_assoc]
    exact List.mem_append_left _ he'
  have ht₁ : ∀ e' ∈ l₁, e'.ValidTime := fun e' he' =>
    ht e' (List.mem_append_right _ (List.mem_cons_of_mem _ he'))
  have hprogress := run_progress (hrun₀.snoc hstep) ht₀ hdealt hrun₁ ht₁ hjoin
  rw [hstep.dealt_card hp he] at hprogress
  have hcentre : ∀ i, (4096 : Uint32).getLsbD i = true ↔ i = 12 := by
    refine fun i => ⟨dealt_hits_getLsbD i, ?_⟩
    rintro rfl
    decide
  have hcovered : ∀ i < 25, (w.game.playerRegistry p g).hitStorage.getLsbD i = true ↔ i = 12 ∨
      (FirstTile (dealtCard d.keccak256 e.block.entropy) i ∧
        bucket (dealtCard d.keccak256 e.block.entropy) i ∈ markedNumbers p g l₁) := by
    intro i hi
    rw [hprogress.hits]
    show (4096 : Uint32).getLsbD i = true ∨
      (∃ n ∈ markedNumbers p g l₁, (cardTiles (dealtCard d.keccak256 e.block.entropy)).idxOf n = i)
        ↔ _
    rw [hcentre]
    refine or_congr_right ⟨?_, ?_⟩
    · rintro ⟨n, hn, hidx⟩
      obtain ⟨hfirst, rfl⟩ := (idxOf_eq_iff hi).mp hidx
      exact ⟨hfirst, hn⟩
    · rintro ⟨hfirst, hn⟩
      exact ⟨_, hn, hfirst⟩
  rw [Storage.checkForWinner, checkForBingo_iff]
  refine exists_congr fun ℓ => forall_congr' fun k => ?_
  exact hcovered _ (ℓ.tile_lt k)

theorem winner_iff_marked_sample :
    ∃ l₀ e l₁, (Sample.played 14).1 = l₀ ++ e :: l₁ ∧ e.creates Sample.gameId ∧
      ((Sample.played 14).2.game.checkForWinner 17 Sample.gameId = true ↔
        ∃ ℓ : Line, ∀ k, ℓ.tile k = 12 ∨
          (FirstTile (dealtCard Sample.deployment.keccak256 e.block.entropy) (ℓ.tile k) ∧
            bucket (dealtCard Sample.deployment.keccak256 e.block.entropy) (ℓ.tile k)
              ∈ markedNumbers 17 Sample.gameId l₁)) := by
  have hlen : 4 < (Sample.played 14).1.length := by decide +kernel
  have hsplit : (Sample.played 14).1 = (Sample.played 14).1.take 4 ++
      (Sample.played 14).1[4] :: (Sample.played 14).1.drop 5 := by
    rw [← List.drop_eq_getElem_cons hlen, List.take_append_drop]
  have hrun := Sample.played_run 14
  have ht : ∀ e ∈ (Sample.played 14).1, e.ValidTime := by decide +kernel
  have hcreates : ∀ h : 4 < (Sample.played 14).1.length,
      ((Sample.played 14).1[4]).sender = 17 ∧ ((Sample.played 14).1[4]).creates Sample.gameId := by
    decide +kernel
  obtain ⟨hsender, hcreates⟩ := hcreates hlen
  refine ⟨_, _, _, hsplit, hcreates, ?_⟩
  rw [hsplit] at hrun ht
  exact winner_iff_marked hrun ht hsender (Or.inl hcreates) (by decide +kernel)

/-- Only a winnable card wins. -/
theorem run_winnable (hrun : WorldRun d (World.initial t₀) l w)
    (hwin : w.game.checkForWinner p g = true) :
    Winnable (w.game.playerRegistry p g).numberStorage := by
  obtain ⟨ℓ, hhit⟩ := (checkForBingo_iff _).mp hwin
  refine ⟨ℓ, fun k => ?_⟩
  by_cases hk : ℓ.tile k = 12
  · exact Or.inl hk
  · obtain ⟨_, _, _, -, hm⟩ := run_hitInv hrun p g _ hk (hhit k)
    exact Or.inr hm.first

/-! ## Games nobody can win -/

/-- What stays of a game that nobody can win and nobody joins. -/
structure Locked (g : Bytes32) (s₀ : Storage) (l : List (Step T)) (s : Storage) : Prop where
  createdAt : (s.gameRegistry g).createdAt = (s₀.gameRegistry g).createdAt
  pot : (s.gameRegistry g).prizePool = (s₀.gameRegistry g).prizePool
  not_over : (s.gameRegistry g).lastDrawnNumber ≠ 1000
  cards : ∀ q, (s.playerRegistry q g).numberStorage = (s₀.playerRegistry q g).numberStorage
  unclaimed : ∀ e ∈ l, ¬ e.claims g

theorem Steps.locked {s₀ : Storage} (h : Steps d w e w') (hinv : Locked g s₀ l w.game)
    (hex : (s₀.gameRegistry g).createdAt ≠ 0) (hjoin : ¬ e.joins g) (hclaim : ¬ e.claims g) :
    Locked g s₀ (l ++ [e]) w'.game := by
  have hcreate : ¬ e.creates g := by
    intro hc
    refine hex ?_
    rw [← hinv.createdAt]
    exact (h.of_creates hc).1
  have hcards : ∀ q, (w'.game.playerRegistry q g).numberStorage
      = (s₀.playerRegistry q g).numberStorage := by
    intro q
    rw [← hinv.cards q]
    have hcard := h.card q g
    generalize w'.game.playerRegistry q g = c at hcard
    cases hcard with
    | same => rfl
    | dealt hq he => exact absurd he fun he => he.elim hcreate hjoin
    | marked => rfl
  have hunclaimed : ∀ e' ∈ l ++ [e], ¬ e'.claims g :=
    List.forall_mem_append.mpr ⟨hinv.unclaimed, List.forall_mem_singleton.mpr hclaim⟩
  have hrec := h.record g
  generalize hr : w'.game.gameRegistry g = r at hrec
  cases hrec with
  | same =>
      exact ⟨by rw [hr, hinv.createdAt], by rw [hr, hinv.pot], by rw [hr]; exact hinv.not_over,
        hcards, hunclaimed⟩
  | created he => exact absurd he hcreate
  | joined he => exact absurd he hjoin
  | claimed he => exact absurd he hclaim
  | drawn he hplayer hopen =>
      refine ⟨?_, ?_, ?_, hcards, hunclaimed⟩
      · rw [hr]
        exact hinv.createdAt
      · rw [hr]
        exact hinv.pot
      · rw [hr]
        exact ne_finished_of_lt (drawn_lt _ _)

/-- Nobody wins a game whose cards are all unwinnable. -/
theorem run_locked (hrun₀ : WorldRun d (World.initial t₀) l₀ w₀)
    (hex : (w₀.game.gameRegistry g).createdAt ≠ 0)
    (hgoing : (w₀.game.gameRegistry g).lastDrawnNumber ≠ 1000)
    (hcards : ∀ q, Dealt q g l₀ → ¬ Winnable (w₀.game.playerRegistry q g).numberStorage)
    (hrun : WorldRun d w₀ l w) (hjoin : ∀ e ∈ l, ¬ e.joins g) : Locked g w₀.game l w.game := by
  refine hrun.invariant_of (P := fun l w => Locked g w₀.game l w.game) hjoin
    ⟨rfl, rfl, hgoing, fun _ => rfl, fun _ he => by cases he⟩ ?_
  intro k a e b hk _ hinv hje hstep
  refine hstep.locked hinv hex hje ?_
  intro hclaim
  obtain ⟨hplayer, hwin⟩ := hstep.of_claims hclaim
  have hdealt : Dealt e.sender g l₀ := by
    by_contra hno
    refine hplayer.member ?_
    rw [hinv.cards, (run_cardInv hrun₀ e.sender g).zero hno]
    rfl
  refine hcards _ hdealt ?_
  rw [← hinv.cards]
  exact run_winnable (hrun₀.append hk) hwin

end Run

/-- **A pot can be locked for ever.**  When no card of a game is winnable and
    nobody joins it any more, whatever anybody does, no claim on it succeeds
    and its pot stays, and the contract keeps the tokens for it. -/
theorem pot_locked {d : Deployment} {deployer : Address} {l₀ l : List (Step bingoToken)}
    {w₀ w : World bingoToken} {g : Bytes32}
    (hrun₀ : WorldRun d (World.initial (BingoToken.deployed deployer)) l₀ w₀)
    (hex : (w₀.game.gameRegistry g).createdAt ≠ 0)
    (hgoing : (w₀.game.gameRegistry g).lastDrawnNumber ≠ 1000)
    (hcards : ∀ q, Dealt q g l₀ → ¬ Winnable (w₀.game.playerRegistry q g).numberStorage)
    (hrun : WorldRun d w₀ l w) (hsenders : ∀ e ∈ l₀ ++ l, e.sender ≠ d.this)
    (hjoin : ∀ e ∈ l, ¬ e.joins g) :
    (∀ e ∈ l, ¬ e.claims g) ∧
    (w.game.gameRegistry g).prizePool = (w₀.game.gameRegistry g).prizePool ∧
    (w.game.gameRegistry g).lastDrawnNumber ≠ 1000 ∧
    (w₀.game.gameRegistry g).prizePool.toNat ≤ (w.token.balances d.this).toNat := by
  have hlocked := run_locked hrun₀ hex hgoing hcards hrun hjoin
  refine ⟨hlocked.unclaimed, hlocked.pot, hlocked.not_over, ?_⟩
  have hcovers := run_covers (hrun₀.append hrun) hsenders
  have hpot := w.game.prizePool_le_pots g
  rw [hlocked.pot] at hpot
  omega

namespace Sample

/-- A hash that is always 1: every tile carries a 1. -/
def constant : Deployment where
  keccak256 _ := 1
  this := deployment.this
  owner := deployment.owner
  this_ne_zero := deployment.this_ne_zero

/-- Player 17 creates the game with id 1. -/
def constantPlayed : List (Step bingoToken) × World bingoToken :=
  genesis.play constant
    [ ⟨msg 0xa1 900 1, .token (.mint 17 5000)⟩,
      ⟨msg 17 950 1, .token (.approve 0xb1 5000)⟩,
      ⟨msg 17 1000 1, .game .createGame⟩ ]

/-- The player draws a 1 and marks it. -/
def constantRest : List (Step bingoToken) × World bingoToken :=
  constantPlayed.2.play constant
    [ ⟨msg 17 5000 2, .game (.drawNumber 1)⟩, ⟨msg 17 5001 3, .game (.markNumberOnCard 1)⟩ ]

end Sample

theorem pot_locked_sample :
    (Sample.constantPlayed.2.game.gameRegistry 1).prizePool = 1000 ∧
      (∀ e ∈ Sample.constantRest.1, ¬ e.claims 1) ∧
      (Sample.constantRest.2.game.gameRegistry 1).prizePool
        = (Sample.constantPlayed.2.game.gameRegistry 1).prizePool ∧
      (Sample.constantRest.2.game.gameRegistry 1).lastDrawnNumber ≠ 1000 ∧
      (Sample.constantPlayed.2.game.gameRegistry 1).prizePool.toNat
        ≤ (Sample.constantRest.2.token.balances Sample.constant.this).toNat := by
  have hrun₀ : WorldRun Sample.constant Sample.genesis Sample.constantPlayed.1
      Sample.constantPlayed.2 := World.play_run ..
  have hrun : WorldRun Sample.constant Sample.constantPlayed.2 Sample.constantRest.1
      Sample.constantRest.2 := World.play_run ..
  have hone : ∀ e ∈ Sample.constantPlayed.1, e.enters 1 → e.sender = 17 := by decide +kernel
  have hcards : ∀ q, Dealt q 1 Sample.constantPlayed.1 →
      ¬ Winnable (Sample.constantPlayed.2.game.playerRegistry q 1).numberStorage := by
    rintro q ⟨e, he, rfl, henters⟩
    rw [hone e he henters]
    decide +kernel
  exact ⟨by decide +kernel, pot_locked hrun₀ (by decide +kernel) (by decide +kernel) hcards hrun
    (by decide +kernel) (by decide +kernel)⟩

-- ============================================================================
-- Winning alone
-- ============================================================================

/-- The time of turn `k`, when the first one is as soon as the game allows. -/
def Storage.turnTime (s : Storage) (g : Bytes32) (now k : Nat) : Nat :=
  max now (max
    ((s.gameRegistry g).createdAt.toNat + s.gameSettings.minimumJoinDuration.toNat)
    ((s.gameRegistry g).lastDrawnAt.toNat + s.gameSettings.minimumTurnDuration.toNat)) + 1
    + k * (s.gameSettings.minimumTurnDuration.toNat + 1)

/-- A message by `p`, after a block with this hash. -/
def turnMsg (p : Address) (number : Uint256) (time : Nat) (hash : Bytes32) : Msg where
  sender := p
  block := { number, timestamp := BitVec.ofNat 256 time, blockhash _ := hash }

/-- The transactions of a turn `(hash, k)`, in block `number k`: a draw after a
    block with that hash, and a mark of what was drawn. -/
def Storage.turnTxs (s : Storage) (p : Address) (g : Bytes32) (now : Nat) (number : Nat → Uint256)
    (turn : Bytes32 × Nat) : List (Tx T) :=
  let msg := turnMsg p (number turn.2) (s.turnTime g now turn.2) turn.1
  [⟨msg, .game (.drawNumber g)⟩, ⟨msg, .game (.markNumberOnCard g)⟩]

/-- The transaction that claims, when turn `k` would be. -/
def Storage.claimTx (s : Storage) (p : Address) (g : Bytes32) (now : Nat) (number : Nat → Uint256)
    (k : Nat) : Tx T :=
  ⟨turnMsg p (number k) (s.turnTime g now k) 0, .game (.claimPrize g)⟩

/-- A turn for each hash, each as soon as the clock allows it, and the claim
    when the next turn would be. -/
def Storage.soloTxs (s : Storage) (p : Address) (g : Bytes32) (now : Nat) (number : Nat → Uint256)
    (hashes : List Bytes32) : List (Tx T) :=
  hashes.zipIdx.flatMap (s.turnTxs p g now number) ++
    [s.claimTx p g now number hashes.length]

/-- A time of 64 bits is the time of the message. -/
theorem turnMsg_time {p : Address} {number : Uint256} {time : Nat} {hash : Bytes32}
    (h : time < 2 ^ 64) : (turnMsg p number time hash).block.timestamp.toNat = time := by
  show (BitVec.ofNat 256 time).toNat = time
  rw [BitVec.toNat_ofNat, Nat.mod_eq_of_lt (Nat.lt_trans h (by decide))]

section Alone

variable {T : Token} {d : Deployment} {l : List (Step T)} {w w' w₀ : World T} {e : Step T}
  {p : Address} {g : Bytes32} {now : Nat} {number : Nat → Uint256} {tiles : List Nat}

/-- The steps `l`, all by player `p`, have covered these tiles, a turn for
    each. -/
structure Pursuit (p : Address) (g : Bytes32) (now : Nat) (number : Nat → Uint256)
    (w₀ : World T) (tiles : List Nat) (l : List (Step T)) (w : World T) : Prop where
  turns : ∃ hashes : List Bytes32, hashes.length = tiles.length ∧
    l.map Step.tx = hashes.zipIdx.flatMap (w₀.game.turnTxs p g now number)
  steps : ∀ e ∈ l, e.sender = p ∧ e.ValidTime ∧ now ≤ e.time ∧ ¬ e.joins g
  ordered : NonDecreasing l
  past : ∀ e ∈ l, e.time ≤ w₀.game.turnTime g now tiles.length
  settings : w.game.gameSettings = w₀.game.gameSettings
  player : w.game.OnlyPlayer p g
  open_ : ∀ t : Uint256, t.toNat = w₀.game.turnTime g now tiles.length → w.game.DrawOpen t g
  numbers : (w.game.playerRegistry p g).numberStorage = (w₀.game.playerRegistry p g).numberStorage
  hits : ∀ i, (w₀.game.playerRegistry p g).hitStorage.getLsbD i = true ∨ i ∈ tiles →
    (w.game.playerRegistry p g).hitStorage.getLsbD i = true

/-- Histories one after the other. -/
theorem NonDecreasing.append {l l' : List (Step T)} (h : NonDecreasing l) (h' : NonDecreasing l')
    (hle : ∀ a ∈ l, ∀ b ∈ l', a.time ≤ b.time) : NonDecreasing (l ++ l') :=
  List.pairwise_append.mpr ⟨h, h', hle⟩

/-- Steps that are all taken at one time. -/
theorem nonDecreasing_of_eq {time : Nat} (h : ∀ a ∈ l, a.time = time) : NonDecreasing l := by
  refine List.pairwise_of_forall_mem_list fun a ha b hb => ?_
  rw [h a ha, h b hb]

theorem turnTime_succ (s : Storage) (k : Nat) : s.turnTime g now (k + 1)
    = s.turnTime g now k + (s.gameSettings.minimumTurnDuration.toNat + 1) := by
  rw [Storage.turnTime, Storage.turnTime, Nat.add_mul, Nat.one_mul, ← Nat.add_assoc]

theorem now_lt_turnTime (s : Storage) (k : Nat) : now < s.turnTime g now k := by
  rw [Storage.turnTime]
  omega

theorem Pursuit.start (hplayer : w₀.game.OnlyPlayer p g) : Pursuit p g now number w₀ [] [] w₀ := by
  refine ⟨⟨[], rfl, rfl⟩, List.forall_mem_nil _, List.Pairwise.nil, List.forall_mem_nil _, rfl,
    hplayer, ?_, rfl, ?_⟩
  · intro t ht
    rw [List.length_nil, Storage.turnTime] at ht
    refine ⟨?_, ?_⟩ <;> omega
  · rintro i (hi | hi)
    · exact hi
    · cases hi

/-- The world after a draw. -/
def World.afterDraw (d : Deployment) (w : World T) (block : Block) (g : Bytes32) : World T :=
  ⟨w.game.setGame g ((w.game.gameRegistry g).drawn d block), w.token⟩

/-- The world after a draw and a mark of what was drawn. -/
def World.afterTurn (d : Deployment) (w : World T) (m : Msg) (g : Bytes32) : World T :=
  ⟨(w.afterDraw d m.block g).game.setCard m.sender g
    ((w.game.playerRegistry m.sender g).marked (drawnNumber d m.block)), w.token⟩

@[simp] theorem afterDraw_record (w : World T) (block : Block) :
    (w.afterDraw d block g).game.gameRegistry g = (w.game.gameRegistry g).drawn d block := by
  simp [World.afterDraw]

@[simp] theorem afterTurn_record (w : World T) (m : Msg) :
    (w.afterTurn d m g).game.gameRegistry g = (w.game.gameRegistry g).drawn d m.block :=
  afterDraw_record w m.block

@[simp] theorem afterTurn_card (w : World T) (m : Msg) :
    (w.afterTurn d m g).game.playerRegistry m.sender g
      = (w.game.playerRegistry m.sender g).marked (drawnNumber d m.block) := by
  simp [World.afterTurn]

theorem afterDraw_player (h : w.game.OnlyPlayer p g) (block : Block) :
    (w.afterDraw d block g).game.OnlyPlayer p g := by
  refine ⟨?_, ?_, h.member⟩
  · rw [afterDraw_record]
    exact h.exists_
  · rw [afterDraw_record]
    exact ne_finished_of_lt (drawn_lt _ _)

theorem afterTurn_player {m : Msg} (h : w.game.OnlyPlayer m.sender g) :
    (w.afterTurn d m g).game.OnlyPlayer m.sender g := by
  have hdraw : (w.afterDraw d m.block g).game.OnlyPlayer m.sender g := afterDraw_player h m.block
  refine ⟨hdraw.exists_, hdraw.not_over, ?_⟩
  rw [afterTurn_card]
  exact h.member

/-- The two steps of a turn. -/
def turnSteps (d : Deployment) (w : World T) (m : Msg) (g : Bytes32) : List (Step T) :=
  [⟨w, ⟨m, .game (.drawNumber g)⟩, .unit, w.afterDraw d m.block g⟩,
    ⟨w.afterDraw d m.block g, ⟨m, .game (.markNumberOnCard g)⟩, .unit, w.afterTurn d m g⟩]

theorem mem_turnSteps {m : Msg} (he : e ∈ turnSteps d w m g) : e.tx.msg = m ∧ ¬ e.joins g := by
  rcases List.mem_pair.mp he with rfl | rfl
  · exact ⟨rfl, fun h => by cases h⟩
  · exact ⟨rfl, fun h => by cases h⟩

/-- A draw of a number on the card, and its mark, both go through. -/
theorem exec_turn {m : Msg} (hplayer : w.game.OnlyPlayer m.sender g)
    (hopen : w.game.DrawOpen m.block.timestamp g) (hblock : m.block.number ≠ 0)
    (hmem : drawnNumber d m.block ∈ cardTiles (w.game.playerRegistry m.sender g).numberStorage) :
    WorldRun d w (turnSteps d w m g) (w.afterTurn d m g) := by
  have hdraw : w.exec d ⟨m, .game (.drawNumber g)⟩ = .ok (w.afterDraw d m.block g, .unit) :=
    World.exec_game_iff.mpr ⟨.drawNumber hplayer hopen hblock, rfl⟩
  have hnumber : ((w.afterDraw d m.block g).game.gameRegistry g).lastDrawnNumber.toNat
      = drawnNumber d m.block := by
    rw [afterDraw_record, drawn_lastDrawnNumber_toNat]
  have hmark : (w.afterDraw d m.block g).exec d ⟨m, .game (.markNumberOnCard g)⟩
      = .ok (w.afterTurn d m g, .unit) := by
    refine exec_mark_iff.mpr ⟨afterDraw_player hplayer _, ?_, rfl, ?_⟩
    · rw [hnumber]
      exact hmem
    · rw [hnumber]
      rfl
  exact Run.cons ⟨rfl, rfl, hdraw⟩ (Run.single_iff.mpr ⟨rfl, rfl, hmark⟩)

/-- One more tile takes one more turn. -/
theorem Pursuit.turn (h : Pursuit p g now number w₀ tiles l w) {i : Nat} (hi : i < 25)
    (hfirst : FirstTile (w₀.game.playerRegistry p g).numberStorage i) {hash : Bytes32}
    (hhash : (d.keccak256 (abiEncode [hash])).toNat % 256
      = bucket (w₀.game.playerRegistry p g).numberStorage i)
    (hnumber : ∀ k, number k ≠ 0) (hclock : w₀.game.turnTime g now tiles.length < 2 ^ 64) :
    ∃ k w', WorldRun d w k w' ∧ Pursuit p g now number w₀ (tiles ++ [i]) (l ++ k) w' := by
  generalize hm : turnMsg p (number tiles.length) (w₀.game.turnTime g now tiles.length) hash = m
  have hsender : m.sender = p := by rw [← hm]; rfl
  have htime : m.block.timestamp.toNat = w₀.game.turnTime g now tiles.length := by
    rw [← hm]
    exact turnMsg_time hclock
  have hblock : m.block.number ≠ 0 := by
    rw [← hm]
    exact hnumber _
  have hdrawn : drawnNumber d m.block = bucket (w.game.playerRegistry p g).numberStorage i := by
    rw [h.numbers, ← hm]
    exact hhash
  have htxs : (turnSteps d w m g).map Step.tx
      = w₀.game.turnTxs p g now number (hash, tiles.length) := by
    rw [← hm]
    rfl
  clear hm
  subst hsender
  have hmem : drawnNumber d m.block
      ∈ cardTiles (w.game.playerRegistry m.sender g).numberStorage := by
    rw [hdrawn]
    exact bucket_mem_cardTiles _ hi
  have hopen := h.open_ _ htime
  have hnow : now < w₀.game.turnTime g now tiles.length := now_lt_turnTime ..
  refine ⟨_, _, exec_turn h.player hopen hblock hmem, ?_⟩
  have htimes : ∀ e ∈ turnSteps d w m g, e.time = w₀.game.turnTime g now tiles.length := by
    intro e he
    rw [← htime, ← (mem_turnSteps he).1]
    rfl
  refine ⟨?_, ?_, ?_, ?_, h.settings, afterTurn_player h.player, ?_, ?_, ?_⟩
  · obtain ⟨hashes, hlen, hturns⟩ := h.turns
    refine ⟨hashes ++ [hash], by simp [hlen], ?_⟩
    rw [List.map_append, hturns, htxs, List.zipIdx_append, List.flatMap_append, Nat.zero_add, hlen]
    simp
  · refine List.forall_mem_append.mpr ⟨h.steps, fun e he => ?_⟩
    obtain ⟨hmsg, hjoin⟩ := mem_turnSteps he
    have hat := htimes e he
    refine ⟨congrArg Msg.sender hmsg, ⟨?_, ?_⟩, ?_, hjoin⟩
    · show 1 ≤ e.time
      omega
    · show e.time < 2 ^ 64
      omega
    · omega
  · refine h.ordered.append (nonDecreasing_of_eq htimes) fun a ha b hb => ?_
    rw [htimes b hb]
    exact h.past a ha
  · rw [List.length_append, List.length_singleton, turnTime_succ]
    refine List.forall_mem_append.mpr ⟨fun e he => ?_, fun e he => ?_⟩
    · have hpast := h.past e he
      omega
    · rw [htimes e he]
      omega
  · intro t ht
    rw [List.length_append, List.length_singleton, turnTime_succ] at ht
    have hjoined := hopen.joined
    have hT : w.game.gameSettings = _ := h.settings
    refine ⟨?_, ?_⟩
    · rw [afterTurn_record]
      show (w.game.gameRegistry g).createdAt.toNat + w.game.gameSettings.minimumJoinDuration.toNat
        < t.toNat
      omega
    · rw [afterTurn_record]
      show (uint64 m.block.timestamp).toNat + w.game.gameSettings.minimumTurnDuration.toNat
        < t.toNat
      rw [uint64_toNat_of_lt (by omega), hT]
      omega
  · rw [afterTurn_card]
    exact h.numbers
  · intro j hj
    rw [afterTurn_card, BingoCard.marked_getLsbD hmem]
    rw [List.mem_append, List.mem_singleton, ← or_assoc] at hj
    refine hj.imp (h.hits j) ?_
    rintro rfl
    rw [hdrawn, h.numbers]
    exact hfirst

theorem turnTime_mono (s : Storage) {j k : Nat} (h : j ≤ k) :
    s.turnTime g now j ≤ s.turnTime g now k :=
  Nat.add_le_add_left (Nat.mul_le_mul_right _ h) _

/-- The tiles of a line that are not covered from the start. -/
def Line.toCover (ℓ : Line) : List Nat := ((List.finRange 5).map ℓ.tile).filter (· ≠ 12)

theorem Line.mem_toCover {ℓ : Line} {i : Nat} : i ∈ ℓ.toCover ↔ (∃ k, ℓ.tile k = i) ∧ i ≠ 12 := by
  simp [Line.toCover]

theorem Line.toCover_length (ℓ : Line) : ℓ.toCover.length ≤ 5 := by
  refine (List.length_filter_le _ _).trans (Nat.le_of_eq ?_)
  rw [List.length_map, List.length_finRange]

/-- A player can cover a line alone, a turn for each tile. -/
theorem run_pursuit (hplayer : w₀.game.OnlyPlayer p g)
    (hreach : ∀ n ∈ cardTiles (w₀.game.playerRegistry p g).numberStorage,
      ∃ hash, (d.keccak256 (abiEncode [hash])).toNat % 256 = n)
    (hnumber : ∀ k, number k ≠ 0) (hclock : w₀.game.turnTime g now 5 < 2 ^ 64) {ℓ : Line}
    (hfirst : ∀ k, ℓ.tile k = 12
      ∨ FirstTile (w₀.game.playerRegistry p g).numberStorage (ℓ.tile k)) :
    ∃ l w, WorldRun d w₀ l w ∧ Pursuit p g now number w₀ ℓ.toCover l w := by
  refine Run.pursue (P := Pursuit p g now number w₀) (.start hplayer) ?_
  intro done i k a hprefix _ hdone
  have hmem : i ∈ ℓ.toCover := hprefix.subset (by simp)
  obtain ⟨⟨j, rfl⟩, hcentre⟩ := Line.mem_toCover.mp hmem
  have hi := ℓ.tile_lt j
  obtain ⟨hash, hhash⟩ := hreach _ (bucket_mem_cardTiles _ hi)
  refine hdone.turn hi ((hfirst j).resolve_left hcentre) hhash hnumber ?_
  have hlen := hprefix.length_le.trans ℓ.toCover_length
  rw [List.length_append, List.length_singleton] at hlen
  exact Nat.lt_of_le_of_lt (turnTime_mono _ (by omega)) hclock

/-- After its pursuit the player claims a turn later: still its own steps, in
    good order. -/
theorem Pursuit.finish (h : Pursuit p g now number w₀ tiles l w)
    (htx : e.tx = w₀.game.claimTx p g now number tiles.length)
    (hclock : w₀.game.turnTime g now tiles.length < 2 ^ 64) :
    e.claims g ∧ NonDecreasing (l ++ [e]) ∧
      ∀ a ∈ l ++ [e], a.sender = p ∧ a.ValidTime ∧ now ≤ a.time ∧ ¬ a.joins g := by
  have hclaims : e.claims g := by
    rw [Step.claims, Step.call?, htx]
    rfl
  have hsender : e.sender = p := by
    rw [Step.sender, htx]
    rfl
  have htime : e.time = w₀.game.turnTime g now tiles.length := by
    rw [Step.time, Step.block, htx]
    exact turnMsg_time hclock
  have hlast : now < e.time := by
    rw [htime]
    exact now_lt_turnTime ..
  have hvalid : e.ValidTime := by
    refine ⟨Nat.lt_of_le_of_lt (Nat.zero_le _) hlast, ?_⟩
    show e.time < 2 ^ 64
    rw [htime]
    exact hclock
  refine ⟨hclaims, h.ordered.append (List.pairwise_singleton ..) fun a ha b hb => ?_,
    List.forall_mem_append.mpr ⟨h.steps, List.forall_mem_singleton.mpr
      ⟨hsender, hvalid, Nat.le_of_lt hlast, fun hj => hclaims.not_enters (Or.inr hj)⟩⟩⟩
  rw [List.mem_singleton.mp hb, htime]
  exact h.past a ha

end Alone

section Claim

variable {d : Deployment} {deployer : Address} {l₀ l : List (Step bingoToken)}
  {w₀ w : World bingoToken} {p : Address} {g : Bytes32} {now : Nat} {number : Nat → Uint256}
  {ℓ : Line}

/-- Covering a line wins. -/
theorem Pursuit.wins (h : Pursuit p g now number w₀ ℓ.toCover l w)
    (hcentre : (w₀.game.playerRegistry p g).hitStorage.getLsbD 12 = true) :
    w.game.checkForWinner p g = true := by
  rw [Storage.checkForWinner, checkForBingo_iff]
  refine ⟨ℓ, fun k => h.hits _ ?_⟩
  by_cases hk : ℓ.tile k = 12
  · rw [hk]
    exact Or.inl hcentre
  · exact Or.inr (Line.mem_toCover.mpr ⟨⟨k, rfl⟩, hk⟩)

/-- Who wins after its pursuit can claim. -/
theorem Pursuit.claim {tiles : List Nat} (h : Pursuit p g now number w₀ tiles l w)
    (hrun : WorldRun d (World.initial (BingoToken.deployed deployer)) (l₀ ++ l) w)
    (hsenders : ∀ e ∈ l₀, e.sender ≠ d.this) (hzero : p ≠ 0) (hthis : p ≠ d.this)
    (hwin : w.game.checkForWinner p g = true) :
    ∃ e w', Steps d w e w' ∧ e.tx = w₀.game.claimTx p g now number tiles.length := by
  have hall : ∀ e ∈ l₀ ++ l, e.sender ≠ d.this := by
    refine List.forall_mem_append.mpr ⟨hsenders, fun e he => ?_⟩
    rw [(h.steps e he).1]
    exact hthis
  have hpays : ∃ x, w.exec d (w₀.game.claimTx p g now number tiles.length) = .ok x :=
    claimPrize_pays hrun hall hzero h.player hwin
  obtain ⟨⟨w', r⟩, hexec⟩ := hpays
  exact ⟨⟨w, _, r, w'⟩, w', ⟨rfl, rfl, hexec⟩, rfl⟩

/-- The holder of a winnable card wins alone, in at most five turns. -/
theorem win_alone (hrun₀ : WorldRun d (World.initial (BingoToken.deployed deployer)) l₀ w₀)
    (hsenders : ∀ e ∈ l₀, e.sender ≠ d.this) (hord : NonDecreasing l₀)
    (hnow : ∀ e ∈ l₀, e.time ≤ now) (hzero : p ≠ 0) (hthis : p ≠ d.this)
    (hplayer : w₀.game.OnlyPlayer p g)
    (hreach : ∀ n ∈ cardTiles (w₀.game.playerRegistry p g).numberStorage,
      ∃ hash, (d.keccak256 (abiEncode [hash])).toNat % 256 = n)
    (hnumber : ∀ k, number k ≠ 0) (hclock : w₀.game.turnTime g now 5 < 2 ^ 64)
    (hwinnable : Winnable (w₀.game.playerRegistry p g).numberStorage) :
    ∃ (hashes : List Bytes32) (l : List (Step bingoToken)) (w : World bingoToken),
      hashes.length ≤ 5 ∧ WorldRun d w₀ l w ∧ NonDecreasing (l₀ ++ l) ∧
      l.map Step.tx = w₀.game.soloTxs p g now number hashes ∧
      (∀ e ∈ l, e.sender = p ∧ e.ValidTime ∧ ¬ e.joins g) ∧ ∃ e ∈ l, e.claims g := by
  obtain ⟨ℓ, hfirst⟩ := hwinnable
  have hcard := run_cardInv hrun₀ p g
  have hcentre := (hcard.wellFormed (hcard.of_member hplayer)).centre
  obtain ⟨l, w, hrun, h⟩ := run_pursuit hplayer hreach hnumber hclock hfirst
  have hroom : w₀.game.turnTime g now ℓ.toCover.length < 2 ^ 64 :=
    Nat.lt_of_le_of_lt (turnTime_mono _ ℓ.toCover_length) hclock
  obtain ⟨e, w', hstep, htx⟩ :=
    h.claim (hrun₀.append hrun) hsenders hzero hthis (h.wins hcentre)
  obtain ⟨hclaims, hnew, hown⟩ := h.finish htx hroom
  obtain ⟨hashes, hlen, hturns⟩ := h.turns
  have hlater : ∀ a ∈ l₀, ∀ b ∈ l ++ [e], a.time ≤ b.time := fun a ha b hb =>
    (hnow a ha).trans (hown b hb).2.2.1
  refine ⟨hashes, l ++ [e], w', hlen ▸ ℓ.toCover_length, hrun.snoc hstep,
    hord.append hnew hlater, ?_, fun a ha => ?_, e, by simp, hclaims⟩
  · rw [List.map_append, hturns, List.map_singleton, htx, Storage.soloTxs, hlen]
  · obtain ⟨hs, hv, -, hj⟩ := hown a ha
    exact ⟨hs, hv, hj⟩

/-- Who claims without joining again had a winnable card all along. -/
theorem winnable_of_claims
    (hrun₀ : WorldRun d (World.initial (BingoToken.deployed deployer)) l₀ w₀)
    (ht₀ : ∀ e ∈ l₀, e.ValidTime) (hdealt : Dealt p g l₀) (hrun : WorldRun d w₀ l w)
    (hsteps : ∀ e ∈ l, e.sender = p ∧ e.ValidTime ∧ ¬ e.joins g)
    (hclaims : ∃ e ∈ l, e.claims g) : Winnable (w₀.game.playerRegistry p g).numberStorage := by
  obtain ⟨e, he, hclaim⟩ := hclaims
  obtain ⟨k, k', a, b, rfl, hk, hstep, -⟩ := hrun.exists_step he
  have hsteps' : ∀ e' ∈ k, e'.sender = p ∧ e'.ValidTime ∧ ¬ e'.joins g := fun e' he' =>
    hsteps e' (List.mem_append_left _ he')
  have hprogress := run_progress hrun₀ ht₀ hdealt hk (fun e' he' => (hsteps' e' he').2.1)
    fun e' he' hj => (hsteps' e' he').2.2 hj.2
  have hwin := (hstep.of_claims hclaim).2
  rw [(hsteps e (by simp)).1] at hwin
  rw [← hprogress.numbers]
  exact run_winnable (hrun₀.append hk) hwin

end Claim

/-- **Who can still win.**  In any reachable state, a member of a game that
    goes on can win it if and only if the member's card is winnable, as long as
    block hashes can draw the card's numbers and the clock has room for five
    turns; then at most five turns, each as soon as the clock allows it, and a
    claim do it. -/
theorem can_win_iff {d : Deployment} {deployer : Address} {l₀ : List (Step bingoToken)}
    {w₀ : World bingoToken} {p : Address} {g : Bytes32} {now : Nat}
    (hrun₀ : WorldRun d (World.initial (BingoToken.deployed deployer)) l₀ w₀)
    (hsenders : ∀ e ∈ l₀, e.sender ≠ d.this) (ht₀ : ∀ e ∈ l₀, e.ValidTime)
    (hord : NonDecreasing l₀) (hnow : ∀ e ∈ l₀, e.time ≤ now)
    (hzero : p ≠ 0) (hthis : p ≠ d.this) (hplayer : w₀.game.OnlyPlayer p g)
    (hreach : ∀ n ∈ cardTiles (w₀.game.playerRegistry p g).numberStorage,
      ∃ hash, (d.keccak256 (abiEncode [hash])).toNat % 256 = n)
    (hclock : w₀.game.turnTime g now 5 < 2 ^ 64) :
    (Winnable (w₀.game.playerRegistry p g).numberStorage ↔
      ∃ l w, WorldRun d w₀ l w ∧ NonDecreasing (l₀ ++ l) ∧
        (∀ e ∈ l, e.sender = p ∧ e.ValidTime ∧ ¬ e.joins g) ∧ ∃ e ∈ l, e.claims g) ∧
    (Winnable (w₀.game.playerRegistry p g).numberStorage →
      ∀ number : Nat → Uint256, (∀ k, number k ≠ 0) →
        ∃ hashes l w, hashes.length ≤ 5 ∧ WorldRun d w₀ l w ∧ NonDecreasing (l₀ ++ l) ∧
          l.map Step.tx = w₀.game.soloTxs p g now number hashes) := by
  refine ⟨⟨fun hwinnable => ?_, ?_⟩, fun hwinnable number hnumber => ?_⟩
  · have hone : ∀ k : Nat, (fun _ => 1 : Nat → Uint256) k ≠ 0 := by
      intro k
      show (1 : Uint256) ≠ 0
      decide
    obtain ⟨_, l, w, -, hrun, horder, -, hsteps, hclaims⟩ :=
      win_alone hrun₀ hsenders hord hnow hzero hthis hplayer hreach hone hclock hwinnable
    exact ⟨l, w, hrun, horder, hsteps, hclaims⟩
  · rintro ⟨l, w, hrun, -, hsteps, hclaims⟩
    have hdealt := (run_cardInv hrun₀ p g).of_member hplayer
    exact winnable_of_claims hrun₀ ht₀ hdealt hrun hsteps hclaims
  · obtain ⟨hashes, l, w, hlen, hrun, horder, htxs, -⟩ :=
      win_alone hrun₀ hsenders hord hnow hzero hthis hplayer hreach hnumber hclock hwinnable
    exact ⟨hashes, l, w, hlen, hrun, horder, htxs⟩

theorem can_win_iff_sample :
    ∃ hashes l w, hashes.length ≤ 5 ∧ WorldRun Sample.deployment (Sample.played 6).2 l w ∧
      NonDecreasing ((Sample.played 6).1 ++ l) ∧ l.map Step.tx
        = (Sample.played 6).2.game.soloTxs 17 Sample.gameId 2000
            (fun k => BitVec.ofNat 256 (8 + k % 8)) hashes := by
  have hreach : ∀ n < 256,
      (Sample.deployment.keccak256 (abiEncode [BitVec.ofNat 256 n])).toNat % 256 = n := by
    decide +kernel
  have hplayer : (Sample.played 6).2.game.OnlyPlayer 17 Sample.gameId :=
    ⟨by decide +kernel, by decide +kernel, by decide +kernel⟩
  have hnumber : ∀ j < 8, BitVec.ofNat 256 (8 + j) ≠ 0 := by decide
  exact (can_win_iff (Sample.played_run 6) (by decide +kernel) (by decide +kernel)
    (by decide +kernel) (show ∀ e ∈ (Sample.played 6).1, e.time ≤ 2000 by decide +kernel)
    (by decide) (by decide) hplayer (fun n hn => ⟨_, hreach n (cardTiles_lt _ n hn)⟩)
    (by decide +kernel)).2 (by decide +kernel) _ fun k =>
      hnumber _ (Nat.mod_lt k (by decide))

end BitmaskBingo
