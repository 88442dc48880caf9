/-
  BitmaskBingo.Reentrancy

  The game against a token that calls back.  The token is not modelled at all:
  whenever the game calls it, any functions of the game may be called, by
  anybody, before it returns or reverts, and calls nest to any depth.

  `SegmentEffect` says what the game does each time it has control.  The only
  thing a function relies on while it waits for the token is that games that
  exist keep their creation time: `createGame` and `joinGame` look at
  everything else again when the fee is paid, and `claimPrize` has nothing
  left to write.  View functions write nothing and are left out.
-/

import BitmaskBingo.Segments
import BitmaskBingo.Bank
import BitmaskBingo.Lib.CallStack

namespace BitmaskBingo

open Lib

/-- A call that enters the game: who calls, in which block, what. -/
abbrev Entry := Msg × Call

abbrev GameSegment := Segment Entry Storage IERC20 Returned

abbrev GameConfig := Config Entry Storage IERC20 Revert Returned

def entryCode (d : Deployment) (e : Entry) : GameM Returned := dispatch d e.1 e.2

def ValidEntry (e : Entry) : Prop := e.1.block.ValidTime

instance : DecidablePred ValidEntry := fun e => inferInstanceAs (Decidable e.1.block.ValidTime)

/-- What can happen to the game from its deployment on, with callbacks. -/
abbrev ReentrantRun (d : Deployment) : List (Act Entry) → GameConfig → Prop :=
  Run (Config.Acts (entryCode d)) (Config.initial Storage.initial)

-- ============================================================================
-- What a segment does
-- ============================================================================

/-- What the game does each time it has control. -/
inductive SegmentEffect (d : Deployment) : GameSegment → Prop where
  /-- A function without token calls runs to its end. -/
  | runs {msg : Msg} {c : Call} {r : Returned} {s s' : Storage}
      (hcalls : tokenCalls d msg s c = []) (heff : Effect d msg s c r s') :
      SegmentEffect d ⟨(msg, c), none, s, s', .inr r⟩
  /-- `createGame` asks for the fee. -/
  | asksToCreate {msg : Msg} {s : Storage} :
      SegmentEffect d ⟨(msg, .createGame), none, s, s,
        .inl (.transferFrom msg.sender d.this s.gameSettings.entryFee)⟩
  /-- `createGame` finds the fee paid. -/
  | creates {msg : Msg} {s : Storage} {fee : Uint256}
      (htime : ValidEntry (msg, .createGame))
      (hnew : (s.gameRegistry (newGameId d msg)).createdAt = 0) :
      SegmentEffect d ⟨(msg, .createGame), some (.transferFrom msg.sender d.this fee), s,
        (s.setGame (newGameId d msg) (newGame msg fee)).setCard msg.sender (newGameId d msg)
          (newCard d msg.block), .inr (.gameId (newGameId d msg))⟩
  /-- `joinGame` asks for the fee. -/
  | asksToJoin {msg : Msg} {s : Storage} {g : Bytes32}
      (hopen : s.JoinOpen msg.block.timestamp g) :
      SegmentEffect d ⟨(msg, .joinGame g), none, s, s,
        .inl (.transferFrom msg.sender d.this s.gameSettings.entryFee)⟩
  /-- `joinGame` finds the fee paid. -/
  | joins {msg : Msg} {s : Storage} {g : Bytes32} {fee : Uint256} {pot : Uint64}
      (hexists : (s.gameRegistry g).createdAt ≠ 0)
      (hpot : pot.toNat = (s.gameRegistry g).prizePool.toNat + (uint64 fee).toNat) :
      SegmentEffect d ⟨(msg, .joinGame g), some (.transferFrom msg.sender d.this fee), s,
        (s.setGame g { s.gameRegistry g with prizePool := pot }).setCard msg.sender g
          (newCard d msg.block), .inr .unit⟩
  /-- `claimPrize` empties the pot and approves itself. -/
  | claims {msg : Msg} {s : Storage} {g : Bytes32} (hplayer : s.OnlyPlayer msg.sender g) :
      SegmentEffect d ⟨(msg, .claimPrize g), none, s, s.setGame g (s.gameRegistry g).finished,
        .inl (.approve d.this (uint256 (s.gameRegistry g).prizePool))⟩
  /-- `claimPrize` goes on without writing. -/
  | pays {msg : Msg} {s : Storage} {g : Bytes32} {answered : IERC20}
      {outcome : IERC20 ⊕ Returned} :
      SegmentEffect d ⟨(msg, .claimPrize g), some answered, s, s, outcome⟩

/-- Games that exist keep their creation time. -/
def KeepsGames (s s' : Storage) : Prop :=
  ∀ g, (s.gameRegistry g).createdAt ≠ 0 →
    (s'.gameRegistry g).createdAt = (s.gameRegistry g).createdAt

/-! ## The segments of each function -/

section Safe

variable {d : Deployment} {msg : Msg} {s : Storage} {g : Bytes32}

abbrev GameSafe (d : Deployment) (e : Entry) : Option IERC20 → Storage →
    Resumption Storage IERC20 Revert Returned → Prop :=
  Resumption.Safe KeepsGames (SegmentEffect d) e

theorem createGame_safe (htime : ValidEntry (msg, .createGame)) :
    GameSafe d (msg, .createGame) none s (dispatch d msg .createGame s) := by
  obtain ⟨k, heq, hk⟩ := createGame_calls d msg s
  simp only [dispatch, Code.bind_apply, Code.pure_apply, heq, Resumption.bind_call]
  refine ⟨.asksToCreate, fun s' _ => ((hk s').bind _).safe fun hnew => ?_⟩
  exact .creates htime hnew.2

theorem joinGame_safe :
    GameSafe d (msg, .joinGame g) none s (dispatch d msg (.joinGame g) s) := by
  simp only [dispatch, Code.bind_apply, Code.pure_apply]
  rcases joinGame_cases d msg s g with ⟨hopen, k, heq, hk⟩ | ⟨_, e, heq⟩
  · rw [heq, Resumption.bind_call]
    refine ⟨.asksToJoin hopen, fun s' hkeeps => ((hk s').bind _).safe fun hpot => ?_⟩
    have hexists : (s'.gameRegistry g).createdAt ≠ 0 := by
      rw [hkeeps g hopen.exists_]
      exact hopen.exists_
    exact .joins hexists (toNat_eq_add_iff.mpr ⟨hpot.1, rfl⟩)
  · rw [heq, Resumption.bind_revert]
    trivial

theorem claimPrize_safe :
    GameSafe d (msg, .claimPrize g) none s (dispatch d msg (.claimPrize g) s) := by
  simp only [dispatch, Code.bind_apply, Code.pure_apply]
  by_cases h : s.OnlyPlayer msg.sender g ∧ s.checkForWinner msg.sender g = true
  · rw [claimPrize_ok d h.1 h.2]
    exact ⟨.claims h.1, fun _ _ => ⟨.pays, fun _ _ => .pays⟩⟩
  · obtain ⟨e, _, he⟩ := claimPrize_error d h
    rw [he, Resumption.bind_revert]
    trivial

/-- Functions without external calls. -/
private theorem local_safe {c : Call} {x : GameM Unit} {P : Prop} {s₁ : Storage}
    (hx : (x s).Guarded P (.done s₁ ())) (hc : dispatch d msg c = (do x; return .unit))
    (hcalls : tokenCalls d msg s c = []) (heff : P → Effect d msg s c .unit s₁) :
    GameSafe d (msg, c) none s (dispatch d msg c s) := by
  rw [hc, Code.bind_apply]
  exact (hx.bind _).safe fun hP => .runs hcalls (heff hP)

theorem dispatch_safe (c : Call) (htime : ValidEntry (msg, c)) :
    GameSafe d (msg, c) none s (dispatch d msg c s) := by
  cases c with
  | createGame => exact createGame_safe htime
  | joinGame g => exact joinGame_safe
  | drawNumber g =>
      exact local_safe drawNumber_guarded rfl rfl fun h => .drawNumber h.1 h.2.1 h.2.2
  | markNumberOnCard g =>
      exact local_safe markNumberOnCard_guarded rfl rfl fun h => .markNumberOnCard h.1 h.2
  | claimPrize g => exact claimPrize_safe
  | updateEntryFee v => exact local_safe (setter_guarded _) rfl rfl .updateEntryFee
  | updateJoinDuration v => exact local_safe (setter_guarded _) rfl rfl .updateJoinDuration
  | updateUpdateTurnDuration v =>
      exact local_safe (setter_guarded _) rfl rfl .updateUpdateTurnDuration

end Safe

-- ============================================================================
-- What a segment does to the pot of a game
-- ============================================================================

namespace GameSegment

/-- The segment in which a `claimPrize` on the game empties the pot. -/
def takes (g : Bytes32) (seg : GameSegment) : Prop :=
  seg.entry.2 = .claimPrize g ∧ seg.resumed = none

instance (g : Bytes32) (seg : GameSegment) : Decidable (seg.takes g) :=
  inferInstanceAs (Decidable (_ ∧ _))

/-- The amount a `claimPrize` on the game takes, as it approves it. -/
def taken (g : Bytes32) (seg : GameSegment) : Nat :=
  match seg.entry.2, seg.resumed, seg.outcome with
  | .claimPrize id, none, .inl (.approve _ prize) => if id = g then prize.toNat else 0
  | _, _, _ => 0

/-- The fee credited to the game: the `uint64` of what the token was asked
    for, once a `createGame` or `joinGame` has run to its end. -/
def credited (g : Bytes32) (seg : GameSegment) : Nat :=
  match seg.entry.2, seg.resumed, seg.outcome with
  | .createGame, some (.transferFrom _ _ fee), .inr (.gameId id) =>
      if id = g then (uint64 fee).toNat else 0
  | .joinGame id, some (.transferFrom _ _ fee), .inr _ =>
      if id = g then (uint64 fee).toNat else 0
  | _, _, _ => 0

theorem taken_of_not_takes {g : Bytes32} {seg : GameSegment} (h : ¬ seg.takes g) :
    seg.taken g = 0 := by
  rw [taken]
  split
  · next id _ prize hcall hresumed _ =>
      rw [if_neg]
      rintro rfl
      exact h ⟨hcall, hresumed⟩
  · rfl

end GameSegment

section Pot

variable {d : Deployment} {g : Bytes32} {seg : GameSegment} {l : List GameSegment}
  {s s' : Storage}

/-- What a segment can do to the record of game `g`, and what it counts for. -/
inductive PotChange (g : Bytes32) (seg : GameSegment) : Prop where
  | kept (htakes : ¬ seg.takes g)
      (hcreated : (seg.after.gameRegistry g).createdAt = (seg.before.gameRegistry g).createdAt)
      (hover : (seg.before.gameRegistry g).lastDrawnNumber = 1000 →
        (seg.after.gameRegistry g).lastDrawnNumber = 1000)
      (hexists : seg.credited g ≠ 0 → (seg.before.gameRegistry g).createdAt ≠ 0)
      (hpot : (seg.after.gameRegistry g).prizePool.toNat
        = (seg.before.gameRegistry g).prizePool.toNat + seg.credited g)
  | created (htakes : ¬ seg.takes g) (hnew : (seg.before.gameRegistry g).createdAt = 0)
      (hcreated : (seg.after.gameRegistry g).createdAt ≠ 0)
      (hpot : (seg.after.gameRegistry g).prizePool.toNat = seg.credited g)
  | claimed (htakes : seg.takes g)
      (htaken : seg.taken g = (seg.before.gameRegistry g).prizePool.toNat)
      (hcredited : seg.credited g = 0)
      (hexists : (seg.before.gameRegistry g).createdAt ≠ 0)
      (hopen : (seg.before.gameRegistry g).lastDrawnNumber ≠ 1000)
      (hafter : seg.after.gameRegistry g = (seg.before.gameRegistry g).finished)

/-- A segment that has nothing to do with the game. -/
private theorem PotChange.of_eq (htakes : ¬ seg.takes g) (hcredited : seg.credited g = 0)
    (hrec : seg.after.gameRegistry g = seg.before.gameRegistry g) : PotChange g seg := by
  refine .kept htakes (by rw [hrec]) (fun h => by rw [hrec, h]) ?_ ?_
  · exact fun h => absurd hcredited h
  · rw [hrec, hcredited, Nat.add_zero]

/-- Functions without token calls leave the pots alone. -/
private theorem potChange_of_effect {msg : Msg} {c : Call} {r : Returned}
    (hcalls : tokenCalls d msg s c = []) (heff : Effect d msg s c r s') :
    PotChange g ⟨(msg, c), none, s, s', .inr r⟩ := by
  have hne : ∀ id, c ≠ .claimPrize id := by
    rintro id rfl
    cases hcalls
  have htakes : ¬ GameSegment.takes g ⟨(msg, c), none, s, s', .inr r⟩ := fun h => hne g h.1
  have hcredited : GameSegment.credited g ⟨(msg, c), none, s, s', .inr r⟩ = 0 := by
    simp [GameSegment.credited]
  cases heff with
  | createGame => cases hcalls
  | joinGame => cases hcalls
  | claimPrize => cases hcalls
  | @drawNumber id hplayer hopen hblock =>
      by_cases hg : g = id
      · subst hg
        refine .kept htakes ?_ (fun h => absurd h hplayer.not_over) ?_ ?_
        · simp [Game.drawn]
        · exact fun h => absurd hcredited h
        · rw [hcredited]
          simp [Game.drawn]
      · exact .of_eq htakes hcredited (by simp [hg])
  | markNumberOnCard => exact .of_eq htakes hcredited (by simp)
  | updateEntryFee => exact .of_eq htakes hcredited rfl
  | updateJoinDuration => exact .of_eq htakes hcredited rfl
  | updateUpdateTurnDuration => exact .of_eq htakes hcredited rfl

theorem SegmentEffect.potChange (h : SegmentEffect d seg) (g : Bytes32) : PotChange g seg := by
  cases h with
  | runs hcalls heff => exact potChange_of_effect hcalls heff
  | asksToCreate =>
      exact .of_eq (by simp [GameSegment.takes]) (by simp [GameSegment.credited]) rfl
  | asksToJoin =>
      exact .of_eq (by simp [GameSegment.takes]) (by simp [GameSegment.credited]) rfl
  | pays =>
      exact .of_eq (by simp [GameSegment.takes]) (by simp [GameSegment.credited]) rfl
  | @creates msg s fee htime hnew =>
      by_cases hg : g = newGameId d msg
      · subst hg
        refine .created (by simp [GameSegment.takes]) hnew ?_ ?_
        · rw [Storage.setCard_gameRegistry, Storage.setGame_gameRegistry, if_pos rfl]
          exact Block.ValidTime.uint64_ne_zero htime
        · simp [GameSegment.credited, newGame]
      · exact .of_eq (by simp [GameSegment.takes])
          (by simp [GameSegment.credited, Ne.symm hg]) (by simp [hg])
  | @joins msg s id fee pot hexists hpot =>
      by_cases hg : g = id
      · subst hg
        refine .kept (by simp [GameSegment.takes]) ?_ ?_ ?_ ?_
        · simp
        · simp
        · exact fun _ => hexists
        · simpa [GameSegment.credited] using hpot
      · exact .of_eq (by simp [GameSegment.takes])
          (by simp [GameSegment.credited, Ne.symm hg]) (by simp [hg])
  | @claims msg s id hplayer =>
      by_cases hg : g = id
      · subst hg
        refine .claimed ⟨rfl, rfl⟩ ?_ (by simp [GameSegment.credited]) hplayer.exists_
          hplayer.not_over (by simp)
        simp [GameSegment.taken]
      · exact .of_eq (by simp [GameSegment.takes, Ne.symm hg]) (by simp [GameSegment.credited])
          (by simp [hg])

/-- What a segment guarantees to whoever waits for the token. -/
theorem SegmentEffect.keepsGames (h : SegmentEffect d seg) : KeepsGames seg.before seg.after := by
  intro g hexists
  cases h.potChange g with
  | kept _ hcreated => exact hcreated
  | created _ hnew => exact absurd hnew hexists
  | claimed _ _ _ _ _ hafter => rw [hafter, Game.finished]

theorem KeepsGames.trans {a b c : Storage} (hab : KeepsGames a b) (hbc : KeepsGames b c) :
    KeepsGames a c := by
  intro g hexists
  have hb : (b.gameRegistry g).createdAt = (a.gameRegistry g).createdAt := hab g hexists
  rw [hbc g (by rw [hb]; exact hexists), hb]

/-- The functions of the game, under callbacks. -/
theorem relyGuarantee (d : Deployment) :
    RelyGuarantee (entryCode d) ValidEntry KeepsGames (SegmentEffect d) where
  refl _ _ _ := rfl
  trans _ _ _ := KeepsGames.trans
  guarantee _ := SegmentEffect.keepsGames
  safe e _ he := dispatch_safe e.2 he

-- ============================================================================
-- The account of a pot
-- ============================================================================

/-- The pot of game `g` after the segments `l`. -/
structure PotAccount (g : Bytes32) (l : List GameSegment) (s : Storage) : Prop where
  once : l.countP (fun seg => seg.takes g) ≤ 1
  ended : l.countP (fun seg => seg.takes g) ≠ 0 →
    (s.gameRegistry g).createdAt ≠ 0 ∧ (s.gameRegistry g).lastDrawnNumber = 1000
  balance : (l.map (GameSegment.taken g)).sum + (s.gameRegistry g).prizePool.toNat
    = (l.map (GameSegment.credited g)).sum
  fresh : (s.gameRegistry g).createdAt = 0 → (s.gameRegistry g).prizePool.toNat = 0

private theorem countP_takes_concat : (l ++ [seg]).countP (fun seg => seg.takes g)
    = l.countP (fun seg => seg.takes g) + if seg.takes g then 1 else 0 := by
  rw [List.countP_append, List.countP_singleton]
  simp

private theorem sum_map_concat (f : GameSegment → Nat) :
    ((l ++ [seg]).map f).sum = (l.map f).sum + f seg := by
  rw [List.map_append, List.sum_append, List.map_singleton, List.sum_singleton]

theorem PotAccount.step (hinv : PotAccount g l seg.before) (hchange : PotChange g seg) :
    PotAccount g (l ++ [seg]) seg.after := by
  have hbalance := hinv.balance
  cases hchange with
  | kept htakes hcreated hover hexists hpot =>
      refine ⟨?_, ?_, ?_, ?_⟩
      · rw [countP_takes_concat, if_neg htakes]
        exact hinv.once
      · rw [countP_takes_concat, if_neg htakes, hcreated]
        exact fun hne => ⟨(hinv.ended hne).1, hover (hinv.ended hne).2⟩
      · rw [sum_map_concat, sum_map_concat, GameSegment.taken_of_not_takes htakes, hpot]
        omega
      · intro hzero
        rw [hcreated] at hzero
        have hnone : seg.credited g = 0 := by
          by_contra hne
          exact hexists hne hzero
        rw [hpot, hinv.fresh hzero, hnone]
  | created htakes hnew hcreated hpot =>
      have hunclaimed : l.countP (fun seg => seg.takes g) = 0 := by
        by_contra hne
        exact (hinv.ended hne).1 hnew
      have hempty := hinv.fresh hnew
      refine ⟨?_, ?_, ?_, fun hzero => absurd hzero hcreated⟩
      · rw [countP_takes_concat, if_neg htakes]
        exact hinv.once
      · rw [countP_takes_concat, if_neg htakes, hunclaimed]
        exact fun hne => absurd rfl hne
      · rw [sum_map_concat, sum_map_concat, GameSegment.taken_of_not_takes htakes, hpot]
        omega
  | claimed htakes htaken hcredited hexists hopen hafter =>
      have hunclaimed : l.countP (fun seg => seg.takes g) = 0 := by
        by_contra hne
        exact hopen (hinv.ended hne).2
      refine ⟨?_, ?_, ?_, ?_⟩
      · rw [countP_takes_concat, if_pos htakes, hunclaimed]
      · rw [hafter]
        exact fun _ => ⟨hexists, rfl⟩
      · rw [sum_map_concat, sum_map_concat, htaken, hcredited, hafter]
        show _ + _ + 0 = _
        omega
      · rw [hafter]
        exact fun _ => rfl

theorem segments_potAccount {s : Storage}
    (hrun : Run (SegmentStep (SegmentEffect d)) Storage.initial l s) (g : Bytes32) :
    PotAccount g l s := by
  refine hrun.invariant (P := PotAccount g) ?_ ?_
  · exact ⟨Nat.zero_le _, fun h => absurd rfl h, rfl, fun _ => rfl⟩
  · rintro k _ seg _ _ hk ⟨rfl, rfl, hseg⟩
    exact hk.step (hseg.potChange g)

/-- Segments never overwrite a creation time. -/
theorem segments_keepsGames {s s' : Storage}
    (hrun : Run (SegmentStep (SegmentEffect d)) s l s') : KeepsGames s s' := by
  refine hrun.relates (fun _ _ _ => rfl) (fun _ _ _ => KeepsGames.trans) ?_
  rintro _ seg _ _ ⟨rfl, rfl, hseg⟩
  exact hseg.keepsGames

end Pot

/-- **No double payout or lost fee under re-entrancy.** -/
theorem no_double_payout {d : Deployment} {acts : List (Act Entry)} {c : GameConfig}
    (hrun : ReentrantRun d acts c) (htime : ∀ a ∈ acts, a.Enters ValidEntry) (g : Bytes32) :
    c.now.log.countP (fun seg : GameSegment => seg.takes g) ≤ 1 ∧
    (∀ seg : GameSegment, seg ∈ c.now.log → seg.takes g →
      seg.taken g = (seg.before.gameRegistry g).prizePool.toNat ∧
      (seg.after.gameRegistry g).prizePool = 0) ∧
    (c.now.log.map (GameSegment.taken g)).sum + (c.now.storage.gameRegistry g).prizePool.toNat
      = (c.now.log.map (GameSegment.credited g)).sum ∧
    (∀ seg : GameSegment, seg ∈ c.now.log → (seg.before.gameRegistry g).createdAt ≠ 0 →
      (seg.after.gameRegistry g).createdAt = (seg.before.gameRegistry g).createdAt ∧
      (c.now.storage.gameRegistry g).createdAt = (seg.before.gameRegistry g).createdAt) := by
  have hsegments := (relyGuarantee d).history hrun htime
  have haccount : PotAccount g c.now.log c.now.storage := segments_potAccount hsegments g
  refine ⟨haccount.once, ?_, haccount.balance, ?_⟩
  · intro seg hseg htakes
    obtain ⟨_, _, _, _, -, -, ⟨-, -, heff⟩, -⟩ := hsegments.exists_step hseg
    cases heff.potChange g with
    | kept hnot => exact absurd htakes hnot
    | created hnot => exact absurd htakes hnot
    | claimed _ htaken _ _ _ hafter =>
        refine ⟨htaken, ?_⟩
        rw [hafter]
        rfl
  · intro seg hseg hexists
    obtain ⟨_, _, _, _, -, -, ⟨rfl, rfl, heff⟩, hrest⟩ := hsegments.exists_step hseg
    have hkept := heff.keepsGames g hexists
    refine ⟨hkept, ?_⟩
    rw [segments_keepsGames hrest g (by rw [hkept]; exact hexists), hkept]

namespace Sample

/-- The game of `txs` up to the claim, with the fees paid.  Then the owner
    lengthens the window, and while player 51 pays for joining, player 17 claims
    and, while that is being paid, claims again. -/
def acts : List (Act Entry) :=
  (txs.take 14).flatMap (fun tx =>
    match tx.action with
    | .game c => [.enter (tx.msg, c), .resume]
    | .token _ => []) ++
  [ .enter (msg 0xa0 6250 16, .updateJoinDuration 10000),
    .enter (msg 51 6300 17, .joinGame gameId),
    .enter (claim, .claimPrize gameId),
    .resume,
    .spawn,
    .enter (claim, .claimPrize gameId),
    .commit,
    .resume,
    .resume ]

/-- The acts of the first `n` that are possible, and where they lead. -/
def reentered (n : Nat) : List (Act Entry) × GameConfig :=
  (Config.initial Storage.initial).play (entryCode deployment) (acts.take n)

end Sample

open Sample in
/-- After the second claim was refused, and after everything returned: the
    prize was paid once, and the late fee is in the pot. -/
theorem no_double_payout_sample :
    ((reentered 26).2.stack.length = 3 ∧
      ((reentered 26).2.now.log.map (GameSegment.taken gameId)).sum
          + ((reentered 26).2.now.storage.gameRegistry gameId).prizePool.toNat
        = ((reentered 26).2.now.log.map (GameSegment.credited gameId)).sum) ∧
    (reentered 29).2.stack.length = 0 ∧
    ((reentered 29).2.now.storage.gameRegistry gameId).prizePool = 1000 ∧
    (reentered 29).2.now.log.countP (fun seg : GameSegment => seg.takes gameId) ≤ 1 ∧
    ((reentered 29).2.now.log.map (GameSegment.taken gameId)).sum
        + ((reentered 29).2.now.storage.gameRegistry gameId).prizePool.toNat
      = ((reentered 29).2.now.log.map (GameSegment.credited gameId)).sum := by
  have hrun : ∀ n, ReentrantRun deployment (reentered n).1 (reentered n).2 := fun n =>
    Config.play_run ..
  have hinside := no_double_payout (hrun 26) (by decide +kernel) gameId
  have hafter := no_double_payout (hrun 29) (by decide +kernel) gameId
  exact ⟨⟨by decide +kernel, hinside.2.2.1⟩, by decide +kernel, by decide +kernel, hafter.1,
    hafter.2.2.1⟩

end BitmaskBingo
