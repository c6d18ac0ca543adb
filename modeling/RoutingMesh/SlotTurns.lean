import RoutingMesh.SlotWindow

/-!
# Every node gets its turn

However `sync_adjust_slot` moves the slot, the gate of `tx_loop` opens for a
whole slot within two frames after each transmission.  The loop polls more
often than a slot is wide, so it does not miss it: the time from one beacon to
the next is bounded by two frames, the slot and the delays of the thread.
-/

namespace RoutingMesh

open FrameClock

/--
The thread is scheduled within a latency after each sleep, and a transmission
is over within some time and had a payload.
-/
def PromptPass
    (numNodes latencyUs drainUs : Nat)
    (state : GateState)
    (pass : LoopPass) : Prop :=
  LoopEnabled state pass ∧
    pass.nowUs ≤ state.resumeUs + latencyUs ∧
    (gateOpens numNodes state pass.nowUs = true →
      pass.finishedUs ≤ pass.nowUs + drainUs ∧ pass.serialized = true)

instance (numNodes latencyUs drainUs : Nat) (state : GateState)
    (pass : LoopPass) :
    Decidable (PromptPass numNodes latencyUs drainUs state pass) :=
  inferInstanceAs (Decidable (_ ∧ _))

/-- The slot of `sync_init` when the threads start. -/
def gateStartAt (numNodes slotId startUs : Nat) : GateState :=
  { gateStart numNodes slotId with resumeUs := startUs }

/-- The longest time from a beacon to the next one. -/
def turnUs (numNodes latencyUs drainUs : Nat) : Nat :=
  drainUs + slotDurationUs + 2 * roundUs numNodes + pollUs + latencyUs

/-- The gate is open for a whole slot from a time on. -/
def OpensAt
    (numNodes : Nat)
    (state : GateState)
    (fromUs : Nat) : Prop :=
  ∀ timeUs, fromUs ≤ timeUs → timeUs < fromUs + slotDurationUs →
    gateOpens numNodes state timeUs = true

/-- The transmissions up to a time are of rounds up to that of the time. -/
def SentBefore
    (numNodes : Nat)
    (state : GateState)
    (endedUs : Nat) : Prop :=
  ∀ txRound ∈ state.lastTxRound, txRound ≤ endedUs / roundUs numNodes

/-- Each time of a list comes less than a distance after the one before. -/
def WithinOf (distance : Nat) (times : List Nat) : Prop :=
  times.IsChain fun earlier later => later < earlier + distance

section

variable {numNodes slotId latencyUs drainUs : Nat}
variable {state : GateState}

/-- The slot that begins in the next frame is whole and in other rounds. -/
theorem exists_opensAt
    (atLeastTwo : 2 ≤ numNodes)
    (placed : state.slot.WellPlaced numNodes)
    {endedUs : Nat}
    (sentBefore : SentBefore numNodes state endedUs) :
    ∃ fromUs,
      endedUs ≤ fromUs ∧
        fromUs < endedUs + 2 * roundUs numNodes ∧
        OpensAt numNodes state fromUs := by
  have positive : 0 < roundUs numNodes := roundUs_pos (by omega)
  have twoSlots := two_slots_le_roundUs atLeastTwo
  have starts := frameStart_le (roundUs numNodes) endedUs
  have ends := lt_frameStart_add positive endedUs
  have begins := slotBeginUs_lt placed endedUs
  have notBefore :
      frameStart (roundUs numNodes) endedUs ≤
        slotBeginUs numNodes state.slot endedUs :=
    Nat.le_add_right _ _
  refine ⟨slotBeginUs numNodes state.slot endedUs + roundUs numNodes,
    by omega, by omega, fun timeUs since before => ?_⟩
  unfold slotDurationUs at before
  -- The slot ends in the frame in which it begins, or in the one after.
  have frames :
      slotBeginUs numNodes state.slot timeUs =
          slotBeginUs numNodes state.slot endedUs + roundUs numNodes ∨
        slotBeginUs numNodes state.slot timeUs =
          slotBeginUs numNodes state.slot endedUs + roundUs numNodes +
            roundUs numNodes := by
    have inNext :
        frameStart (roundUs numNodes) endedUs + roundUs numNodes ≤ timeUs := by
      omega
    rcases Nat.lt_or_ge timeUs
        (frameStart (roundUs numNodes) endedUs + roundUs numNodes +
          roundUs numNodes) with first | second
    · left
      unfold slotBeginUs
      rw [frameStart_of_next inNext first]
      omega
    · right
      have nextStart :
          frameStart (roundUs numNodes)
              (frameStart (roundUs numNodes) endedUs + roundUs numNodes) =
            frameStart (roundUs numNodes) endedUs + roundUs numNodes :=
        frameStart_of_next le_rfl (by omega)
      have inSecond := @frameStart_of_next (roundUs numNodes)
        (frameStart (roundUs numNodes) endedUs + roundUs numNodes) timeUs
        (by omega) (by omega)
      unfold slotBeginUs
      omega
  have otherRound : state.lastTxRound ≠ some (timeUs / roundUs numNodes) := by
    intro sameRound
    have earlier := sentBefore _ sameRound
    have later :
        (endedUs + roundUs numNodes - endedUs % roundUs numNodes) /
            roundUs numNodes ≤
          timeUs / roundUs numNodes := by
      apply Nat.div_le_div_right
      unfold frameStart at notBefore
      omega
    have next :
        endedUs + roundUs numNodes - endedUs % roundUs numNodes =
          roundUs numNodes * (endedUs / roundUs numNodes + 1) := by
      have splits := Nat.mod_add_div endedUs (roundUs numNodes)
      rw [Nat.mul_add]
      omega
    rw [next, Nat.mul_div_cancel_left _ positive] at later
    omega
  unfold gateOpens
  rw [Bool.and_eq_true, decide_eq_true_eq]
  refine ⟨(syncInSlot_iff atLeastTwo placed timeUs).mpr ?_, otherRound⟩
  omega

/--
The invariant: since the last transmission ended, no slot was missed, so the
thread has not waited longer than for the slot to open.
-/
structure AwaitsTurn
    (numNodes latencyUs drainUs startUs : Nat)
    (state : GateState)
    (endedUs : Nat) : Prop where
  placed : state.slot.WellPlaced numNodes
  sentBefore : SentBefore numNodes state endedUs
  notMissed :
    ∀ fromUs, endedUs ≤ fromUs → OpensAt numNodes state fromUs →
      state.resumeUs ≤ fromUs + pollUs
  ended :
    ∀ last ∈ (startUs :: state.beaconsUs).getLast?,
      endedUs ≤ last + drainUs + slotDurationUs
  turns :
    WithinOf (turnUs numNodes latencyUs drainUs) (startUs :: state.beaconsUs)

/-- The thread wakes before the end of the slot that it waits for. -/
theorem AwaitsTurn.resumeUs_lt
    (atLeastTwo : 2 ≤ numNodes)
    {startUs endedUs : Nat}
    (awaits : AwaitsTurn numNodes latencyUs drainUs startUs state endedUs) :
    ∀ last ∈ (startUs :: state.beaconsUs).getLast?,
      state.resumeUs + latencyUs <
        last + turnUs numNodes latencyUs drainUs := by
  intro last isLast
  obtain ⟨fromUs, since, before, opens⟩ :=
    exists_opensAt atLeastTwo awaits.placed awaits.sentBefore
  have notMissed := awaits.notMissed fromUs since opens
  have ended := awaits.ended last isLast
  unfold turnUs
  omega

theorem awaitsTurn_gateStartAt
    (valid : ValidArguments numNodes slotId)
    (startUs : Nat) :
    AwaitsTurn numNodes latencyUs drainUs startUs
      (gateStartAt numNodes slotId startUs) startUs where
  placed := wellPlaced_syncInit valid
  sentBefore := by simp [SentBefore, gateStartAt, gateStart]
  notMissed fromUs since _ := since.trans (Nat.le_add_right _ _)
  ended := by
    intro last isLast
    obtain rfl : startUs = last := by
      simpa [gateStartAt, gateStart] using isLast
    omega
  turns := List.isChain_singleton startUs

/-- A pass that does not transmit was not in the slot. -/
theorem AwaitsTurn.poll
    {startUs endedUs : Nat}
    (awaits : AwaitsTurn numNodes latencyUs drainUs startUs state endedUs)
    (prompt : pollUs + latencyUs < slotDurationUs)
    {pass : LoopPass}
    (allowed : PromptPass numNodes latencyUs drainUs state pass)
    (closed : ¬ gateOpens numNodes state pass.nowUs = true) :
    AwaitsTurn numNodes latencyUs drainUs startUs
      { state with resumeUs := pass.nowUs + pollUs } endedUs := by
  obtain ⟨-, soon, -⟩ := allowed
  refine
    ⟨awaits.placed, awaits.sentBefore, ?_, awaits.ended, awaits.turns⟩
  intro fromUs since opens
  have before := awaits.notMissed fromUs since opens
  have notIn : pass.nowUs < fromUs := by
    by_contra reached
    exact closed (opens pass.nowUs (by omega) (by omega))
  exact Nat.add_le_add_right notIn.le pollUs

/-- A pass is over less than a slot after its transmission. -/
theorem passEndUs_le
    (numNodes : Nat)
    (slot : SlotLimits)
    (pass : LoopPass) :
    passEndUs numNodes slot pass ≤ pass.finishedUs + slotDurationUs := by
  simp only [passEndUs]
  split
  · rename_i sleeps
    omega
  · exact Nat.le_add_right _ _

theorem wellPlaced_syncAdjustSlot
    (positive : 0 < numNodes)
    {slot : SlotLimits}
    (placed : slot.WellPlaced numNodes)
    (largestMeanDelay random : Nat) :
    (syncAdjustSlot numNodes slotId slot largestMeanDelay
      random).WellPlaced numNodes := by
  rw [syncAdjustSlot_eq_shiftSlot positive placed]
  exact wellPlaced_shiftSlot positive slot _

/-- After a transmission the waiting begins again. -/
theorem AwaitsTurn.transmit
    (atLeastTwo : 2 ≤ numNodes)
    {startUs endedUs : Nat}
    (awaits : AwaitsTurn numNodes latencyUs drainUs startUs state endedUs)
    {pass : LoopPass}
    (allowed : PromptPass numNodes latencyUs drainUs state pass)
    (opened : gateOpens numNodes state pass.nowUs = true) :
    AwaitsTurn numNodes latencyUs drainUs startUs
      (RoutingMesh.transmit numNodes slotId state pass)
      (passEndUs numNodes state.slot pass) := by
  obtain ⟨⟨-, ordered⟩, soon, completes⟩ := allowed
  obtain ⟨finished, serialized⟩ := completes opened
  have passEnds := passEndUs_le numNodes state.slot pass
  have notBefore : pass.nowUs ≤ passEndUs numNodes state.slot pass :=
    ordered.trans (finishedUs_le_passEndUs numNodes state.slot pass)
  have beacons :
      (RoutingMesh.transmit numNodes slotId state pass).beaconsUs =
        state.beaconsUs ++ [pass.nowUs] :=
    if_pos serialized
  constructor
  · exact wellPlaced_syncAdjustSlot (by omega) awaits.placed _ _
  · intro txRound isLast
    obtain rfl : pass.nowUs / roundUs numNodes = txRound :=
      Option.some.inj isLast
    exact Nat.div_le_div_right notBefore
  · intro fromUs since _
    exact since.trans (Nat.le_add_right _ _)
  · intro last isLast
    rw [beacons, ← List.cons_append, List.getLast?_concat] at isLast
    obtain rfl : pass.nowUs = last := Option.some.inj isLast
    omega
  · unfold WithinOf
    rw [beacons, ← List.cons_append, List.isChain_append]
    refine ⟨awaits.turns, List.isChain_singleton _, ?_⟩
    intro last isLast next isNext
    obtain rfl : pass.nowUs = next := by simpa using isNext
    have waited := awaits.resumeUs_lt atLeastTwo last isLast
    omega

/-- Every pass keeps the invariant. -/
theorem AwaitsTurn.loopPass
    (atLeastTwo : 2 ≤ numNodes)
    {startUs endedUs : Nat}
    (awaits : AwaitsTurn numNodes latencyUs drainUs startUs state endedUs)
    (prompt : pollUs + latencyUs < slotDurationUs)
    {pass : LoopPass}
    (allowed : PromptPass numNodes latencyUs drainUs state pass) :
    ∃ nextEndedUs,
      AwaitsTurn numNodes latencyUs drainUs startUs
        (RoutingMesh.loopPass numNodes slotId state pass) nextEndedUs := by
  unfold RoutingMesh.loopPass
  by_cases opened : gateOpens numNodes state pass.nowUs = true
  · rw [if_pos opened]
    exact ⟨_, awaits.transmit atLeastTwo allowed opened⟩
  · rw [if_neg opened]
    exact ⟨endedUs, awaits.poll prompt allowed opened⟩

end

/--
Whatever `sync_adjust_slot` makes of the slot, a node whose thread is scheduled
within a latency of each sleep, less than 48 ms, sends a beacon within a
bounded time after it starts and after each beacon: two frames, one slot, the
time of a transmission, and one poll with its latency.
-/
theorem beacons_keepComing
    {numNodes slotId : Nat}
    (valid : ValidArguments numNodes slotId)
    {latencyUs drainUs : Nat}
    (prompt : pollUs + latencyUs < slotDurationUs)
    (startUs : Nat)
    {passes : List LoopPass}
    {state : GateState}
    (run :
      StepRun.Run (loopPass numNodes slotId)
        (PromptPass numNodes latencyUs drainUs)
        (gateStartAt numNodes slotId startUs) passes state) :
    WithinOf (turnUs numNodes latencyUs drainUs)
        (startUs :: state.beaconsUs) ∧
      ∀ last ∈ (startUs :: state.beaconsUs).getLast?,
        state.resumeUs < last + turnUs numNodes latencyUs drainUs := by
  have invariant :
      ∃ endedUs,
        AwaitsTurn numNodes latencyUs drainUs startUs state endedUs :=
    run.invariant
      (fun state =>
        ∃ endedUs,
          AwaitsTurn numNodes latencyUs drainUs startUs state endedUs)
      ⟨startUs, awaitsTurn_gateStartAt valid startUs⟩
      fun ⟨_, awaits⟩ allowed =>
        awaits.loopPass valid.atLeastTwo prompt allowed
  obtain ⟨endedUs, awaits⟩ := invariant
  refine ⟨awaits.turns, fun last isLast => ?_⟩
  have waited := awaits.resumeUs_lt valid.atLeastTwo last isLast
  omega

/-- Two slots of the first of two nodes, with a late neighbour. -/
def takesTwoTurns : List LoopPass :=
  [⟨3000, 9000, true, 20, 40⟩, ⟨50000, 50000, true, 0, 0⟩,
    ⟨92000, 92000, true, 0, 0⟩, ⟨134000, 140000, true, 0, 0⟩]

/-- The second beacon is sent in the next frame, in the slot that was moved. -/
theorem beacons_keepComing_takesTwoTurns :
    let state :=
      takesTwoTurns.foldl (loopPass 2 1) (gateStartAt 2 1 3000)
    state.beaconsUs = [3000, 134000] ∧
      WithinOf (turnUs 2 40000 6000) (3000 :: state.beaconsUs) := by
  intro state
  have run :
      StepRun.Run (loopPass 2 1) (PromptPass 2 40000 6000)
        (gateStartAt 2 1 3000) takesTwoTurns state :=
    .of_checkRun (by decide)
  obtain ⟨turns, -⟩ :=
    beacons_keepComing ⟨by decide, by decide, by decide, by decide⟩
      (by decide) 3000 run
  exact ⟨by decide, turns⟩

end RoutingMesh
