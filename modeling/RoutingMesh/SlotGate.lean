import RoutingMesh.FrameClock
import RoutingMesh.Matrix
import RoutingMesh.StepRun

/-!
# The slot gate of the transmitter

Model of the slot that `sync.c` keeps and of the passes of `tx_loop`: the
test of the slot, the test of the round, the transmission and the sleep at
its end.  The round number changes in the middle of a slot that crosses the
frame boundary, so a node may send twice in such a slot.
-/

namespace RoutingMesh

open FrameClock

/-- `SLOT_DURATION_US`. -/
def slotDurationUs : Nat := 50000

/-- `GUARD_US`. -/
def guardUs : Nat := 5000

/-- The `usleep` of a pass that does not transmit. -/
def pollUs : Nat := 2000

/-- `SYNC_DEADBAND_MS`. -/
def syncDeadbandMs : Nat := 4

/-- `round_period_ms`. -/
def roundPeriodMs (numNodes : Nat) : Nat :=
  numNodes * (slotDurationUs / 1000)

/-- The length of a frame in microseconds. -/
def roundUs (numNodes : Nat) : Nat :=
  roundPeriodMs numNodes * 1000

/-- The `width_ms` of `sync.c`. -/
def slotWidthMs (numNodes : Nat) : Nat :=
  roundPeriodMs numNodes / numNodes

/-- `slot_limits_t`: milliseconds in the frame. -/
structure SlotLimits where
  beginMs : Nat
  endMs : Nat
  deriving DecidableEq, Repr

/-- `sync_init`, for the slot. -/
def syncInit (slotId numNodes : Nat) : SlotLimits :=
  let beginMs := slotWidthMs numNodes * (slotId - 1)
  { beginMs := beginMs
    endMs := (beginMs + slotWidthMs numNodes) % roundPeriodMs numNodes }

/-- `shiftSlot`. -/
def shiftSlot
    (numNodes : Nat)
    (slot : SlotLimits)
    (deltaMs : Nat) : SlotLimits :=
  let period := roundPeriodMs numNodes
  let beginMs := (slot.beginMs + deltaMs + period) % period
  { beginMs := beginMs
    endMs := (beginMs + slotWidthMs numNodes) % period }

/--
The `delta` of `sync_adjust_slot`, from the greatest mean delay of a neighbour
and the value of `rand`: 10% of the width at most, of which the random part
keeps 80% to 100%.
-/
def syncDelta (numNodes largestMeanDelay random : Nat) : Nat :=
  if largestMeanDelay ≤ syncDeadbandMs then
    0
  else
    let limit := max 1 (slotWidthMs numNodes / 10)
    min largestMeanDelay limit * (400 + random % 101) / 500

/-- `sync_adjust_slot`, for the slot. -/
def syncAdjustSlot
    (numNodes slotId : Nat)
    (slot : SlotLimits)
    (largestMeanDelay random : Nat) : SlotLimits :=
  let delta := syncDelta numNodes largestMeanDelay random
  if delta = 0 then
    slot
  else
    let shifted := shiftSlot numNodes slot delta
    if shifted.beginMs > roundPeriodMs numNodes ∨
        shifted.endMs > roundPeriodMs numNodes then
      let beginMs :=
        (slotWidthMs numNodes * (slotId - 1)) % roundPeriodMs numNodes
      { beginMs := beginMs
        endMs :=
          (beginMs + slotWidthMs numNodes) % roundPeriodMs numNodes }
    else
      shifted

/-- `sync_in_slot`. -/
def syncInSlot (numNodes : Nat) (slot : SlotLimits) (nowUs : Nat) : Bool :=
  let tMs := nowUs % roundUs numNodes / 1000
  if slot.beginMs ≤ slot.endMs then
    decide (tMs ≥ slot.beginMs ∧ tMs < slot.endMs)
  else
    decide (tMs ≥ slot.beginMs ∨ tMs < slot.endMs)

/-- The `slot_end` of a transmission that starts at a time. -/
def slotEndUs (numNodes : Nat) (slot : SlotLimits) (nowUs : Nat) : Nat :=
  let start := frameStart (roundUs numNodes) nowUs
  let slotEnd :=
    if slot.endMs > slot.beginMs then
      start + slot.endMs * 1000
    else
      start + roundUs numNodes + slot.endMs * 1000
  if slotEnd > guardUs then slotEnd - guardUs else slotEnd

/--
What `tx_loop` keeps between its passes: the slot, `last_tx_round`, the time
its sleep ends, and the start of each beacon sent.
-/
structure GateState where
  slot : SlotLimits
  lastTxRound : Option Nat
  resumeUs : Nat
  beaconsUs : List Nat
  deriving DecidableEq, Repr

/--
One pass of `tx_loop`: when it starts, when its transmission ends, whether
`serializeMatrix` gave a payload, and what `sync_adjust_slot` reads.
-/
structure LoopPass where
  nowUs : Nat
  finishedUs : Nat
  serialized : Bool
  largestMeanDelay : Nat
  random : Nat
  deriving DecidableEq, Repr

/-- The slot of `sync_init`, and no round of any transmission yet. -/
def gateStart (numNodes slotId : Nat) : GateState where
  slot := syncInit slotId numNodes
  lastTxRound := none
  resumeUs := 0
  beaconsUs := []

/-- A pass that starts at a time gets to the transmission. -/
def gateOpens (numNodes : Nat) (state : GateState) (nowUs : Nat) : Bool :=
  syncInSlot numNodes state.slot nowUs &&
    decide (state.lastTxRound ≠ some (nowUs / roundUs numNodes))

/-- When a transmission's pass ends, with its sleep. -/
def passEndUs (numNodes : Nat) (slot : SlotLimits) (pass : LoopPass) : Nat :=
  let sleepEnd := slotEndUs numNodes slot pass.nowUs + guardUs
  if pass.finishedUs < sleepEnd ∧
      sleepEnd - pass.finishedUs < slotDurationUs then
    sleepEnd
  else
    pass.finishedUs

/-- A transmission, up to the end of its pass. -/
def transmit
    (numNodes slotId : Nat)
    (state : GateState)
    (pass : LoopPass) : GateState where
  slot :=
    syncAdjustSlot numNodes slotId state.slot pass.largestMeanDelay
      pass.random
  lastTxRound := some (pass.nowUs / roundUs numNodes)
  resumeUs := passEndUs numNodes state.slot pass
  beaconsUs :=
    if pass.serialized then
      state.beaconsUs ++ [pass.nowUs]
    else
      state.beaconsUs

/-- One pass of `tx_loop`. -/
def loopPass
    (numNodes slotId : Nat)
    (state : GateState)
    (pass : LoopPass) : GateState :=
  if gateOpens numNodes state pass.nowUs then
    transmit numNodes slotId state pass
  else
    { state with resumeUs := pass.nowUs + pollUs }

/-- The clock never goes back, and the thread runs again after its sleep. -/
def LoopEnabled (state : GateState) (pass : LoopPass) : Prop :=
  state.resumeUs ≤ pass.nowUs ∧ pass.nowUs ≤ pass.finishedUs

instance (state : GateState) (pass : LoopPass) :
    Decidable (LoopEnabled state pass) :=
  inferInstanceAs (Decidable (_ ∧ _))

/-- What `main` checks of its arguments. -/
structure ValidArguments (numNodes slotId : Nat) : Prop where
  atLeastTwo : 2 ≤ numNodes
  atMostMax : numNodes ≤ maxNodes
  positive : 1 ≤ slotId
  bounded : slotId ≤ numNodes

/-- The least distance of two beacons: the frame without one slot. -/
def beaconDistanceUs (numNodes : Nat) : Nat :=
  roundUs numNodes - slotWidthMs numNodes * 1000

/-- The microsecond at which the slot of a time's frame begins. -/
def slotBeginUs (numNodes : Nat) (slot : SlotLimits) (nowUs : Nat) : Nat :=
  frameStart (roundUs numNodes) nowUs + slot.beginMs * 1000

/-- The shift that `sync_adjust_slot` makes at the end of a transmission. -/
def LoopPass.deltaMs (pass : LoopPass) (numNodes : Nat) : Nat :=
  syncDelta numNodes pass.largestMeanDelay pass.random

/--
Until when a transmission in the slot that begins in its frame keeps the
thread: to the end of the slot, but not if it ends in the very microsecond in
which the slot begins.
-/
def LoopPass.heldUs
    (pass : LoopPass)
    (numNodes : Nat)
    (slot : SlotLimits) : Nat :=
  let slotBegin := slotBeginUs numNodes slot pass.nowUs
  if pass.finishedUs = slotBegin then
    pass.finishedUs
  else
    max pass.finishedUs (slotBegin + slotWidthMs numNodes * 1000)

/--
A transmission that cannot be repeated too early: it starts in the first slot
width of its frame, or the shifted slot ends in the frame, or the thread is
kept until that slot is over or the distance has passed.
-/
def KeepsToSlot
    (numNodes : Nat)
    (slot : SlotLimits)
    (pass : LoopPass) : Prop :=
  pass.nowUs % roundUs numNodes ≤ slotWidthMs numNodes * 1000 ∨
    slot.beginMs + pass.deltaMs numNodes + slotWidthMs numNodes ≤
      roundPeriodMs numNodes ∨
    slotBeginUs numNodes slot pass.nowUs +
        (pass.deltaMs numNodes + slotWidthMs numNodes) * 1000 ≤
      pass.heldUs numNodes slot ∨
    pass.nowUs + beaconDistanceUs numNodes ≤ pass.heldUs numNodes slot

instance (numNodes : Nat) (slot : SlotLimits) (pass : LoopPass) :
    Decidable (KeepsToSlot numNodes slot pass) :=
  inferInstanceAs (Decidable (_ ∨ _ ∨ _ ∨ _))

/-- Every beacon is sent by a transmission that keeps to its slot. -/
def GuardedPass
    (numNodes : Nat)
    (state : GateState)
    (pass : LoopPass) : Prop :=
  LoopEnabled state pass ∧
    (gateOpens numNodes state pass.nowUs = true →
      pass.serialized = true →
      KeepsToSlot numNodes state.slot pass)

instance (numNodes : Nat) (state : GateState) (pass : LoopPass) :
    Decidable (GuardedPass numNodes state pass) :=
  inferInstanceAs (Decidable (_ ∧ _))

/-! ## The slot -/

/-- The width of a slot is that of `SLOT_DURATION_US` for every network. -/
theorem slotWidthMs_eq
    {numNodes : Nat}
    (positive : 0 < numNodes) :
    slotWidthMs numNodes = 50 :=
  Nat.mul_div_cancel_left 50 positive

theorem roundPeriodMs_eq (numNodes : Nat) :
    roundPeriodMs numNodes = numNodes * 50 :=
  rfl

theorem roundUs_eq (numNodes : Nat) :
    roundUs numNodes = numNodes * 50 * 1000 :=
  rfl

theorem roundUs_pos
    {numNodes : Nat}
    (positive : 0 < numNodes) :
    0 < roundUs numNodes := by
  rw [roundUs_eq]
  omega

/-- The distance of two beacons and the width of a slot make up the frame. -/
theorem beaconDistanceUs_add
    {numNodes : Nat}
    (positive : 0 < numNodes) :
    beaconDistanceUs numNodes + 50 * 1000 = roundUs numNodes := by
  unfold beaconDistanceUs
  rw [slotWidthMs_eq positive, roundUs_eq]
  omega

/-- A slot of the network's width that begins in the frame. -/
structure SlotLimits.WellPlaced
    (slot : SlotLimits)
    (numNodes : Nat) : Prop where
  begins : slot.beginMs < roundPeriodMs numNodes
  ends :
    slot.endMs =
      (slot.beginMs + slotWidthMs numNodes) % roundPeriodMs numNodes

variable {numNodes slotId : Nat}
variable {slot : SlotLimits}

theorem wellPlaced_syncInit
    (valid : ValidArguments numNodes slotId) :
    (syncInit slotId numNodes).WellPlaced numNodes := by
  refine ⟨?_, rfl⟩
  have atLeastTwo := valid.atLeastTwo
  have positive := valid.positive
  have bounded := valid.bounded
  simp only [syncInit, slotWidthMs_eq (by omega : 0 < numNodes),
    roundPeriodMs_eq]
  omega

theorem wellPlaced_shiftSlot
    (positive : 0 < numNodes)
    (slot : SlotLimits)
    (deltaMs : Nat) :
    (shiftSlot numNodes slot deltaMs).WellPlaced numNodes := by
  refine ⟨Nat.mod_lt _ ?_, rfl⟩
  rw [roundPeriodMs_eq]
  omega

/-- A shift is at most a tenth of the width. -/
theorem syncDelta_le
    (positive : 0 < numNodes)
    (largestMeanDelay random : Nat) :
    syncDelta numNodes largestMeanDelay random ≤ 5 := by
  unfold syncDelta
  rw [slotWidthMs_eq positive]
  split
  · exact Nat.zero_le 5
  · have limited : min largestMeanDelay (max 1 (50 / 10)) ≤ 5 :=
      min_le_right _ _
    have randomPart : 400 + random % 101 ≤ 500 := by
      omega
    calc
      min largestMeanDelay (max 1 (50 / 10)) * (400 + random % 101) / 500
          ≤ 5 * 500 / 500 :=
        Nat.div_le_div_right (Nat.mul_le_mul limited randomPart)
      _ = 5 := rfl

/-- A well-placed slot is shifted by nothing. -/
theorem shiftSlot_zero
    (placed : slot.WellPlaced numNodes) :
    shiftSlot numNodes slot 0 = slot := by
  obtain ⟨beginMs, endMs⟩ := slot
  obtain ⟨begins, ends⟩ := placed
  dsimp only at begins ends
  simp only [shiftSlot, Nat.add_zero, Nat.add_mod_right,
    Nat.mod_eq_of_lt begins, ends]

/-- The limits stay in the frame, so `sync_adjust_slot` never resets the slot. -/
theorem syncAdjustSlot_eq_shiftSlot
    (positive : 0 < numNodes)
    (placed : slot.WellPlaced numNodes)
    (largestMeanDelay random : Nat) :
    syncAdjustSlot numNodes slotId slot largestMeanDelay random =
      shiftSlot numNodes slot
        (syncDelta numNodes largestMeanDelay random) := by
  unfold syncAdjustSlot
  by_cases still : syncDelta numNodes largestMeanDelay random = 0
  · rw [if_pos still, still, shiftSlot_zero placed]
  · have shifted :=
      wellPlaced_shiftSlot positive slot
        (syncDelta numNodes largestMeanDelay random)
    have begins := shifted.begins
    have ends :
        (shiftSlot numNodes slot
          (syncDelta numNodes largestMeanDelay random)).endMs <
            roundPeriodMs numNodes := by
      rw [shifted.ends]
      exact Nat.mod_lt _ (by omega)
    rw [if_neg still]
    exact if_neg (by omega)

/-- Where a shifted slot begins: later in the frame, or past its end. -/
theorem shiftSlot_beginMs
    (placed : slot.WellPlaced numNodes)
    {deltaMs : Nat}
    (small : deltaMs ≤ roundPeriodMs numNodes) :
    (slot.beginMs + deltaMs < roundPeriodMs numNodes ∧
        (shiftSlot numNodes slot deltaMs).beginMs =
          slot.beginMs + deltaMs) ∨
      (roundPeriodMs numNodes ≤ slot.beginMs + deltaMs ∧
        (shiftSlot numNodes slot deltaMs).beginMs + roundPeriodMs numNodes =
          slot.beginMs + deltaMs) := by
  have begins := placed.begins
  have shiftedBegin :
      (shiftSlot numNodes slot deltaMs).beginMs =
        (slot.beginMs + deltaMs) % roundPeriodMs numNodes := by
    simp only [shiftSlot, Nat.add_mod_right]
  rw [shiftedBegin]
  rcases Nat.lt_or_ge (slot.beginMs + deltaMs) (roundPeriodMs numNodes) with
    within | past
  · left
    exact ⟨within, Nat.mod_eq_of_lt within⟩
  · right
    refine ⟨past, ?_⟩
    rw [Nat.mod_eq_sub_mod past, Nat.mod_eq_of_lt (by omega)]
    omega

/-! ## When the slot is open -/

/--
The slot is open in what is left of the occurrence that began in the frame
before, and in the occurrence that begins in the frame itself.
-/
theorem syncInSlot_iff
    (atLeastTwo : 2 ≤ numNodes)
    (placed : slot.WellPlaced numNodes)
    (nowUs : Nat) :
    syncInSlot numNodes slot nowUs = true ↔
      nowUs + roundUs numNodes <
          slotBeginUs numNodes slot nowUs + 50 * 1000 ∨
        (slotBeginUs numNodes slot nowUs ≤ nowUs ∧
          nowUs < slotBeginUs numNodes slot nowUs + 50 * 1000) := by
  obtain ⟨beginMs, endMs⟩ := slot
  obtain ⟨begins, ends⟩ := placed
  have offset : nowUs % roundUs numNodes < roundUs numNodes :=
    Nat.mod_lt _ (roundUs_pos (by omega))
  have splits := frameStart_add_mod (roundUs numNodes) nowUs
  simp only [slotWidthMs_eq (by omega : 0 < numNodes)] at begins ends
  simp only [syncInSlot, slotBeginUs]
  rw [roundPeriodMs_eq] at begins ends
  rw [roundUs_eq] at offset splits ⊢
  rcases Nat.lt_or_ge (beginMs + 50) (numNodes * 50) with inFrame | crosses
  · rw [Nat.mod_eq_of_lt inFrame] at ends
    rw [if_pos (by omega), decide_eq_true_iff]
    omega
  · rw [Nat.mod_eq_sub_mod crosses, Nat.mod_eq_of_lt (by omega)] at ends
    rw [if_neg (by omega), decide_eq_true_iff]
    omega

/-- A pass after the first slot width of a frame is in the slot of that frame. -/
theorem slotBeginUs_le_of_syncInSlot
    (atLeastTwo : 2 ≤ numNodes)
    (placed : slot.WellPlaced numNodes)
    {nowUs : Nat}
    (inSlot : syncInSlot numNodes slot nowUs = true)
    (late : 50 * 1000 < nowUs % roundUs numNodes) :
    slotBeginUs numNodes slot nowUs ≤ nowUs ∧
      nowUs < slotBeginUs numNodes slot nowUs + 50 * 1000 := by
  have begins := placed.begins
  have splits := frameStart_add_mod (roundUs numNodes) nowUs
  rcases (syncInSlot_iff atLeastTwo placed nowUs).mp inSlot with
    rest | occurrence
  · unfold slotBeginUs at rest
    rw [roundPeriodMs_eq] at begins
    rw [roundUs_eq] at rest splits late
    omega
  · exact occurrence

/-- The guard that `slot_end` leaves off leads to the end of the slot. -/
theorem slotEndUs_add_guardUs
    (atLeastTwo : 2 ≤ numNodes)
    (placed : slot.WellPlaced numNodes)
    (nowUs : Nat) :
    slotEndUs numNodes slot nowUs + guardUs =
      slotBeginUs numNodes slot nowUs + 50 * 1000 := by
  have begins := placed.begins
  have ends := placed.ends
  rw [slotWidthMs_eq (by omega)] at ends
  rw [roundPeriodMs_eq] at begins ends
  have limit :
      (if slot.endMs > slot.beginMs then
        frameStart (roundUs numNodes) nowUs + slot.endMs * 1000
      else
        frameStart (roundUs numNodes) nowUs + roundUs numNodes +
          slot.endMs * 1000) =
        slotBeginUs numNodes slot nowUs + 50 * 1000 := by
    unfold slotBeginUs
    rw [roundUs_eq]
    rcases Nat.lt_or_ge (slot.beginMs + 50) (numNodes * 50) with
      inFrame | crosses
    · rw [Nat.mod_eq_of_lt inFrame] at ends
      rw [if_pos (by omega)]
      omega
    · rw [Nat.mod_eq_sub_mod crosses, Nat.mod_eq_of_lt (by omega)] at ends
      rw [if_neg (by omega)]
      omega
  have pastGuard :
      guardUs ≤ slotBeginUs numNodes slot nowUs + 50 * 1000 := by
    unfold guardUs
    omega
  unfold slotEndUs
  dsimp only
  rw [limit, if_pos (by unfold guardUs; omega),
    Nat.sub_add_cancel pastGuard]

/-- A transmission in the slot of its frame ends its pass as `heldUs` says. -/
theorem passEndUs_eq_heldUs
    (atLeastTwo : 2 ≤ numNodes)
    (placed : slot.WellPlaced numNodes)
    {pass : LoopPass}
    (ordered : pass.nowUs ≤ pass.finishedUs)
    (begun : slotBeginUs numNodes slot pass.nowUs ≤ pass.nowUs) :
    passEndUs numNodes slot pass = pass.heldUs numNodes slot := by
  simp only [passEndUs, LoopPass.heldUs, slotDurationUs,
    slotEndUs_add_guardUs atLeastTwo placed,
    slotWidthMs_eq (by omega : 0 < numNodes)]
  by_cases atBegin :
      pass.finishedUs = slotBeginUs numNodes slot pass.nowUs
  · -- Then the sleep would be `SLOT_DURATION_US`, which is not made.
    rw [if_pos atBegin, if_neg (by omega)]
  · rw [if_neg atBegin]
    rcases Nat.lt_or_ge pass.finishedUs
        (slotBeginUs numNodes slot pass.nowUs + 50 * 1000) with
      before | past
    · rw [if_pos ⟨before, by omega⟩, max_eq_right before.le]
    · rw [if_neg (by omega), max_eq_left past]

/-- No pass ends before its transmission. -/
theorem finishedUs_le_passEndUs
    (numNodes : Nat)
    (slot : SlotLimits)
    (pass : LoopPass) :
    pass.finishedUs ≤ passEndUs numNodes slot pass := by
  simp only [passEndUs]
  split
  · rename_i sleeps
    exact sleeps.1.le
  · exact le_rfl

/-! ## The next beacon -/

/--
In the frame after a transmission the shifted slot is open in the occurrence
of the transmission, shifted, and in the one that begins a frame later.
-/
theorem syncInSlot_shiftSlot_iff
    (atLeastTwo : 2 ≤ numNodes)
    (placed : slot.WellPlaced numNodes)
    {deltaMs nowUs laterUs : Nat}
    (small : deltaMs ≤ 5)
    (nextFrame :
      frameStart (roundUs numNodes) laterUs =
        frameStart (roundUs numNodes) nowUs + roundUs numNodes) :
    syncInSlot numNodes (shiftSlot numNodes slot deltaMs) laterUs = true ↔
      (slotBeginUs numNodes slot nowUs + deltaMs * 1000 ≤ laterUs ∧
          laterUs <
            slotBeginUs numNodes slot nowUs + (deltaMs + 50) * 1000) ∨
        (slotBeginUs numNodes slot nowUs + roundUs numNodes +
              deltaMs * 1000 ≤ laterUs ∧
          laterUs <
            slotBeginUs numNodes slot nowUs + roundUs numNodes +
              (deltaMs + 50) * 1000) := by
  have begins := placed.begins
  have shiftedBegin :=
    shiftSlot_beginMs placed
      (show deltaMs ≤ roundPeriodMs numNodes by
        rw [roundPeriodMs_eq]
        omega)
  have starts := frameStart_le (roundUs numNodes) laterUs
  have ends :=
    lt_frameStart_add (roundUs_pos (by omega : 0 < numNodes)) laterUs
  rw [syncInSlot_iff atLeastTwo
    (wellPlaced_shiftSlot (by omega) slot deltaMs)]
  unfold slotBeginUs
  rw [nextFrame] at starts ends ⊢
  rw [roundPeriodMs_eq] at begins shiftedBegin
  rw [roundUs_eq] at starts ends ⊢
  omega

/-- After a transmission that keeps to its slot the gate opens late enough. -/
theorem KeepsToSlot.next_distant
    {pass : LoopPass}
    (keeps : KeepsToSlot numNodes slot pass)
    (atLeastTwo : 2 ≤ numNodes)
    (placed : slot.WellPlaced numNodes)
    (inSlot : syncInSlot numNodes slot pass.nowUs = true)
    (ordered : pass.nowUs ≤ pass.finishedUs)
    {laterUs : Nat}
    (resumed : passEndUs numNodes slot pass ≤ laterUs)
    (inShifted :
      syncInSlot numNodes
        (shiftSlot numNodes slot (pass.deltaMs numNodes)) laterUs = true)
    (otherRound :
      pass.nowUs / roundUs numNodes ≠ laterUs / roundUs numNodes) :
    pass.nowUs + beaconDistanceUs numNodes ≤ laterUs := by
  have finished := finishedUs_le_passEndUs numNodes slot pass
  have ended :=
    lt_frameStart_add (roundUs_pos (by omega : 0 < numNodes)) pass.nowUs
  have splits := frameStart_add_mod (roundUs numNodes) pass.nowUs
  have starts := frameStart_le (roundUs numNodes) laterUs
  have distance :=
    beaconDistanceUs_add (by omega : 0 < numNodes)
  rcases frameStart_of_ne (by omega) otherRound with nextFrame | further
  · by_cases early : pass.nowUs % roundUs numNodes ≤ 50 * 1000
    · omega
    · -- The transmission is in the slot that begins in its own frame.
      obtain ⟨begun, beforeEnd⟩ :=
        slotBeginUs_le_of_syncInSlot atLeastTwo placed inSlot (by omega)
      rw [passEndUs_eq_heldUs atLeastTwo placed ordered begun] at resumed
      have delta : pass.deltaMs numNodes ≤ 5 :=
        syncDelta_le (by omega) _ _
      rcases (syncInSlot_shiftSlot_iff atLeastTwo placed delta
          nextFrame).mp inShifted with
        ⟨_, sameOccurrence⟩ | ⟨nextOccurrence, _⟩
      · unfold KeepsToSlot at keeps
        rw [slotWidthMs_eq (by omega)] at keeps
        rcases keeps with first | inFrame | kept | passed
        · exact absurd first early
        · -- The shifted slot is over when the next frame starts.
          have period :
              roundUs numNodes = roundPeriodMs numNodes * 1000 := rfl
          unfold slotBeginUs at sameOccurrence
          omega
        · omega
        · omega
      · omega
  · omega

/-! ## Whole runs -/

/--
The invariant: the beacons so far keep their distance, and so will the next
one, whenever the gate opens.
-/
structure GateState.KeepsDistance
    (state : GateState)
    (numNodes : Nat) : Prop where
  placed : state.slot.WellPlaced numNodes
  spaced : Spaced (beaconDistanceUs numNodes) state.beaconsUs
  next :
    ∀ last ∈ state.beaconsUs.getLast?,
      ∀ laterUs,
        state.resumeUs ≤ laterUs →
        gateOpens numNodes state laterUs = true →
        last + beaconDistanceUs numNodes ≤ laterUs

theorem keepsDistance_gateStart
    (valid : ValidArguments numNodes slotId) :
    (gateStart numNodes slotId).KeepsDistance numNodes where
  placed := wellPlaced_syncInit valid
  spaced := spaced_nil _
  next := by
    intro last isLast
    simp [gateStart] at isLast

theorem gateOpens_iff
    {state : GateState}
    {nowUs : Nat} :
    gateOpens numNodes state nowUs = true ↔
      syncInSlot numNodes state.slot nowUs = true ∧
        state.lastTxRound ≠ some (nowUs / roundUs numNodes) := by
  simp [gateOpens]

/-- A transmission shifts the slot by the pass's shift. -/
theorem slot_transmit
    (positive : 0 < numNodes)
    {state : GateState}
    (placed : state.slot.WellPlaced numNodes)
    (pass : LoopPass) :
    (transmit numNodes slotId state pass).slot =
      shiftSlot numNodes state.slot (pass.deltaMs numNodes) :=
  syncAdjustSlot_eq_shiftSlot positive placed _ _

/-- Every pass leaves the slot well placed. -/
theorem wellPlaced_loopPass
    (positive : 0 < numNodes)
    {state : GateState}
    (placed : state.slot.WellPlaced numNodes)
    (pass : LoopPass) :
    (loopPass numNodes slotId state pass).slot.WellPlaced numNodes := by
  unfold loopPass
  split
  · rw [slot_transmit positive placed]
    exact wellPlaced_shiftSlot positive _ _
  · exact placed

namespace GateState.KeepsDistance

variable {state : GateState}
variable {pass : LoopPass}

/-- A pass that does not transmit only waits. -/
theorem wait
    (keeps : state.KeepsDistance numNodes)
    (resumes : state.resumeUs ≤ pass.nowUs) :
    { state with resumeUs := pass.nowUs + pollUs }.KeepsDistance
      numNodes where
  placed := keeps.placed
  spaced := keeps.spaced
  next := by
    intro last isLast laterUs resumed opens
    refine keeps.next last isLast laterUs ?_ opens
    dsimp only at resumed
    omega

/-- A guarded transmission keeps the distance to the beacon before and after. -/
theorem transmit
    (keeps : state.KeepsDistance numNodes)
    (atLeastTwo : 2 ≤ numNodes)
    (allowed : GuardedPass numNodes state pass)
    (opens : gateOpens numNodes state pass.nowUs = true) :
    (transmit numNodes slotId state pass).KeepsDistance numNodes := by
  obtain ⟨⟨resumes, ordered⟩, keepsToSlot⟩ := allowed
  have positive : 0 < numNodes := by
    omega
  have shifted :
      (RoutingMesh.transmit numNodes slotId state pass).slot =
        shiftSlot numNodes state.slot (pass.deltaMs numNodes) :=
    slot_transmit positive keeps.placed pass
  have placed :
      (RoutingMesh.transmit numNodes slotId state pass).slot.WellPlaced
        numNodes := by
    rw [shifted]
    exact wellPlaced_shiftSlot positive _ _
  have beforeThis := fun last isLast =>
    keeps.next last isLast pass.nowUs resumes opens
  have finished := finishedUs_le_passEndUs numNodes state.slot pass
  cases serialized : pass.serialized with
  | true =>
      have appended :
          (RoutingMesh.transmit numNodes slotId state pass).beaconsUs =
            state.beaconsUs ++ [pass.nowUs] :=
        if_pos serialized
      refine ⟨placed, ?_, ?_⟩
      · rw [appended]
        exact spaced_append_singleton.mpr ⟨keeps.spaced, beforeThis⟩
      · intro last isLast laterUs resumed opensLater
        obtain rfl : last = pass.nowUs := by
          rw [appended] at isLast
          simpa using isLast.symm
        obtain ⟨inShifted, otherRound⟩ := gateOpens_iff.mp opensLater
        rw [shifted] at inShifted
        exact (keepsToSlot opens serialized).next_distant atLeastTwo
          keeps.placed (gateOpens_iff.mp opens).1 ordered resumed inShifted
          (fun sameRound => otherRound (congrArg some sameRound))
  | false =>
      have unchanged :
          (RoutingMesh.transmit numNodes slotId state pass).beaconsUs =
            state.beaconsUs :=
        if_neg (by simp [serialized])
      refine ⟨placed, ?_, ?_⟩
      · rw [unchanged]
        exact keeps.spaced
      · -- This pass already starts at the distance, and the next one later.
        intro last isLast laterUs resumed _
        rw [unchanged] at isLast
        have distant := beforeThis last isLast
        have held : passEndUs numNodes state.slot pass ≤ laterUs := resumed
        omega

/-- Every guarded pass keeps the invariant. -/
theorem step
    (keeps : state.KeepsDistance numNodes)
    (atLeastTwo : 2 ≤ numNodes)
    (allowed : GuardedPass numNodes state pass) :
    (loopPass numNodes slotId state pass).KeepsDistance numNodes := by
  unfold loopPass
  split
  · rename_i opens
    exact keeps.transmit atLeastTwo allowed opens
  · exact keeps.wait allowed.1.1

end GateState.KeepsDistance

/--
In every run whose beacons are sent by transmissions that keep to their slot,
consecutive beacons start at least a frame without one slot apart.
-/
theorem beacons_keep_distance
    (valid : ValidArguments numNodes slotId)
    {state : GateState}
    (reachable :
      StepRun.Reachable (loopPass numNodes slotId) (GuardedPass numNodes)
        (gateStart numNodes slotId) state) :
    Spaced (beaconDistanceUs numNodes) state.beaconsUs :=
  (reachable.invariant (fun state : GateState => state.KeepsDistance numNodes)
    (keepsDistance_gateStart valid)
    (fun keeps allowed => keeps.step valid.atLeastTwo allowed)).spaced

/-- A node transmits, waits for the rest of its slot, and transmits again. -/
def transmitsOncePerSlot : List LoopPass :=
  [{ nowUs := 1740000000060000, finishedUs := 1740000000061000,
     serialized := true, largestMeanDelay := 7, random := 100 },
   { nowUs := 1740000000100000, finishedUs := 1740000000100000,
     serialized := true, largestMeanDelay := 0, random := 0 },
   { nowUs := 1740000000207000, finishedUs := 1740000000209000,
     serialized := true, largestMeanDelay := 0, random := 0 }]

/-- Node 2 of 3 then keeps the distance, although its slot moves by 5 ms. -/
theorem beacons_keep_distance_transmitsOncePerSlot :
    Spaced (beaconDistanceUs 3)
      (transmitsOncePerSlot.foldl (loopPass 3 2)
        (gateStart 3 2)).beaconsUs :=
  beacons_keep_distance
    ⟨by decide, by decide, by decide, by decide⟩
    ⟨transmitsOncePerSlot, StepRun.Run.of_checkRun (by decide +kernel)⟩

/-- The last slot of the frame moves over the frame boundary. -/
def slotCrossesBoundary : List LoopPass :=
  [{ nowUs := 1740000000120000, finishedUs := 1740000000121000,
     serialized := true, largestMeanDelay := 7, random := 100 },
   { nowUs := 1740000000150000, finishedUs := 1740000000151000,
     serialized := true, largestMeanDelay := 0, random := 0 }]

/-- Node 3 of 3 then sends two beacons in its slot, 30 ms apart. -/
theorem beacons_too_close_slotCrossesBoundary :
    ¬ ∀ state,
      StepRun.Reachable (loopPass 3 3) LoopEnabled (gateStart 3 3) state →
      Spaced (beaconDistanceUs 3) state.beaconsUs := by
  intro always
  have spaced :=
    always (slotCrossesBoundary.foldl (loopPass 3 3) (gateStart 3 3))
      ⟨slotCrossesBoundary, StepRun.Run.of_checkRun (by decide +kernel)⟩
  revert spaced
  decide +kernel

/-! ## The condition is exact -/

/-- The slot is well placed in every run, guarded or not. -/
theorem wellPlaced_of_reachable
    (valid : ValidArguments numNodes slotId)
    {state : GateState}
    (reachable :
      StepRun.Reachable (loopPass numNodes slotId) LoopEnabled
        (gateStart numNodes slotId) state) :
    state.slot.WellPlaced numNodes := by
  have positive : 0 < numNodes := by
    have atLeastTwo := valid.atLeastTwo
    omega
  exact reachable.invariant
    (fun state : GateState => state.slot.WellPlaced numNodes)
    (wellPlaced_syncInit valid)
    (fun placed _ => wellPlaced_loopPass positive placed _)

/--
A transmission that does not keep to its slot leaves a time, too early for the
next beacon, at which the thread may run in the shifted slot and in another
round.
-/
theorem exists_early_of_not_keepsToSlot
    (atLeastTwo : 2 ≤ numNodes)
    (placed : slot.WellPlaced numNodes)
    {pass : LoopPass}
    (inSlot : syncInSlot numNodes slot pass.nowUs = true)
    (ordered : pass.nowUs ≤ pass.finishedUs)
    (leavesSlot : ¬ KeepsToSlot numNodes slot pass) :
    ∃ laterUs,
      passEndUs numNodes slot pass ≤ laterUs ∧
        syncInSlot numNodes
            (shiftSlot numNodes slot (pass.deltaMs numNodes)) laterUs =
          true ∧
        pass.nowUs / roundUs numNodes ≠ laterUs / roundUs numNodes ∧
        laterUs < pass.nowUs + beaconDistanceUs numNodes := by
  unfold KeepsToSlot at leavesSlot
  rw [slotWidthMs_eq (by omega)] at leavesSlot
  push Not at leavesSlot
  obtain ⟨late, leavesFrame, notKept, notPassed⟩ := leavesSlot
  have begins := placed.begins
  have period : roundUs numNodes = roundPeriodMs numNodes * 1000 := rfl
  have twoSlots : 100 ≤ roundPeriodMs numNodes := by
    rw [roundPeriodMs_eq]
    omega
  have distance :=
    beaconDistanceUs_add (by omega : 0 < numNodes)
  have splits := frameStart_add_mod (roundUs numNodes) pass.nowUs
  have delta : pass.deltaMs numNodes ≤ 5 :=
    syncDelta_le (by omega) _ _
  obtain ⟨begun, beforeEnd⟩ :=
    slotBeginUs_le_of_syncInSlot atLeastTwo placed inSlot late
  rw [passEndUs_eq_heldUs atLeastTwo placed ordered begun]
  have slotBegin :
      slotBeginUs numNodes slot pass.nowUs =
        frameStart (roundUs numNodes) pass.nowUs + slot.beginMs * 1000 :=
    rfl
  -- The first time in the next frame at which the shifted slot is open.
  obtain ⟨laterUs, isLater⟩ :
      ∃ laterUs,
        laterUs =
          max (pass.heldUs numNodes slot)
            (max (frameStart (roundUs numNodes) pass.nowUs +
                roundUs numNodes)
              (slotBeginUs numNodes slot pass.nowUs +
                pass.deltaMs numNodes * 1000)) :=
    ⟨_, rfl⟩
  have nextFrame :
      frameStart (roundUs numNodes) laterUs =
        frameStart (roundUs numNodes) pass.nowUs + roundUs numNodes :=
    frameStart_of_next (by omega) (by omega)
  refine ⟨laterUs, by omega, ?_, ?_, by omega⟩
  · exact (syncInSlot_shiftSlot_iff atLeastTwo placed delta nextFrame).mpr
      (.inl ⟨by omega, by omega⟩)
  · intro sameRound
    rw [frameStart_eq_mul, frameStart_eq_mul, ← sameRound] at nextFrame
    omega

/--
After a transmission that does not keep to its slot, from any reachable state,
the gate may open too early: a pass that starts then sends a second beacon
before the distance has passed.
-/
theorem transmission_repeats_of_not_keepsToSlot
    (valid : ValidArguments numNodes slotId)
    {state : GateState}
    (reachable :
      StepRun.Reachable (loopPass numNodes slotId) LoopEnabled
        (gateStart numNodes slotId) state)
    {pass : LoopPass}
    (allowed : LoopEnabled state pass)
    (opens : gateOpens numNodes state pass.nowUs = true)
    (leavesSlot : ¬ KeepsToSlot numNodes state.slot pass) :
    ∃ next,
      LoopEnabled (loopPass numNodes slotId state pass) next ∧
        gateOpens numNodes (loopPass numNodes slotId state pass)
            next.nowUs = true ∧
        next.nowUs < pass.nowUs + beaconDistanceUs numNodes := by
  have atLeastTwo := valid.atLeastTwo
  have placed := wellPlaced_of_reachable valid reachable
  obtain ⟨laterUs, resumes, inShifted, otherRound, early⟩ :=
    exists_early_of_not_keepsToSlot atLeastTwo placed
      (gateOpens_iff.mp opens).1 allowed.2 leavesSlot
  have transmits :
      loopPass numNodes slotId state pass =
        transmit numNodes slotId state pass :=
    if_pos opens
  rw [transmits]
  refine
    ⟨{ nowUs := laterUs
       finishedUs := laterUs
       serialized := true
       largestMeanDelay := 0
       random := 0 },
      ⟨resumes, le_rfl⟩, ?_, early⟩
  refine gateOpens_iff.mpr ⟨?_, ?_⟩
  · rw [slot_transmit (by omega) placed]
    exact inShifted
  · exact fun sameRound => otherRound (Option.some.inj sameRound)

end RoutingMesh
