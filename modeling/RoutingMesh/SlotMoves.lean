import RoutingMesh.SlotSync

/-!
# How the slot moves

Runs of `sync_record_delay` and `sync_adjust_slot` at one node, whatever the
packets say.  The slot stays in the frame, so its reset is never reached; it
rests inside the dead band and otherwise moves forward by at most a tenth of
its width; and the test of the slot is right where the slot crosses the frame
boundary, too.
-/

namespace RoutingMesh

open FrameClock PeriodicTime

/--
A call of `sync_record_delay`, at a reading of the clock and with the header
fields of a packet, or of `sync_adjust_slot`, with the value of `rand`.
-/
inductive SyncCall where
  | recordDelay
      (clockMs : ℚ)
      (sender : Nat)
      (timestampS : ℚ)
      (beginMs : Nat)
  | adjustSlot (random : Nat)

/-- What `sync_init` leaves. -/
def syncInitState (slotId numNodes : Nat) : SyncState where
  slot := syncInit slotId numNodes
  delays := []
  stableRounds := 0

/-- One call. -/
def syncCall
    (numNodes slotId : Nat)
    (node : SyncState) : SyncCall → SyncState
  | .recordDelay clockMs sender timestampS beginMs =>
      node.recordDelay
        { sender := sender
          delayMs :=
            computeDelay numNodes slotId node.slot clockMs sender timestampS
              beginMs }
  | .adjustSlot random => node.adjustSlot numNodes slotId random

/-- No node that was heard is late on average, counted in whole milliseconds. -/
def WithinDeadband (delays : List RecordedDelay) : Prop :=
  ∀ sender, 1 ≤ sender → sender ≤ maxNodes →
    delaysOf sender delays ≠ [] →
    truncate (computeMean (delaysOf sender delays)) ≤ syncDeadbandMs

/-- A slot that begins later, by at least 1 ms and at most a tenth of the width. -/
def Advances (numNodes : Nat) (slot next : SlotLimits) : Prop :=
  ∃ deltaMs,
    1 ≤ deltaMs ∧ deltaMs * 10 ≤ slotWidthMs numNodes ∧
      next.beginMs = (slot.beginMs + deltaMs) % roundPeriodMs numNodes

/-- The test after `shiftSlot` that resets the slot. -/
def OutOfBounds (numNodes : Nat) (slot : SlotLimits) : Prop :=
  slot.beginMs > roundPeriodMs numNodes ∨ slot.endMs > roundPeriodMs numNodes

section

variable {numNodes slotId : Nat}
variable {slot : SlotLimits}
variable {node : SyncState}

theorem withinDeadband_iff {delays : List RecordedDelay} :
    WithinDeadband delays ↔ largestMeanDelay delays ≤ syncDeadbandMs :=
  (largestMeanDelay_le_iff (by decide)).symm

theorem SlotLimits.WellPlaced.endMs_lt
    (positive : 0 < numNodes)
    (placed : slot.WellPlaced numNodes) :
    slot.endMs < roundPeriodMs numNodes := by
  rw [placed.ends]
  refine Nat.mod_lt _ ?_
  rw [roundPeriodMs_eq]
  omega

theorem SlotLimits.WellPlaced.not_outOfBounds
    (positive : 0 < numNodes)
    (placed : slot.WellPlaced numNodes) :
    ¬ OutOfBounds numNodes slot := by
  have begins := placed.begins
  have ends := placed.endMs_lt positive
  unfold OutOfBounds
  omega

/-- The fields hold the limits without wrapping around. -/
theorem roundPeriodMs_lt
    (valid : ValidArguments numNodes slotId) :
    roundPeriodMs numNodes < 2 ^ 16 := by
  have atMostMax := valid.atMostMax
  unfold maxNodes at atMostMax
  rw [roundPeriodMs_eq]
  omega

/-- Above the dead band the shift is at least 1 ms. -/
theorem one_le_syncDelta
    (positive : 0 < numNodes)
    {largestMeanDelay : Nat}
    (above : syncDeadbandMs < largestMeanDelay)
    (random : Nat) :
    1 ≤ syncDelta numNodes largestMeanDelay random := by
  unfold syncDeadbandMs at above
  unfold syncDelta
  rw [if_neg (by unfold syncDeadbandMs; omega), slotWidthMs_eq positive]
  have limited : min largestMeanDelay (max 1 (50 / 10)) = 5 := by
    omega
  dsimp only
  rw [limited]
  omega

/-- A slot of the network is shifted to another one. -/
theorem advances_shiftSlot
    (slot : SlotLimits)
    {deltaMs : Nat}
    (some : 1 ≤ deltaMs)
    (small : deltaMs * 10 ≤ slotWidthMs numNodes) :
    Advances numNodes slot (shiftSlot numNodes slot deltaMs) := by
  refine ⟨deltaMs, some, small, ?_⟩
  simp only [shiftSlot, Nat.add_mod_right]

theorem Advances.ne
    (atLeastTwo : 2 ≤ numNodes)
    (placed : slot.WellPlaced numNodes)
    {next : SlotLimits}
    (advances : Advances numNodes slot next) :
    next ≠ slot := by
  obtain ⟨deltaMs, some, small, later⟩ := advances
  have begins := placed.begins
  rw [slotWidthMs_eq (by omega)] at small
  rw [roundPeriodMs_eq] at begins later
  intro same
  rw [same] at later
  rcases Nat.lt_or_ge (slot.beginMs + deltaMs) (numNodes * 50) with
    within | past
  · rw [Nat.mod_eq_of_lt within] at later
    omega
  · rw [Nat.mod_eq_sub_mod past, Nat.mod_eq_of_lt (by omega)] at later
    omega

/-- What an adjustment does to the slot. -/
theorem slot_adjustSlot
    (positive : 0 < numNodes)
    (placed : node.slot.WellPlaced numNodes)
    (random : Nat) :
    (node.adjustSlot numNodes slotId random).slot =
      if node.delays = [] ∨ largestMeanDelay node.delays ≤ syncDeadbandMs then
        node.slot
      else
        shiftSlot numNodes node.slot
          (syncDelta numNodes (largestMeanDelay node.delays).toNat random) := by
  unfold SyncState.adjustSlot
  by_cases none : node.delays = []
  · rw [if_pos none, if_pos (.inl none)]
  · by_cases inBand : largestMeanDelay node.delays ≤ syncDeadbandMs
    · rw [if_neg none, if_pos inBand, if_pos (.inr inBand)]
    · rw [if_neg none, if_neg inBand,
        if_neg fun quiet => quiet.elim none inBand]
      exact syncAdjustSlot_eq_shiftSlot positive placed _ random

/-- Outside the dead band an adjustment moves the slot forward. -/
theorem advances_adjustSlot
    (positive : 0 < numNodes)
    (placed : node.slot.WellPlaced numNodes)
    (heard : node.delays ≠ [])
    (late : ¬ WithinDeadband node.delays)
    (slotId random : Nat) :
    Advances numNodes node.slot
      (node.adjustSlot numNodes slotId random).slot := by
  rw [withinDeadband_iff] at late
  have above : syncDeadbandMs < (largestMeanDelay node.delays).toNat := by
    omega
  have small :=
    syncDelta_le positive (largestMeanDelay node.delays).toNat random
  rw [slot_adjustSlot positive placed,
    if_neg fun quiet => quiet.elim heard late]
  refine advances_shiftSlot node.slot (one_le_syncDelta positive above random) ?_
  rw [slotWidthMs_eq positive]
  omega

/-- Every call keeps the slot in the frame. -/
theorem wellPlaced_syncCall
    (positive : 0 < numNodes)
    (placed : node.slot.WellPlaced numNodes)
    (call : SyncCall) :
    (syncCall numNodes slotId node call).slot.WellPlaced numNodes := by
  cases call with
  | recordDelay clockMs sender timestampS beginMs =>
      exact placed
  | adjustSlot random =>
      rw [syncCall, slot_adjustSlot positive placed]
      split
      · exact placed
      · exact wellPlaced_shiftSlot positive node.slot _

/-- In milliseconds: the slot is open for its width from its begin on. -/
theorem syncInSlot_iff_ms
    (atLeastTwo : 2 ≤ numNodes)
    (placed : slot.WellPlaced numNodes)
    (nowUs : Nat) :
    syncInSlot numNodes slot nowUs = true ↔
      (nowUs % roundUs numNodes / 1000 + roundPeriodMs numNodes -
          slot.beginMs) % roundPeriodMs numNodes <
        slotWidthMs numNodes := by
  have offset : nowUs % roundUs numNodes / 1000 < roundPeriodMs numNodes := by
    have inFrame := Nat.mod_lt nowUs (roundUs_pos (by omega : 0 < numNodes))
    unfold roundUs at inFrame ⊢
    omega
  have elapsed := mod_sub_of_lt offset placed.begins
  have begins := placed.begins
  have ends := placed.ends
  rw [slotWidthMs_eq (by omega)] at ends ⊢
  unfold syncInSlot
  dsimp only
  generalize nowUs % roundUs numNodes / 1000 = tMs at offset elapsed ⊢
  rw [roundPeriodMs_eq] at offset begins ends elapsed ⊢
  rcases Nat.lt_or_ge (slot.beginMs + 50) (numNodes * 50) with
    inFrame | crosses
  · rw [Nat.mod_eq_of_lt inFrame] at ends
    rw [if_pos (by omega), decide_eq_true_iff]
    omega
  · rw [Nat.mod_eq_sub_mod crosses, Nat.mod_eq_of_lt (by omega)] at ends
    rw [if_neg (by omega), decide_eq_true_iff]
    omega

/-- In microseconds, as well. -/
theorem syncInSlot_iff_us
    (atLeastTwo : 2 ≤ numNodes)
    (placed : slot.WellPlaced numNodes)
    (nowUs : Nat) :
    syncInSlot numNodes slot nowUs = true ↔
      (nowUs % roundUs numNodes + roundUs numNodes - slot.beginMs * 1000) %
          roundUs numNodes <
        slotWidthMs numNodes * 1000 := by
  have offset := Nat.mod_lt nowUs (roundUs_pos (by omega : 0 < numNodes))
  have begins : slot.beginMs * 1000 < roundUs numNodes := by
    have begins := placed.begins
    unfold roundUs
    omega
  have elapsed := mod_sub_of_lt offset begins
  have splits := frameStart_add_mod (roundUs numNodes) nowUs
  rw [syncInSlot_iff atLeastTwo placed, slotBeginUs,
    slotWidthMs_eq (by omega)]
  omega

end

/--
For every network, every node and every run of recorded delays and
adjustments, with any header fields, senders, times and random draws: the slot
begins in the frame and ends a width later, no shift of it reaches the reset,
and its limits fit in their fields.  An adjustment leaves the slot as it is
exactly when nothing was recorded or everybody is inside the dead band, and
otherwise moves it forward.  The slot is open exactly for its width.
-/
theorem slot_staysWellPlaced
    {numNodes slotId : Nat}
    (valid : ValidArguments numNodes slotId)
    {calls : List SyncCall}
    {node : SyncState}
    (run :
      StepRun.Run (syncCall numNodes slotId) (fun _ _ => True)
        (syncInitState slotId numNodes) calls node) :
    node.slot.WellPlaced numNodes ∧
      (node.slot.beginMs < 2 ^ 16 ∧ node.slot.endMs < 2 ^ 16) ∧
      (∀ deltaMs,
        ¬ OutOfBounds numNodes (shiftSlot numNodes node.slot deltaMs)) ∧
      (∀ random,
        ((node.adjustSlot numNodes slotId random).slot = node.slot ↔
          node.delays = [] ∨ WithinDeadband node.delays) ∧
        ((node.adjustSlot numNodes slotId random).slot = node.slot ∨
          Advances numNodes node.slot
            (node.adjustSlot numNodes slotId random).slot)) ∧
      ∀ nowUs,
        (syncInSlot numNodes node.slot nowUs = true ↔
          (nowUs % roundUs numNodes / 1000 + roundPeriodMs numNodes -
              node.slot.beginMs) % roundPeriodMs numNodes <
            slotWidthMs numNodes) ∧
        (syncInSlot numNodes node.slot nowUs = true ↔
          (nowUs % roundUs numNodes + roundUs numNodes -
              node.slot.beginMs * 1000) % roundUs numNodes <
            slotWidthMs numNodes * 1000) := by
  have atLeastTwo := valid.atLeastTwo
  have positive : 0 < numNodes := by omega
  have placed : node.slot.WellPlaced numNodes :=
    run.invariant (fun node => node.slot.WellPlaced numNodes)
      (wellPlaced_syncInit valid)
      (fun {_ call} placed _ => wellPlaced_syncCall positive placed call)
  have fits := roundPeriodMs_lt valid
  refine ⟨placed, ⟨placed.begins.trans fits,
    (placed.endMs_lt positive).trans fits⟩, ?_, ?_, ?_⟩
  · intro deltaMs
    exact (wellPlaced_shiftSlot positive node.slot deltaMs).not_outOfBounds
      positive
  · intro random
    by_cases quiet : node.delays = [] ∨ WithinDeadband node.delays
    · have rests :
          (node.adjustSlot numNodes slotId random).slot = node.slot := by
        rw [slot_adjustSlot positive placed,
          if_pos (quiet.imp_right withinDeadband_iff.mp)]
      exact ⟨iff_of_true rests quiet, .inl rests⟩
    · obtain ⟨heard, late⟩ := not_or.mp quiet
      have advances :=
        advances_adjustSlot positive placed heard late slotId random
      exact ⟨iff_of_false (advances.ne atLeastTwo placed) quiet,
        .inr advances⟩
  · intro nowUs
    exact ⟨syncInSlot_iff_ms atLeastTwo placed nowUs,
      syncInSlot_iff_us atLeastTwo placed nowUs⟩

/-- Node 2 of two hears node 1 late, twice over, and shifts by 5 ms each time. -/
def hearsFirstLate : List SyncCall :=
  [.recordDelay 1020 1 1 0, .adjustSlot 100, .recordDelay 1020 1 1 0,
    .adjustSlot 100]

/-- Its slot then crosses the frame boundary and is open on both sides of it. -/
theorem slot_staysWellPlaced_hearsFirstLate :
    let node :=
      hearsFirstLate.foldl (syncCall 2 2) (syncInitState 2 2)
    node.slot = { beginMs := 60, endMs := 10 } ∧
      node.slot.WellPlaced 2 ∧
      syncInSlot 2 node.slot 109000 = true := by
  have slotIs :
      (hearsFirstLate.foldl (syncCall 2 2) (syncInitState 2 2)).slot =
        { beginMs := 60, endMs := 10 } := by
    decide +kernel
  have valid : ValidArguments 2 2 :=
    ⟨by decide, by decide, by decide, by decide⟩
  have run :
      StepRun.Run (syncCall 2 2) (fun _ _ => True) (syncInitState 2 2)
        hearsFirstLate
        (hearsFirstLate.foldl (syncCall 2 2) (syncInitState 2 2)) :=
    StepRun.Run.of_checkRun (by decide +kernel)
  obtain ⟨placed, _, _, _, isOpen⟩ := slot_staysWellPlaced valid run
  refine ⟨slotIs, placed, (isOpen 109000).1.mpr ?_⟩
  rw [slotIs]
  decide

end RoutingMesh
