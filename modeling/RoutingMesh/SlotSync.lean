import Mathlib.Algebra.BigOperators.Group.List.Basic
import Mathlib.Tactic.IntervalCases
import Mathlib.Tactic.NormNum
import RoutingMesh.PhaseError

/-!
# Slots that are aligned stay put

Model of `compute_delay`, `sync_record_delay` and `sync_adjust_slot` on exact
times, and of nodes that exchange beacons.  When the slots follow each other
in true time, a delay is the time that the beacon took, and nothing below the
dead band moves a slot.
-/

namespace RoutingMesh

open AddCommGroup PeriodicTime

/-- `PKTDELAY_ARRAY_SIZE`. -/
def pktDelayArraySize : Nat := 64

/-- `SYNC_STABLE_ROUNDS`. -/
def syncStableRounds : Nat := 8

/-- Where `g_stable_rounds` stops. -/
def stableRoundsCap : Nat := 1000000

/-- An entry of `g_delay_array` and `g_delay_sender`. -/
structure RecordedDelay where
  sender : Nat
  delayMs : ℚ

/-- What `sync.c` keeps at one node. -/
structure SyncState where
  slot : SlotLimits
  delays : List RecordedDelay
  stableRounds : Nat

/-- What `sync_init` is called with at a node of the network. -/
def networkSettings (numNodes slotId : Nat) : SyncSettings where
  slotId := slotId
  numNodes := numNodes
  roundPeriodMs := roundPeriodMs numNodes

/-- `compute_delay` at a node of the network, at a reading of the clock. -/
def computeDelay
    (numNodes slotId : Nat)
    (slot : SlotLimits)
    (clockMs : ℚ)
    (sender : Nat)
    (timestampS : ℚ)
    (beginMs : Nat) : ℚ :=
  (networkSettings numNodes slotId).computeDelay slot clockMs sender
    timestampS beginMs

/-- `sync_record_delay`, for a delay: a full array drops it. -/
def SyncState.recordDelay
    (node : SyncState)
    (entry : RecordedDelay) : SyncState :=
  { node with
    delays :=
      if node.delays.length < pktDelayArraySize then
        node.delays ++ [entry]
      else
        node.delays }

/-- `computeMean`. -/
def computeMean (values : List ℚ) : ℚ :=
  if values.length = 0 then 0 else values.sum / values.length

/-- The delays of one sender. -/
def delaysOf (sender : Nat) (delays : List RecordedDelay) : List ℚ :=
  (delays.filter fun entry => entry.sender == sender).map
    RecordedDelay.delayMs

/-- The `delta` of `sync_adjust_slot` before the dead band. -/
def largestMeanDelay (delays : List RecordedDelay) : ℤ :=
  (List.range maxNodes).foldl
    (fun delta nj =>
      let mean := truncate (computeMean (delaysOf (nj + 1) delays))
      if delaysOf (nj + 1) delays ≠ [] ∧ mean > delta then mean else delta)
    0

/-- A round inside the dead band. -/
def countRound (stableRounds : Nat) : Nat :=
  if stableRounds < stableRoundsCap then stableRounds + 1 else stableRounds

/-- `sync_adjust_slot`. -/
def SyncState.adjustSlot
    (numNodes slotId : Nat)
    (node : SyncState)
    (random : Nat) : SyncState :=
  if node.delays = [] then
    node
  else if largestMeanDelay node.delays ≤ syncDeadbandMs then
    { node with
      delays := []
      stableRounds := countRound node.stableRounds }
  else
    { slot :=
        syncAdjustSlot numNodes slotId node.slot
          (largestMeanDelay node.delays).toNat random
      delays := []
      stableRounds := 0 }

/-- `sync_is_stable`. -/
def SyncState.syncIsStable (node : SyncState) : Bool :=
  decide (node.stableRounds ≥ syncStableRounds)

/-! ## Nodes and beacons -/

/--
The fields of a beacon that `compute_delay` uses, with the true time at which
it was stamped.
-/
structure StampedBeacon where
  sender : Nat
  stampedMs : ℚ
  timestampS : ℚ
  beginMs : Nat
  deriving DecidableEq

/-- The nodes, and every beacon that was ever sent. -/
structure SyncNetwork where
  node : Nat → SyncState
  beacons : List StampedBeacon

/--
The steps of the nodes, at a true time: a node stamps a beacon, another one
processes it, and a node adjusts its slot, with the value of `rand`.
-/
inductive SyncAction where
  | stamp (sender : Nat) (atMs : ℚ)
  | process (receiver : Nat) (beacon : StampedBeacon) (atMs : ℚ)
  | adjust (slotId random : Nat)

/-- Change the state of one node. -/
def SyncNetwork.set
    (network : SyncNetwork)
    (slotId : Nat)
    (next : SyncState) : SyncNetwork :=
  { network with node := Function.update network.node slotId next }

@[simp]
theorem SyncNetwork.node_set_self
    (network : SyncNetwork)
    (slotId : Nat)
    (next : SyncState) :
    (network.set slotId next).node slotId = next := by
  simp [SyncNetwork.set]

theorem SyncNetwork.node_set_other
    {network : SyncNetwork}
    {slotId other : Nat}
    {next : SyncState}
    (differ : other ≠ slotId) :
    (network.set slotId next).node other = network.node other := by
  simp [SyncNetwork.set, Function.update_of_ne differ]

/-- One step; the clock of a node is ahead of true time by its offset. -/
def syncStep
    (numNodes : Nat)
    (offsetMs : Nat → ℚ)
    (network : SyncNetwork) : SyncAction → SyncNetwork
  | .stamp sender atMs =>
      { network with
        beacons :=
          network.beacons ++
            [{ sender := sender
               stampedMs := atMs
               timestampS := (atMs + offsetMs sender) / 1000
               beginMs := (network.node sender).slot.beginMs }] }
  | .process receiver beacon atMs =>
      network.set receiver
        ((network.node receiver).recordDelay
          { sender := beacon.sender
            delayMs :=
              computeDelay numNodes receiver (network.node receiver).slot
                (atMs + offsetMs receiver) beacon.sender beacon.timestampS
                beacon.beginMs })
  | .adjust slotId random =>
      network.set slotId
        ((network.node slotId).adjustSlot numNodes slotId random)

/-- The nodes of a network. -/
def IsNode (numNodes slotId : Nat) : Prop :=
  1 ≤ slotId ∧ slotId ≤ numNodes

/--
A beacon is stamped at any time, and processed by other nodes within 5 ms,
any number of times and in any order.
-/
def SyncEnabled
    (numNodes : Nat)
    (network : SyncNetwork) : SyncAction → Prop
  | .stamp sender _ => IsNode numNodes sender
  | .process receiver beacon atMs =>
      IsNode numNodes receiver ∧ beacon ∈ network.beacons ∧
        receiver ≠ beacon.sender ∧
        beacon.stampedMs ≤ atMs ∧ atMs < beacon.stampedMs + 5
  | .adjust slotId _ => IsNode numNodes slotId

instance (numNodes slotId : Nat) : Decidable (IsNode numNodes slotId) :=
  inferInstanceAs (Decidable (_ ∧ _))

instance (numNodes : Nat) (network : SyncNetwork) :
    DecidablePred (SyncEnabled numNodes network)
  | .stamp _ _ => inferInstanceAs (Decidable (IsNode _ _))
  | .process _ _ _ => inferInstanceAs (Decidable (_ ∧ _))
  | .adjust _ _ => inferInstanceAs (Decidable (IsNode _ _))

/-- The slots follow each other in true time, modulo the frame. -/
def Aligned
    (numNodes : Nat)
    (offsetMs : Nat → ℚ)
    (slots : Nat → SlotLimits) : Prop :=
  ∀ i j, IsNode numNodes i → IsNode numNodes j →
    ((slots j).beginMs : ℚ) - offsetMs j ≡
      (slots i).beginMs - offsetMs i + (j - i) * slotWidthMs numNodes
      [PMOD (roundPeriodMs numNodes : ℚ)]

/-- Given slots and counters, and no delay or beacon yet. -/
def syncStart
    (slots : Nat → SlotLimits)
    (stableRounds : Nat → Nat) : SyncNetwork where
  node := fun slotId =>
    { slot := slots slotId
      delays := []
      stableRounds := stableRounds slotId }
  beacons := []

/-- An adjustment of a node that saw at least one beacon. -/
def hearingAdjustment
    (slotId : Nat)
    (network : SyncNetwork) : SyncAction → List Unit
  | .adjust adjusted _ =>
      if adjusted = slotId ∧ (network.node slotId).delays ≠ [] then
        [()]
      else
        []
  | _ => []

/-- How many adjustments of a node in a run saw a beacon. -/
def hearingAdjustments
    (numNodes : Nat)
    (offsetMs : Nat → ℚ)
    (slotId : Nat)
    (start : SyncNetwork)
    (actions : List SyncAction) : Nat :=
  (StepRun.trace (syncStep numNodes offsetMs) (hearingAdjustment slotId)
    start actions).length

/-! ## The delay of a beacon -/

section

variable {numNodes : Nat}

theorem slotId_networkSettings (slotId : Nat) :
    (networkSettings numNodes slotId).slotId = slotId :=
  rfl

theorem widthMs_networkSettings (slotId : Nat) :
    (networkSettings numNodes slotId).widthMs = slotWidthMs numNodes :=
  rfl

theorem valid_networkSettings
    (atLeastTwo : 2 ≤ numNodes)
    (slotId : Nat) :
    (networkSettings numNodes slotId).Valid where
  atLeastTwo := atLeastTwo
  positive := by
    rw [widthMs_networkSettings, slotWidthMs_eq (by omega)]
    decide
  whole := by
    rw [widthMs_networkSettings, slotWidthMs_eq (by omega)]
    rfl

/-- A time that a beacon takes is within half a frame. -/
theorem half_roundPeriodMs
    (atLeastTwo : 2 ≤ numNodes) :
    (50 : ℚ) ≤ roundPeriodMs numNodes / 2 := by
  have castAtLeastTwo : (2 : ℚ) ≤ numNodes := by
    exact_mod_cast atLeastTwo
  rw [roundPeriodMs_eq]
  push_cast
  linarith

/-- The delay of a beacon between aligned slots is the time that it took. -/
theorem computeDelay_of_aligned
    (atLeastTwo : 2 ≤ numNodes)
    {offsetMs : Nat → ℚ}
    {slots : Nat → SlotLimits}
    (aligned : Aligned numNodes offsetMs slots)
    {receiver sender : Nat}
    (placed : (slots receiver).WellPlaced numNodes)
    (receives : IsNode numNodes receiver)
    (sends : IsNode numNodes sender)
    {stampedMs atMs timestampS : ℚ}
    (stamped : timestampS * 1000 = stampedMs + offsetMs sender)
    (after : stampedMs ≤ atMs)
    (within : atMs < stampedMs + 5) :
    computeDelay numNodes receiver (slots receiver)
        (atMs + offsetMs receiver) sender timestampS
        (slots sender).beginMs =
      atMs - stampedMs := by
  have half :
      (50 : ℚ) ≤ (networkSettings numNodes receiver).roundPeriodMs / 2 :=
    half_roundPeriodMs atLeastTwo
  have valid := valid_networkSettings atLeastTwo receiver
  have alignedHere :=
    (aligned receiver sender receives sends).add_left
      (atMs - stampedMs + offsetMs receiver -
        ((slots receiver).beginMs +
          ((sender : ℚ) - receiver) * slotWidthMs numNodes))
  have phase :
      (networkSettings numNodes receiver).phaseError (slots receiver)
          (atMs + offsetMs receiver) sender timestampS
          (slots sender).beginMs ≡
        atMs - stampedMs [PMOD (roundPeriodMs numNodes : ℚ)] := by
    rw [SyncSettings.phaseError, stamped, widthMs_networkSettings,
      slotId_networkSettings]
    convert alignedHere using 1 <;> ring
  rw [computeDelay]
  exact centred_eq_of_modEq (by linarith)
    ((SyncSettings.rawDelay_modEq valid.whole placed.ends
      (atMs + offsetMs receiver) sender timestampS
      (slots sender).beginMs).trans phase)
    (by linarith) (by linarith)

end

/-! ## The dead band -/

/-- A mean of values below a bound is below it. -/
theorem computeMean_mem
    {values : List ℚ}
    {bound : ℚ}
    (positive : 0 < bound)
    (bounded : ∀ value ∈ values, 0 ≤ value ∧ value < bound) :
    0 ≤ computeMean values ∧ computeMean values < bound := by
  unfold computeMean
  split
  · exact ⟨le_rfl, positive⟩
  · rename_i some
    have count : (0 : ℚ) < values.length := by
      exact_mod_cast Nat.pos_of_ne_zero some
    have nonneg : 0 ≤ values.sum :=
      List.sum_nonneg fun value listed => (bounded value listed).1
    have below : values.sum < values.length * bound := by
      calc
        values.sum < (values.map fun _ => bound).sum := by
          obtain ⟨value, rest, rfl⟩ :=
            List.exists_cons_of_length_pos (Nat.pos_of_ne_zero some)
          have first := (bounded value List.mem_cons_self).2
          have others : rest.sum ≤ (rest.map fun _ => bound).sum := by
            have each :
                ∀ other ∈ rest, id other ≤ (fun _ => bound) other :=
              fun other listed =>
                (bounded other (List.mem_cons_of_mem _ listed)).2.le
            simpa using List.sum_le_sum each
          rw [List.sum_cons, List.map_cons, List.sum_cons]
          linarith
        _ = values.length * bound := by
          rw [List.map_const', List.sum_replicate, nsmul_eq_mul]
    exact ⟨div_nonneg nonneg count.le, (div_lt_iff₀' count).mpr below⟩

/-- The loop over the nodes keeps the largest mean that it sees. -/
theorem foldl_largest_le_iff
    {Item : Type*}
    {counts : Item → Prop}
    [DecidablePred counts]
    {mean : Item → ℤ}
    {bound : ℤ}
    {items : List Item} :
    ∀ {delta : ℤ},
      items.foldl
          (fun delta item =>
            if counts item ∧ mean item > delta then mean item else delta)
          delta ≤ bound ↔
        delta ≤ bound ∧ ∀ item ∈ items, counts item → mean item ≤ bound := by
  induction items with
  | nil =>
      intro delta
      simp
  | cons item rest inductionHypothesis =>
      intro delta
      rw [List.foldl_cons, inductionHypothesis, List.forall_mem_cons]
      split
      · rename_i larger
        constructor
        · rintro ⟨bounded, others⟩
          exact ⟨by omega, fun _ => bounded, others⟩
        · rintro ⟨_, bounded, others⟩
          exact ⟨bounded larger.1, others⟩
      · rename_i notLarger
        constructor
        · rintro ⟨bounded, others⟩
          refine ⟨bounded, fun isCounted => ?_, others⟩
          have small : ¬ mean item > delta := fun larger =>
            notLarger ⟨isCounted, larger⟩
          omega
        · rintro ⟨bounded, _, others⟩
          exact ⟨bounded, others⟩

/-- Which means `delta` compares: those of the nodes that were heard. -/
theorem largestMeanDelay_le_iff
    {delays : List RecordedDelay}
    {bound : ℤ}
    (nonneg : 0 ≤ bound) :
    largestMeanDelay delays ≤ bound ↔
      ∀ sender, 1 ≤ sender → sender ≤ maxNodes →
        delaysOf sender delays ≠ [] →
        truncate (computeMean (delaysOf sender delays)) ≤ bound := by
  unfold largestMeanDelay
  rw [foldl_largest_le_iff]
  constructor
  · rintro ⟨_, each⟩ sender first last heard
    have listed : sender - 1 ∈ List.range maxNodes := by
      rw [List.mem_range]
      omega
    have bounded := each (sender - 1) listed
    rw [Nat.sub_add_cancel first] at bounded
    exact bounded heard
  · intro each
    refine ⟨nonneg, fun nj listed heard => ?_⟩
    exact each (nj + 1) (by omega) (List.mem_range.mp listed) heard

/-- Delays below 5 ms stay inside the dead band. -/
theorem largestMeanDelay_le
    {delays : List RecordedDelay}
    (short : ∀ entry ∈ delays, 0 ≤ entry.delayMs ∧ entry.delayMs < 5) :
    largestMeanDelay delays ≤ syncDeadbandMs := by
  rw [largestMeanDelay_le_iff (by decide)]
  intro sender _ _ _
  have bounded :
      ∀ value ∈ delaysOf sender delays, 0 ≤ value ∧ value < 5 := by
    intro value listed
    obtain ⟨entry, isEntry, rfl⟩ := List.mem_map.mp listed
    exact short entry (List.mem_filter.mp isEntry).1
  obtain ⟨nonneg, below⟩ := computeMean_mem (by norm_num) bounded
  rw [truncate_of_nonneg nonneg]
  exact Int.lt_add_one_iff.mp (Int.floor_lt.mpr (by exact_mod_cast below))

/-! ## Runs of the network -/

/-- The slots are where they were, and what is recorded is short. -/
structure AlignedRun
    (numNodes : Nat)
    (offsetMs : Nat → ℚ)
    (slots : Nat → SlotLimits)
    (network : SyncNetwork) : Prop where
  unmoved : ∀ slotId, (network.node slotId).slot = slots slotId
  delays :
    ∀ slotId, ∀ entry ∈ (network.node slotId).delays,
      0 ≤ entry.delayMs ∧ entry.delayMs < 5
  beacons :
    ∀ beacon ∈ network.beacons,
      IsNode numNodes beacon.sender ∧
        beacon.timestampS * 1000 =
          beacon.stampedMs + offsetMs beacon.sender ∧
        beacon.beginMs = (slots beacon.sender).beginMs

/-- An adjustment inside the dead band: only the counter may change. -/
theorem adjustSlot_of_short
    {node : SyncState}
    (short : ∀ entry ∈ node.delays, 0 ≤ entry.delayMs ∧ entry.delayMs < 5)
    (numNodes slotId random : Nat) :
    node.adjustSlot numNodes slotId random =
      if node.delays = [] then
        node
      else
        { node with
          delays := []
          stableRounds := countRound node.stableRounds } := by
  unfold SyncState.adjustSlot
  rw [if_pos (largestMeanDelay_le short)]

section

variable {numNodes : Nat}
variable {offsetMs : Nat → ℚ}
variable {slots : Nat → SlotLimits}
variable {network : SyncNetwork}

/-- A beacon that is stamped carries the clock and the slot of its sender. -/
theorem AlignedRun.stamp
    (run : AlignedRun numNodes offsetMs slots network)
    {sender : Nat}
    (sends : IsNode numNodes sender)
    (atMs : ℚ) :
    AlignedRun numNodes offsetMs slots
      (syncStep numNodes offsetMs network (.stamp sender atMs)) where
  unmoved := run.unmoved
  delays := run.delays
  beacons := by
    intro beacon listed
    rcases List.mem_append.mp listed with earlier | last
    · exact run.beacons beacon earlier
    · rw [List.mem_singleton.mp last]
      refine ⟨sends, by ring, ?_⟩
      rw [run.unmoved sender]

/-- One node changes: it keeps its slot and has short delays. -/
theorem AlignedRun.set
    (run : AlignedRun numNodes offsetMs slots network)
    {changed : Nat}
    {next : SyncState}
    (unmoved : next.slot = slots changed)
    (short :
      ∀ entry ∈ next.delays, 0 ≤ entry.delayMs ∧ entry.delayMs < 5) :
    AlignedRun numNodes offsetMs slots (network.set changed next) := by
  refine ⟨fun slotId => ?_, fun slotId => ?_, run.beacons⟩
  · by_cases isChanged : slotId = changed
    · rw [isChanged, SyncNetwork.node_set_self]
      exact unmoved
    · rw [SyncNetwork.node_set_other isChanged]
      exact run.unmoved slotId
  · by_cases isChanged : slotId = changed
    · rw [isChanged, SyncNetwork.node_set_self]
      exact short
    · rw [SyncNetwork.node_set_other isChanged]
      exact run.delays slotId

/-- A beacon that is processed in time leaves a short delay. -/
theorem AlignedRun.process
    (atLeastTwo : 2 ≤ numNodes)
    (aligned : Aligned numNodes offsetMs slots)
    (placed :
      ∀ slotId, IsNode numNodes slotId →
        (slots slotId).WellPlaced numNodes)
    (run : AlignedRun numNodes offsetMs slots network)
    {receiver : Nat}
    {beacon : StampedBeacon}
    {atMs : ℚ}
    (allowed :
      SyncEnabled numNodes network (.process receiver beacon atMs)) :
    AlignedRun numNodes offsetMs slots
      (syncStep numNodes offsetMs network (.process receiver beacon atMs)) := by
  obtain ⟨receives, listed, _, after, within⟩ := allowed
  obtain ⟨sends, stamped, begins⟩ := run.beacons beacon listed
  have delay :
      computeDelay numNodes receiver (network.node receiver).slot
          (atMs + offsetMs receiver) beacon.sender beacon.timestampS
          beacon.beginMs =
        atMs - beacon.stampedMs := by
    rw [run.unmoved receiver, begins]
    exact computeDelay_of_aligned atLeastTwo aligned (placed receiver receives)
      receives sends stamped after within
  refine run.set ?_ ?_
  · exact run.unmoved receiver
  · intro entry recorded
    simp only [SyncState.recordDelay, delay] at recorded
    split at recorded
    · rcases List.mem_append.mp recorded with earlier | last
      · exact run.delays receiver entry earlier
      · rw [List.mem_singleton.mp last]
        constructor <;> dsimp only <;> linarith
    · exact run.delays receiver entry recorded

/-- An adjustment leaves the slot where it is. -/
theorem AlignedRun.adjust
    (run : AlignedRun numNodes offsetMs slots network)
    (adjusted random : Nat) :
    AlignedRun numNodes offsetMs slots
      (syncStep numNodes offsetMs network (.adjust adjusted random)) := by
  have onlyCounts :=
    adjustSlot_of_short (run.delays adjusted) numNodes adjusted random
  rw [syncStep, onlyCounts]
  refine run.set ?_ ?_
  · split <;> exact run.unmoved adjusted
  · intro entry recorded
    split at recorded
    · exact run.delays adjusted entry recorded
    · cases recorded

/-- The counter of a node counts the adjustments that saw a beacon. -/
theorem AlignedRun.stableRounds_step
    (run : AlignedRun numNodes offsetMs slots network)
    (slotId : Nat)
    (action : SyncAction) :
    ((syncStep numNodes offsetMs network action).node slotId).stableRounds =
      countRound^[(hearingAdjustment slotId network action).length]
        (network.node slotId).stableRounds := by
  cases action with
  | stamp sender atMs =>
      rfl
  | process receiver beacon atMs =>
      rw [syncStep]
      by_cases isReceiver : slotId = receiver
      · rw [isReceiver, SyncNetwork.node_set_self]
        rfl
      · rw [SyncNetwork.node_set_other isReceiver]
        rfl
  | adjust adjusted random =>
      rw [syncStep]
      by_cases isAdjusted : slotId = adjusted
      · subst isAdjusted
        rw [SyncNetwork.node_set_self,
          adjustSlot_of_short (run.delays slotId), hearingAdjustment]
        by_cases heard : (network.node slotId).delays = [] <;> simp [heard]
      · rw [SyncNetwork.node_set_other isAdjusted, hearingAdjustment,
          if_neg fun same => isAdjusted same.1.symm]
        rfl

/-- Every step keeps the slots where they are. -/
theorem AlignedRun.step
    (atLeastTwo : 2 ≤ numNodes)
    (aligned : Aligned numNodes offsetMs slots)
    (placed :
      ∀ slotId, IsNode numNodes slotId →
        (slots slotId).WellPlaced numNodes)
    (run : AlignedRun numNodes offsetMs slots network)
    {action : SyncAction}
    (allowed : SyncEnabled numNodes network action) :
    AlignedRun numNodes offsetMs slots
      (syncStep numNodes offsetMs network action) := by
  cases action with
  | stamp sender atMs =>
      exact run.stamp allowed atMs
  | process receiver beacon atMs =>
      exact run.process atLeastTwo aligned placed allowed
  | adjust adjusted random =>
      exact run.adjust adjusted random

theorem alignedRun_syncStart (stableRounds : Nat → Nat) :
    AlignedRun numNodes offsetMs slots (syncStart slots stableRounds) where
  unmoved := fun _ => rfl
  delays := by simp [syncStart]
  beacons := by simp [syncStart]

end

/-- The counter grows with every round, up to its cap. -/
theorem le_iterate_countRound (rounds more : Nat) :
    min (rounds + more) stableRoundsCap ≤ countRound^[more] rounds := by
  induction more with
  | zero =>
      exact min_le_left _ _
  | succ more inductionHypothesis =>
      rw [Function.iterate_succ_apply', countRound]
      split <;> omega

/--
Between aligned slots, with beacons that are processed within 5 ms, no slot
ever moves, every adjustment that saw a beacon counts as a stable round, and
after `SYNC_STABLE_ROUNDS` of them the node is stable.
-/
theorem alignedSlots_stay
    (numNodes : Nat)
    (offsetMs : Nat → ℚ)
    (slots : Nat → SlotLimits)
    (stableRounds : Nat → Nat)
    (actions : List SyncAction)
    (atLeastTwo : 2 ≤ numNodes)
    (placed :
      ∀ slotId, IsNode numNodes slotId →
        (slots slotId).WellPlaced numNodes)
    (aligned : Aligned numNodes offsetMs slots)
    {network : SyncNetwork}
    (run :
      StepRun.Run (syncStep numNodes offsetMs) (SyncEnabled numNodes)
        (syncStart slots stableRounds) actions network)
    (slotId : Nat) :
    let heard :=
      hearingAdjustments numNodes offsetMs slotId
        (syncStart slots stableRounds) actions
    (network.node slotId).slot = slots slotId ∧
      (network.node slotId).stableRounds =
        countRound^[heard] (stableRounds slotId) ∧
      (syncStableRounds ≤ heard →
        (network.node slotId).syncIsStable = true) := by
  have always :
      AlignedRun numNodes offsetMs slots network ∧
        (network.node slotId).stableRounds =
          countRound^[hearingAdjustments numNodes offsetMs slotId
            (syncStart slots stableRounds) actions]
            (stableRounds slotId) := by
    induction run with
    | start =>
        exact ⟨alignedRun_syncStart stableRounds, rfl⟩
    | next action earlier allowed inductionHypothesis =>
        obtain ⟨before, counted⟩ := inductionHypothesis
        refine ⟨before.step atLeastTwo aligned placed allowed, ?_⟩
        rw [before.stableRounds_step, counted, ← Function.iterate_add_apply,
          hearingAdjustments, hearingAdjustments,
          StepRun.trace_append_singleton, ← earlier.final_eq_foldl,
          List.length_append, Nat.add_comm]
  obtain ⟨unmoved, counted⟩ := always
  refine ⟨unmoved.unmoved slotId, counted, fun enough => ?_⟩
  have grown :=
    le_iterate_countRound (stableRounds slotId)
      (hearingAdjustments numNodes offsetMs slotId
        (syncStart slots stableRounds) actions)
  rw [← counted] at grown
  rw [SyncState.syncIsStable, decide_eq_true_eq]
  unfold syncStableRounds at enough ⊢
  unfold stableRoundsCap at grown
  omega

/-- The clocks of three nodes: the second is ahead, the third behind. -/
def threeOffsets : Nat → ℚ
  | 2 => 10
  | 3 => -20
  | _ => 0

/-- Their slots, one after the other in true time. -/
def threeSlots : Nat → SlotLimits
  | 2 => { beginMs := 60, endMs := 110 }
  | 3 => { beginMs := 80, endMs := 130 }
  | _ => { beginMs := 0, endMs := 50 }

theorem placed_threeSlots
    (slotId : Nat)
    (isNode : IsNode 3 slotId) :
    (threeSlots slotId).WellPlaced 3 := by
  obtain ⟨first, last⟩ := isNode
  interval_cases slotId <;> exact ⟨by decide, by decide⟩

theorem aligned_threeSlots : Aligned 3 threeOffsets threeSlots := by
  intro i j isFirst isSecond
  obtain ⟨iFirst, iLast⟩ := isFirst
  obtain ⟨jFirst, jLast⟩ := isSecond
  rw [slotWidthMs_eq (by decide)]
  interval_cases i <;> interval_cases j <;>
    norm_num [threeOffsets, threeSlots]

/-- A beacon of the second node, stamped in its slot. -/
def secondBeacon : StampedBeacon where
  sender := 2
  stampedMs := 1251
  timestampS := 1261 / 1000
  beginMs := 60

/-- The first node processes the beacon again and again, up to 4 ms late. -/
def hearsSecondEightTimes : List SyncAction :=
  .stamp 2 1251 ::
    (List.replicate 8
      [.process 1 secondBeacon 1252, .process 1 secondBeacon 1255,
        .adjust 1 50]).flatten

/-- Its slot stays, and it is stable. -/
theorem alignedSlots_stay_hearsSecondEightTimes :
    let node :=
      (hearsSecondEightTimes.foldl (syncStep 3 threeOffsets)
        (syncStart threeSlots fun _ => 0)).node 1
    node.slot = { beginMs := 0, endMs := 50 } ∧
      node.syncIsStable = true := by
  obtain ⟨unmoved, _, stable⟩ :=
    alignedSlots_stay 3 threeOffsets threeSlots (fun _ => 0)
      hearsSecondEightTimes (by decide) placed_threeSlots aligned_threeSlots
      (StepRun.Run.of_checkRun (by decide +kernel)) 1
  exact ⟨unmoved, stable (by decide +kernel)⟩

end RoutingMesh
