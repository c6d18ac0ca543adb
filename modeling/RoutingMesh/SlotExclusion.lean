import Mathlib.Tactic.FieldSimp
import RoutingMesh.CyclicWindows
import RoutingMesh.SlotWindow
import RoutingMesh.SyncConvergence

/-!
# Two nodes do not send data at once

`tx_loop` pops data as long as a node's own clock is before the end of its
slot, less the guard.  In true time these are windows of one cycle, and each
drifts with the phase of its slot.  The phases stay together however the
slots are corrected, so what they leave of the guard is between the data of
different nodes, in every two states of every run.
-/

namespace RoutingMesh

open AddCommGroup CyclicWindows FrameClock

/-- What `get_time_us` returns at a true time. -/
def ReadsClock (offsetMs atMs : ℚ) (readingUs : Nat) : Prop :=
  (readingUs : ℚ) ≤ (atMs + offsetMs) * 1000 ∧
    (atMs + offsetMs) * 1000 < readingUs + 1

instance (offsetMs atMs : ℚ) (readingUs : Nat) :
    Decidable (ReadsClock offsetMs atMs readingUs) :=
  inferInstanceAs (Decidable (_ ∧ _))

/--
The drain loop of `tx_loop` goes on at a true time: a pass that started in the
slot read its clock again and is before the `slot_end` of its start.
-/
def SendsData
    (numNodes : Nat)
    (offsetMs : ℚ)
    (slot : SlotLimits)
    (nowUs : Nat)
    (atMs : ℚ) : Prop :=
  ∃ readingUs,
    syncInSlot numNodes slot nowUs = true ∧
      nowUs ≤ readingUs ∧
      readingUs < slotEndUs numNodes slot nowUs ∧
      ReadsClock offsetMs atMs readingUs

section

variable {numNodes slotId : Nat}
variable {offsetMs : Nat → ℚ}
variable {slot : SlotLimits}
variable {nowUs : Nat}
variable {phase atMs : ℚ}

/--
A node that sends data is less than 45 ms into its slot, unless the pass began
in the second part of a slot that crosses the frame boundary: `slot_end` is a
frame late then.
-/
theorem SendsData.into_slot
    (atLeastTwo : 2 ≤ numNodes)
    (placed : slot.WellPlaced numNodes)
    (sends : SendsData numNodes (offsetMs slotId) slot nowUs atMs)
    (notSecond : ¬ InSecondPart numNodes slot nowUs) :
    ∃ frames : Nat,
      let into :=
        atMs + offsetMs slotId - slot.beginMs -
          frames * roundPeriodMs numNodes
      0 ≤ into ∧ into < 45 := by
  obtain ⟨readingUs, inSlot, since, before, fromBelow, fromAbove⟩ := sends
  rw [inSecondPart_iff atLeastTwo placed inSlot, not_lt] at notSecond
  have limit := slotEndUs_add_guardUs atLeastTwo placed nowUs
  unfold guardUs at limit
  have begins :
      slotBeginUs numNodes slot nowUs =
        (numNodes * 50 * (nowUs / roundUs numNodes) + slot.beginMs) *
          1000 := by
    rw [slotBeginUs, frameStart_eq_mul, roundUs_eq]
    ring
  have notBefore : slotBeginUs numNodes slot nowUs ≤ readingUs :=
    notSecond.trans since
  have notAfter :
      readingUs + 1 ≤ slotBeginUs numNodes slot nowUs + 45 * 1000 := by
    omega
  rw [begins] at notBefore notAfter
  have castNotBefore := (Nat.cast_le (α := ℚ)).mpr notBefore
  have castNotAfter := (Nat.cast_le (α := ℚ)).mpr notAfter
  refine ⟨nowUs / roundUs numNodes, ?_⟩
  rw [roundPeriodMs_eq]
  push_cast at castNotBefore castNotAfter ⊢
  constructor <;> linarith

/-- Its time is in a window that drifts with the phase. -/
theorem SendsData.inWindow
    (atLeastTwo : 2 ≤ numNodes)
    (placed : slot.WellPlaced numNodes)
    (isPhase : IsPhase numNodes offsetMs slotId slot.beginMs phase)
    (sends : SendsData numNodes (offsetMs slotId) slot nowUs atMs)
    (notSecond : ¬ InSecondPart numNodes slot nowUs) :
    InWindow 50 5 numNodes slotId phase atMs := by
  obtain ⟨frames, nonneg, below⟩ :=
    sends.into_slot atLeastTwo placed notSecond
  refine ⟨_, nonneg, by linarith, ?_⟩
  have period : (roundPeriodMs numNodes : ℚ) = numNodes * 50 := by
    rw [roundPeriodMs_eq]
    push_cast
    rfl
  have width : (slotWidthMs numNodes : ℚ) = 50 := by
    rw [slotWidthMs_eq (by omega)]
    rfl
  unfold IsPhase at isPhase
  rw [period, width] at isPhase
  rw [period]
  have begins :=
    isPhase.add_right
      (slotId * 50 +
        (atMs + offsetMs slotId - slot.beginMs -
          frames * (numNodes * 50)))
  have wholeFrames :
      atMs ≡ atMs - frames * (numNodes * 50) [PMOD ((numNodes : ℚ) * 50)] := by
    rw [modEq_iff_zsmul]
    refine ⟨-frames, ?_⟩
    rw [zsmul_eq_mul]
    push_cast
    ring
  have regroup :
      (slot.beginMs : ℚ) - offsetMs slotId - slotId * 50 +
          (slotId * 50 +
            (atMs + offsetMs slotId - slot.beginMs -
              frames * (numNodes * 50))) =
        atMs - frames * (numNodes * 50) := by
    ring
  rw [regroup] at begins
  have both := wholeFrames.trans begins
  rw [← add_assoc] at both
  exact_mod_cast both

end

/--
Take any number of nodes and any slots whose phases start between a lowest one
and the leader's.  In any two states that runs reach, with beacons that are
processed within a latency, times at which two different nodes send data, in
passes that did not begin after the frame boundary in a slot that crosses it,
are further apart than what the guard leaves: 5 ms, less how far the phases
are apart, less the latencies.
-/
theorem dataSends_apart
    {setting : ChaseSetting}
    (valid : setting.Valid)
    {slots : Nat → SlotLimits}
    (placed :
      ∀ slotId, IsNode setting.numNodes slotId →
        (slots slotId).WellPlaced setting.numNodes)
    (phases :
      ∀ slotId, IsNode setting.numNodes slotId →
        IsPhase setting.numNodes setting.offsetMs slotId
          (slots slotId).beginMs (setting.phase slotId))
    {lowest : ℚ}
    (notBelow :
      ∀ slotId, IsNode setting.numNodes slotId →
        lowest ≤ setting.phase slotId)
    {stableRounds : Nat → Nat}
    {actions otherActions : List SyncAction}
    {network otherNetwork : SyncNetwork}
    (run :
      StepRun.Run (syncStep setting.numNodes setting.offsetMs)
        (PromptEnabled setting.numNodes setting.latencyMs)
        (syncStart slots stableRounds) actions network)
    (otherRun :
      StepRun.Run (syncStep setting.numNodes setting.offsetMs)
        (PromptEnabled setting.numNodes setting.latencyMs)
        (syncStart slots stableRounds) otherActions otherNetwork)
    {slotId other : Nat}
    (isNode : IsNode setting.numNodes slotId)
    (isOther : IsNode setting.numNodes other)
    (differ : slotId ≠ other)
    {nowUs otherUs : Nat}
    {atMs otherMs : ℚ}
    (sends :
      SendsData setting.numNodes (setting.offsetMs slotId)
        (network.node slotId).slot nowUs atMs)
    (otherSends :
      SendsData setting.numNodes (setting.offsetMs other)
        (otherNetwork.node other).slot otherUs otherMs)
    (notSecond :
      ¬ InSecondPart setting.numNodes (network.node slotId).slot nowUs)
    (otherNotSecond :
      ¬ InSecondPart setting.numNodes (otherNetwork.node other).slot
        otherUs) :
    5 - (setting.lead + setting.numNodes * setting.latencyMs - lowest) <
      |atMs - otherMs| := by
  obtain ⟨position, chase, _⟩ := exists_chase valid placed phases run
  obtain ⟨otherPosition, otherChase, _⟩ :=
    exists_chase valid placed phases otherRun
  have inWindow :=
    sends.inWindow valid.atLeastTwo (chase.placed slotId isNode)
      (chase.phases slotId isNode) notSecond
  have inOther :=
    otherSends.inWindow valid.atLeastTwo (otherChase.placed other isOther)
      (otherChase.phases other isOther) otherNotSecond
  have notBelowHere := (notBelow slotId isNode).trans (chase.forward slotId)
  have notBelowThere :=
    (notBelow other isOther).trans (otherChase.forward other)
  have limitHere := chase.le_limit valid isNode
  have limitThere := otherChase.le_limit valid isOther
  obtain ⟨first, last⟩ := isNode
  obtain ⟨otherFirst, otherLast⟩ := isOther
  refine inWindow.apart (by norm_num) inOther (by exact_mod_cast differ) ?_ ?_
  · rw [abs_lt]
    omega
  · rw [abs_le]
    constructor <;> linarith

/-- A pass after the frame boundary sends into the slot of another node. -/
example :
    SendsData 2 0 { beginMs := 0, endMs := 50 } 101000 120 ∧
      SendsData 2 5 { beginMs := 55, endMs := 5 } 104000 120 :=
  ⟨⟨120000, by decide +kernel⟩, ⟨125000, by decide +kernel⟩⟩

/-- The clock of the second of two nodes is 1 ms ahead. -/
def secondBarelyAhead : Nat → ℚ
  | 2 => 1
  | _ => 0

/-- Their slots as `sync_init` places them. -/
def secondBarelyBehind : ChaseSetting where
  numNodes := 2
  offsetMs := secondBarelyAhead
  phase := fun slotId => -50 - secondBarelyAhead slotId
  leader := 1
  latencyMs := 1

theorem valid_secondBarelyBehind : secondBarelyBehind.Valid where
  atLeastTwo := by decide
  atMostMax := by decide
  isNode := by decide
  leads := by
    rintro slotId ⟨first, last⟩
    unfold secondBarelyBehind at last
    interval_cases slotId <;>
      norm_num [ChaseSetting.lead, secondBarelyBehind, secondBarelyAhead]
  near := by
    rintro slotId ⟨first, last⟩
    unfold secondBarelyBehind at last
    interval_cases slotId <;>
      norm_num [ChaseSetting.lead, secondBarelyBehind, secondBarelyAhead,
        roundPeriodMs_eq]
  latencyNonneg := by norm_num [secondBarelyBehind]
  prompt := by norm_num [secondBarelyBehind]

/-- The second node hears the first one and adjusts. -/
def hearsFirstOnce : List SyncAction :=
  [.stamp 1 10, .process 2 firstBeacon 11, .adjust 2 50]

/-- The first node sends at the end of its slot, the second as its begins. -/
theorem dataSends_apart_hearsFirstOnce :
    (5 - 3 : ℚ) < |44 - 49| := by
  have isRun :
      StepRun.Run (syncStep 2 secondBarelyAhead) (PromptEnabled 2 1)
        (syncStart (fun slotId => syncInit slotId 2) fun _ => 0)
        hearsFirstOnce _ :=
    StepRun.Run.of_checkRun (by decide +kernel)
  have lowest :
      ∀ slotId, IsNode 2 slotId → (-51 : ℚ) ≤ -50 - secondBarelyAhead slotId := by
    rintro slotId ⟨first, last⟩
    interval_cases slotId <;> norm_num [secondBarelyAhead]
  have sends : SendsData 2 0 (syncInit 1 2) 40000 44 :=
    ⟨44000, by decide +kernel⟩
  have otherSends : SendsData 2 1 (syncInit 2 2) 50000 49 :=
    ⟨50000, by decide +kernel⟩
  have unmoved :
      ((hearsFirstOnce.foldl (syncStep 2 secondBarelyAhead)
        (syncStart (fun slotId => syncInit slotId 2) fun _ => 0)).node
          2).slot =
        syncInit 2 2 := by
    decide +kernel
  rw [← unmoved] at otherSends
  have apart :=
    dataSends_apart valid_secondBarelyBehind
      (fun slotId isNode =>
        wellPlaced_syncInit ⟨by decide, by decide, isNode.1, isNode.2⟩)
      (fun slotId isNode => isPhase_syncInit isNode secondBarelyAhead)
      lowest isRun isRun (by decide : IsNode 2 1) (by decide : IsNode 2 2)
      (by decide) sends otherSends (by decide +kernel)
      (by rw [unmoved]; decide +kernel)
  convert apart using 1
  norm_num [ChaseSetting.lead, secondBarelyBehind, secondBarelyAhead]

end RoutingMesh
