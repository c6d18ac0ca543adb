import Mathlib.Order.Interval.Finset.Nat
import RoutingMesh.LeaderChase
import RoutingMesh.SlotMoves

/-!
# The slots converge

Nodes whose slots are out of line, by less than half a frame in all, correct
them with every beacon that they hear.  Each slot has a phase: where it is in
true time, less where it belongs.  A node only moves towards a slot that is
ahead of its own, so the phases stay between the last and the first of them,
up to the time that beacons take; each correction gains at least 4 ms, so
there are finitely many, and whoever hears the leader catches up with it.
-/

namespace RoutingMesh

open AddCommGroup PeriodicTime LeaderChase

/-- Where a slot that begins at a clock's time is, less where it belongs. -/
def IsPhase
    (numNodes : Nat)
    (offsetMs : Nat → ℚ)
    (slotId beginMs : Nat)
    (phase : ℚ) : Prop :=
  (beginMs : ℚ) - offsetMs slotId - slotId * slotWidthMs numNodes ≡ phase
    [PMOD (roundPeriodMs numNodes : ℚ)]

/-- Beacons are processed within a latency. -/
def PromptEnabled
    (numNodes : Nat)
    (latencyMs : ℚ)
    (network : SyncNetwork)
    (action : SyncAction) : Prop :=
  SyncEnabled numNodes network action ∧
    match action with
    | .process _ beacon atMs => atMs ≤ beacon.stampedMs + latencyMs
    | _ => True

instance
    (numNodes : Nat)
    (latencyMs : ℚ)
    (network : SyncNetwork) :
    DecidablePred (PromptEnabled numNodes latencyMs network)
  | .stamp _ _ => inferInstanceAs (Decidable (_ ∧ True))
  | .process _ _ _ => inferInstanceAs (Decidable (_ ∧ _ ≤ _))
  | .adjust _ _ => inferInstanceAs (Decidable (_ ∧ True))

/-- An adjustment of a node that moves its slot. -/
def movingAdjustment
    (numNodes slotId : Nat)
    (network : SyncNetwork) : SyncAction → List Unit
  | .adjust adjusted random =>
      if adjusted = slotId ∧
          ((network.node slotId).adjustSlot numNodes slotId random).slot ≠
            (network.node slotId).slot then
        [()]
      else
        []
  | _ => []

/-- An adjustment of a node that heard another one. -/
def adjustmentHearing
    (leader slotId : Nat)
    (network : SyncNetwork) : SyncAction → List Unit
  | .adjust adjusted _ =>
      if adjusted = slotId ∧
          delaysOf leader (network.node slotId).delays ≠ [] then
        [()]
      else
        []
  | _ => []

/-- How often the slot of a node moves in a run. -/
def slotMoves
    (numNodes : Nat)
    (offsetMs : Nat → ℚ)
    (slotId : Nat)
    (start : SyncNetwork)
    (actions : List SyncAction) : Nat :=
  (StepRun.trace (syncStep numNodes offsetMs)
    (movingAdjustment numNodes slotId) start actions).length

/-- How many adjustments of a node in a run heard another one. -/
def adjustmentsHearing
    (numNodes : Nat)
    (offsetMs : Nat → ℚ)
    (leader slotId : Nat)
    (start : SyncNetwork)
    (actions : List SyncAction) : Nat :=
  (StepRun.trace (syncStep numNodes offsetMs)
    (adjustmentHearing leader slotId) start actions).length

/-- The nodes as a set. -/
def nodeSet (numNodes : Nat) : Finset Nat :=
  Finset.Icc 1 numNodes

theorem mem_nodeSet {numNodes slotId : Nat} :
    slotId ∈ nodeSet numNodes ↔ IsNode numNodes slotId :=
  Finset.mem_Icc

theorem card_nodeSet (numNodes : Nat) : (nodeSet numNodes).card = numNodes := by
  rw [nodeSet, Nat.card_Icc, Nat.add_sub_cancel]

/-! ## Means and truncation -/

/-- At or above zero, truncation rounds down. -/
theorem truncate_le_iff
    {x : ℚ}
    {bound : ℤ}
    (nonneg : 0 ≤ bound) :
    truncate x ≤ bound ↔ x < bound + 1 := by
  unfold truncate
  split
  · rw [← Int.lt_add_one_iff, Int.floor_lt]
    push_cast
    rfl
  · rename_i negative
    have castNonneg : (0 : ℚ) ≤ bound := by
      exact_mod_cast nonneg
    have below : x ≤ bound := by
      linarith
    exact iff_of_true (Int.ceil_le.mpr below) (by linarith)

theorem computeMean_le
    {values : List ℚ}
    {bound : ℚ}
    (some : values ≠ [])
    (bounded : ∀ value ∈ values, value ≤ bound) :
    computeMean values ≤ bound := by
  have count : 0 < values.length := List.length_pos_iff.mpr some
  have castCount : (0 : ℚ) < values.length := by
    exact_mod_cast count
  have total := List.sum_le_card_nsmul values bound bounded
  rw [nsmul_eq_mul] at total
  rw [computeMean, if_neg count.ne', div_le_iff₀' castCount]
  exact total

theorem le_computeMean
    {values : List ℚ}
    {bound : ℚ}
    (some : values ≠ [])
    (bounded : ∀ value ∈ values, bound ≤ value) :
    bound ≤ computeMean values := by
  have count : 0 < values.length := List.length_pos_iff.mpr some
  have castCount : (0 : ℚ) < values.length := by
    exact_mod_cast count
  have total := List.card_nsmul_le_sum values bound bounded
  rw [nsmul_eq_mul] at total
  rw [computeMean, if_neg count.ne', le_div_iff₀' castCount]
  exact total

theorem mem_delaysOf
    {sender : Nat}
    {delays : List RecordedDelay}
    {value : ℚ} :
    value ∈ delaysOf sender delays ↔
      ∃ entry ∈ delays, entry.sender = sender ∧ entry.delayMs = value := by
  simp [delaysOf, and_assoc]

/-- Outside the dead band somebody is at least 5 ms late on average. -/
theorem exists_late
    {delays : List RecordedDelay}
    (late : ¬ largestMeanDelay delays ≤ syncDeadbandMs) :
    ∃ sender, delaysOf sender delays ≠ [] ∧
      5 ≤ computeMean (delaysOf sender delays) := by
  rw [largestMeanDelay_le_iff (by decide)] at late
  push Not at late
  obtain ⟨sender, _, _, heard, above⟩ := late
  refine ⟨sender, heard, ?_⟩
  rw [← not_le, truncate_le_iff (by decide), not_lt] at above
  norm_num [syncDeadbandMs] at above
  exact above

/-- Outside the dead band the slot moves by 4 or 5 ms. -/
theorem four_le_syncDelta
    {numNodes : Nat}
    (positive : 0 < numNodes)
    {largestMeanDelay : Nat}
    (above : syncDeadbandMs < largestMeanDelay)
    (random : Nat) :
    4 ≤ syncDelta numNodes largestMeanDelay random := by
  unfold syncDeadbandMs at above
  unfold syncDelta
  rw [if_neg (by unfold syncDeadbandMs; omega), slotWidthMs_eq positive]
  have limited : min largestMeanDelay (max 1 (50 / 10)) = 5 := by
    omega
  dsimp only
  rw [limited]
  omega

/-! ## Phases -/

section

variable {numNodes : Nat}
variable {offsetMs : Nat → ℚ}

/-- A shift of the slot shifts its phase. -/
theorem IsPhase.shiftSlot
    {slotId : Nat}
    {slot : SlotLimits}
    {phase : ℚ}
    (isPhase : IsPhase numNodes offsetMs slotId slot.beginMs phase)
    (deltaMs : Nat) :
    IsPhase numNodes offsetMs slotId
      (RoutingMesh.shiftSlot numNodes slot deltaMs).beginMs
      (phase + deltaMs) := by
  have wraps :
      ((RoutingMesh.shiftSlot numNodes slot deltaMs).beginMs : ℚ) ≡
        slot.beginMs + deltaMs [PMOD (roundPeriodMs numNodes : ℚ)] := by
    rw [modEq_iff_zsmul]
    refine ⟨((slot.beginMs + deltaMs) / roundPeriodMs numNodes : Nat), ?_⟩
    have splits :=
      Nat.mod_add_div (slot.beginMs + deltaMs) (roundPeriodMs numNodes)
    have castSplits := congrArg (Nat.cast (R := ℚ)) splits
    push_cast at castSplits
    simp only [RoutingMesh.shiftSlot, Nat.add_mod_right]
    rw [zsmul_eq_mul, Int.cast_natCast]
    linarith
  have begins :=
    wraps.sub_right (offsetMs slotId + slotId * slotWidthMs numNodes)
  have moved := isPhase.add_right (deltaMs : ℚ)
  have regroup :
      (slot.beginMs : ℚ) + deltaMs -
          (offsetMs slotId + slotId * slotWidthMs numNodes) =
        slot.beginMs - offsetMs slotId - slotId * slotWidthMs numNodes +
          deltaMs := by
    ring
  rw [regroup] at begins
  unfold IsPhase
  rw [sub_sub]
  exact begins.trans moved

/-- Phases that are near tell what the delay of a beacon is. -/
theorem computeDelay_of_phases
    (atLeastTwo : 2 ≤ numNodes)
    {receiver sender beginMs : Nat}
    {slot : SlotLimits}
    (placed : slot.WellPlaced numNodes)
    {ownPhase phase : ℚ}
    (isOwn : IsPhase numNodes offsetMs receiver slot.beginMs ownPhase)
    (isPhase : IsPhase numNodes offsetMs sender beginMs phase)
    {stampedMs atMs timestampS : ℚ}
    (stamped : timestampS * 1000 = stampedMs + offsetMs sender)
    (above :
      -((roundPeriodMs numNodes : ℚ) / 2) <
        atMs - stampedMs + (phase - ownPhase))
    (below :
      atMs - stampedMs + (phase - ownPhase) ≤
        (roundPeriodMs numNodes : ℚ) / 2) :
    computeDelay numNodes receiver slot (atMs + offsetMs receiver) sender
        timestampS beginMs =
      atMs - stampedMs + (phase - ownPhase) := by
  have valid := valid_networkSettings atLeastTwo receiver
  have positive : (0 : ℚ) < roundPeriodMs numNodes := by
    have half := half_roundPeriodMs atLeastTwo
    linarith
  have phases := (isPhase.sub isOwn).add_left (atMs - stampedMs)
  have isError :
      (networkSettings numNodes receiver).phaseError slot
          (atMs + offsetMs receiver) sender timestampS beginMs ≡
        atMs - stampedMs + (phase - ownPhase)
        [PMOD (roundPeriodMs numNodes : ℚ)] := by
    have regroup :
        atMs + offsetMs receiver - (stampedMs + offsetMs sender - beginMs) -
            (slot.beginMs +
              ((sender : ℚ) - receiver) * slotWidthMs numNodes) =
          atMs - stampedMs +
            (beginMs - offsetMs sender - sender * slotWidthMs numNodes -
              (slot.beginMs - offsetMs receiver -
                receiver * slotWidthMs numNodes)) := by
      ring
    rw [SyncSettings.phaseError, stamped, widthMs_networkSettings,
      slotId_networkSettings, regroup]
    exact phases
  rw [computeDelay]
  exact centred_eq_of_modEq positive
    ((SyncSettings.rawDelay_modEq valid.whole placed.ends
      (atMs + offsetMs receiver) sender timestampS beginMs).trans isError)
    above below

end

/-! ## What a run keeps -/

/--
The setting of a chase: where the phases start, which node leads, and how long
beacons take.
-/
structure ChaseSetting where
  numNodes : Nat
  offsetMs : Nat → ℚ
  phase : Nat → ℚ
  leader : Nat
  latencyMs : ℚ

namespace ChaseSetting

/-- The leader's phase when the run starts. -/
def lead (setting : ChaseSetting) : ℚ :=
  setting.phase setting.leader

/--
The leader is a node that is counted, nobody is ahead of it, all are behind it
by less than half a frame, and what beacons take adds up to less than 5 ms
over the nodes.
-/
structure Valid (setting : ChaseSetting) : Prop where
  atLeastTwo : 2 ≤ setting.numNodes
  atMostMax : setting.numNodes ≤ maxNodes
  isNode : IsNode setting.numNodes setting.leader
  leads :
    ∀ slotId, IsNode setting.numNodes slotId →
      setting.phase slotId ≤ setting.lead
  near :
    ∀ slotId, IsNode setting.numNodes slotId →
      setting.lead + (setting.numNodes + 1) * setting.latencyMs <
        setting.phase slotId + (roundPeriodMs setting.numNodes : ℚ) / 2
  latencyNonneg : 0 ≤ setting.latencyMs
  prompt : (setting.numNodes + 1) * setting.latencyMs < 5

end ChaseSetting

/-- What is true of the network while the phases are at given positions. -/
structure Chase
    (setting : ChaseSetting)
    (network : SyncNetwork)
    (position : Nat → ℚ) : Prop where
  placed :
    ∀ slotId, IsNode setting.numNodes slotId →
      (network.node slotId).slot.WellPlaced setting.numNodes
  phases :
    ∀ slotId, IsNode setting.numNodes slotId →
      IsPhase setting.numNodes setting.offsetMs slotId
        (network.node slotId).slot.beginMs (position slotId)
  bounded :
    LeaderChase.Bounded (nodeSet setting.numNodes) setting.lead
      setting.latencyMs position
  forward : ∀ slotId, setting.phase slotId ≤ position slotId
  beacons :
    ∀ beacon ∈ network.beacons,
      IsNode setting.numNodes beacon.sender ∧
        beacon.timestampS * 1000 =
          beacon.stampedMs + setting.offsetMs beacon.sender ∧
        ∃ stamped,
          IsPhase setting.numNodes setting.offsetMs beacon.sender
            beacon.beginMs stamped ∧
          setting.phase beacon.sender ≤ stamped ∧
          stamped ≤ position beacon.sender
  delays :
    ∀ slotId, IsNode setting.numNodes slotId →
      ∀ entry ∈ (network.node slotId).delays,
        IsNode setting.numNodes entry.sender ∧
          setting.phase entry.sender ≤ entry.delayMs + position slotId ∧
          entry.delayMs + position slotId ≤
            position entry.sender + setting.latencyMs

section

variable {setting : ChaseSetting}
variable {network : SyncNetwork}
variable {position : Nat → ℚ}

theorem chase_syncStart
    (valid : setting.Valid)
    {slots : Nat → SlotLimits}
    (placed :
      ∀ slotId, IsNode setting.numNodes slotId →
        (slots slotId).WellPlaced setting.numNodes)
    (phases :
      ∀ slotId, IsNode setting.numNodes slotId →
        IsPhase setting.numNodes setting.offsetMs slotId
          (slots slotId).beginMs (setting.phase slotId))
    (stableRounds : Nat → Nat) :
    Chase setting (syncStart slots stableRounds) setting.phase where
  placed := placed
  phases := phases
  bounded :=
    bounded_of_le valid.latencyNonneg fun slotId member =>
      valid.leads slotId (mem_nodeSet.mp member)
  forward _ := le_rfl
  beacons := by simp [syncStart]
  delays := by simp [syncStart]

/-- No phase is further ahead of the leader than all beacons take together. -/
theorem Chase.le_limit
    (valid : setting.Valid)
    (chase : Chase setting network position)
    {slotId : Nat}
    (isNode : IsNode setting.numNodes slotId) :
    position slotId ≤
      setting.lead + setting.numNodes * setting.latencyMs := by
  have limit :=
    chase.bounded.le_limit valid.latencyNonneg (mem_nodeSet.mpr isNode)
  rwa [card_nodeSet] at limit

/-- A stamped beacon carries the phase of its sender. -/
theorem Chase.stamp
    (chase : Chase setting network position)
    {sender : Nat}
    (sends : IsNode setting.numNodes sender)
    (atMs : ℚ) :
    Chase setting
      (syncStep setting.numNodes setting.offsetMs network (.stamp sender atMs))
      position where
  placed := chase.placed
  phases := chase.phases
  bounded := chase.bounded
  forward := chase.forward
  beacons := by
    intro beacon listed
    rcases List.mem_append.mp listed with earlier | last
    · exact chase.beacons beacon earlier
    · rw [List.mem_singleton.mp last]
      exact ⟨sends, by ring, position sender, chase.phases sender sends,
        chase.forward sender, le_rfl⟩
  delays := chase.delays

/-- The delay of a beacon that is processed in time. -/
theorem Chase.delay_eq
    (valid : setting.Valid)
    (chase : Chase setting network position)
    {receiver : Nat}
    (receives : IsNode setting.numNodes receiver)
    {beacon : StampedBeacon}
    {stamped atMs : ℚ}
    (sends : IsNode setting.numNodes beacon.sender)
    (stampedAt :
      beacon.timestampS * 1000 =
        beacon.stampedMs + setting.offsetMs beacon.sender)
    (isPhase :
      IsPhase setting.numNodes setting.offsetMs beacon.sender beacon.beginMs
        stamped)
    (notBefore : setting.phase beacon.sender ≤ stamped)
    (notAfter : stamped ≤ position beacon.sender)
    (after : beacon.stampedMs ≤ atMs)
    (within : atMs ≤ beacon.stampedMs + setting.latencyMs) :
    computeDelay setting.numNodes receiver (network.node receiver).slot
        (atMs + setting.offsetMs receiver) beacon.sender beacon.timestampS
        beacon.beginMs =
      atMs - beacon.stampedMs + (stamped - position receiver) := by
  have ownLimit := chase.le_limit valid receives
  have senderLimit := chase.le_limit valid sends
  have ownNear := valid.near receiver receives
  have senderNear := valid.near beacon.sender sends
  have ownForward := chase.forward receiver
  have nonneg := valid.latencyNonneg
  refine computeDelay_of_phases valid.atLeastTwo
    (chase.placed receiver receives) (chase.phases receiver receives) isPhase
    stampedAt ?_ ?_ <;> linarith

/-- One node changes its recorded delays and keeps its slot. -/
theorem Chase.setDelays
    (chase : Chase setting network position)
    {changed : Nat}
    {next : SyncState}
    (sameSlot : next.slot = (network.node changed).slot)
    (delays :
      IsNode setting.numNodes changed →
        ∀ entry ∈ next.delays,
          IsNode setting.numNodes entry.sender ∧
            setting.phase entry.sender ≤ entry.delayMs + position changed ∧
            entry.delayMs + position changed ≤
              position entry.sender + setting.latencyMs) :
    Chase setting (network.set changed next) position := by
  have slots :
      ∀ slotId,
        ((network.set changed next).node slotId).slot =
          (network.node slotId).slot := by
    intro slotId
    by_cases isChanged : slotId = changed
    · rw [isChanged, SyncNetwork.node_set_self, sameSlot]
    · rw [SyncNetwork.node_set_other isChanged]
  refine ⟨?_, ?_, chase.bounded, chase.forward, chase.beacons, ?_⟩
  · intro slotId isNode
    rw [slots slotId]
    exact chase.placed slotId isNode
  · intro slotId isNode
    rw [slots slotId]
    exact chase.phases slotId isNode
  · intro slotId isNode
    by_cases isChanged : slotId = changed
    · subst isChanged
      rw [SyncNetwork.node_set_self]
      exact delays isNode
    · rw [SyncNetwork.node_set_other isChanged]
      exact chase.delays slotId isNode

/-- A beacon that is processed leaves a delay between the phases. -/
theorem Chase.process
    (valid : setting.Valid)
    (chase : Chase setting network position)
    {receiver : Nat}
    {beacon : StampedBeacon}
    {atMs : ℚ}
    (allowed :
      PromptEnabled setting.numNodes setting.latencyMs network
        (.process receiver beacon atMs)) :
    Chase setting
      (syncStep setting.numNodes setting.offsetMs network
        (.process receiver beacon atMs))
      position := by
  obtain ⟨⟨receives, listed, _, after, _⟩, within⟩ := allowed
  obtain ⟨sends, stampedAt, stamped, isPhase, notBefore, notAfter⟩ :=
    chase.beacons beacon listed
  have delay :=
    chase.delay_eq valid receives sends stampedAt isPhase notBefore notAfter
      after within
  refine chase.setDelays rfl fun _ entry recorded => ?_
  simp only [SyncState.recordDelay, delay] at recorded
  split at recorded
  · rcases List.mem_append.mp recorded with earlier | last
    · exact chase.delays receiver receives entry earlier
    · rw [List.mem_singleton.mp last]
      refine ⟨sends, ?_, ?_⟩ <;> dsimp only at within ⊢ <;> linarith
  · exact chase.delays receiver receives entry recorded

/-- On average a sender is as late as its phase is ahead, or less. -/
theorem Chase.mean_le
    (chase : Chase setting network position)
    {slotId sender : Nat}
    (isNode : IsNode setting.numNodes slotId)
    (heard : delaysOf sender (network.node slotId).delays ≠ []) :
    IsNode setting.numNodes sender ∧
      computeMean (delaysOf sender (network.node slotId).delays) ≤
        position sender + setting.latencyMs - position slotId := by
  constructor
  · obtain ⟨value, listed⟩ := List.exists_mem_of_ne_nil _ heard
    obtain ⟨entry, recorded, rfl, _⟩ := mem_delaysOf.mp listed
    exact (chase.delays slotId isNode entry recorded).1
  · refine computeMean_le heard fun value listed => ?_
    obtain ⟨entry, recorded, rfl, rfl⟩ := mem_delaysOf.mp listed
    have above := (chase.delays slotId isNode entry recorded).2.2
    linarith

/-- On average the leader is at least as late as it was ahead at the start. -/
theorem Chase.le_mean
    (chase : Chase setting network position)
    {slotId : Nat}
    (isNode : IsNode setting.numNodes slotId)
    (heard :
      delaysOf setting.leader (network.node slotId).delays ≠ []) :
    setting.lead - position slotId ≤
      computeMean
        (delaysOf setting.leader (network.node slotId).delays) := by
  refine le_computeMean heard fun value listed => ?_
  obtain ⟨entry, recorded, isLeader, rfl⟩ := mem_delaysOf.mp listed
  have above := (chase.delays slotId isNode entry recorded).2.1
  rw [isLeader] at above
  unfold ChaseSetting.lead
  linarith

/-- A node that sees somebody late enough is well behind the leader. -/
theorem Chase.behind_of_late
    (valid : setting.Valid)
    (chase : Chase setting network position)
    {slotId : Nat}
    (isNode : IsNode setting.numNodes slotId)
    (late :
      ¬ largestMeanDelay (network.node slotId).delays ≤ syncDeadbandMs) :
    position slotId ≤ setting.lead ∧
      position slotId + 5 ≤
        setting.lead +
          (ahead (nodeSet setting.numNodes) setting.lead position).card *
            setting.latencyMs +
          setting.latencyMs := by
  obtain ⟨sender, heard, mean⟩ := exists_late late
  obtain ⟨sends, small⟩ := chase.mean_le isNode heard
  have senderBounded := chase.bounded sender (mem_nodeSet.mpr sends)
  have senderLimit := chase.le_limit valid sends
  have prompt := valid.prompt
  constructor <;> linarith

/-- A late node moves its slot towards the leader. -/
theorem Chase.move
    (valid : setting.Valid)
    (chase : Chase setting network position)
    {slotId : Nat}
    (isNode : IsNode setting.numNodes slotId)
    (late :
      ¬ largestMeanDelay (network.node slotId).delays ≤ syncDeadbandMs)
    {deltaMs : Nat}
    (atMost : deltaMs ≤ 5)
    (stableRounds : Nat) :
    Chase setting
      (network.set slotId
        { slot :=
            shiftSlot setting.numNodes (network.node slotId).slot deltaMs
          delays := []
          stableRounds := stableRounds })
      (Function.update position slotId (position slotId + deltaMs)) := by
  have positive : 0 < setting.numNodes := by
    have atLeastTwo := valid.atLeastTwo
    omega
  have castAtMost : (deltaMs : ℚ) ≤ 5 := by
    exact_mod_cast atMost
  obtain ⟨behind, near⟩ := chase.behind_of_late valid isNode late
  have grows :
      ∀ other,
        position other ≤
          Function.update position slotId (position slotId + deltaMs)
            other := by
    intro other
    by_cases same : other = slotId
    · rw [same, Function.update_self]
      exact le_add_of_nonneg_right (Nat.cast_nonneg deltaMs)
    · rw [Function.update_of_ne same]
  constructor
  · intro other isOther
    by_cases same : other = slotId
    · rw [same, SyncNetwork.node_set_self]
      exact wellPlaced_shiftSlot positive _ deltaMs
    · rw [SyncNetwork.node_set_other same]
      exact chase.placed other isOther
  · intro other isOther
    by_cases same : other = slotId
    · rw [same, SyncNetwork.node_set_self, Function.update_self]
      exact (chase.phases slotId isNode).shiftSlot deltaMs
    · rw [SyncNetwork.node_set_other same, Function.update_of_ne same]
      exact chase.phases other isOther
  · exact chase.bounded.update valid.latencyNonneg (mem_nodeSet.mpr isNode)
      behind (by linarith)
  · exact fun other => (chase.forward other).trans (grows other)
  · intro beacon listed
    obtain ⟨sends, stampedAt, stamped, isPhase, notBefore, notAfter⟩ :=
      chase.beacons beacon listed
    exact ⟨sends, stampedAt, stamped, isPhase, notBefore,
      notAfter.trans (grows beacon.sender)⟩
  · intro other isOther entry recorded
    by_cases same : other = slotId
    · rw [same, SyncNetwork.node_set_self] at recorded
      cases recorded
    · rw [SyncNetwork.node_set_other same] at recorded
      rw [Function.update_of_ne same]
      obtain ⟨sends, above, below⟩ :=
        chase.delays other isOther entry recorded
      exact ⟨sends, above,
        below.trans (add_le_add_left (grows entry.sender) _)⟩

/-! ## What a step gains -/

/-- Moves gain 4 ms, and so does hearing the leader from 5 ms behind. -/
structure Gains
    (setting : ChaseSetting)
    (network : SyncNetwork)
    (action : SyncAction)
    (position later : Nat → ℚ) : Prop where
  moves :
    ∀ slotId,
      position slotId +
          4 *
            ((movingAdjustment setting.numNodes slotId network action).length :
              ℚ) ≤
        later slotId
  catchesUp :
    ∀ slotId,
      setting.lead - 5 < position slotId ∨
        position slotId +
            4 *
              ((adjustmentHearing setting.leader slotId network
                action).length : ℚ) ≤
          later slotId

/-- Steps other than adjustments gain nothing. -/
theorem gains_of_not_adjust
    {action : SyncAction}
    (notAdjust : ∀ slotId random, action ≠ .adjust slotId random) :
    Gains setting network action position position := by
  cases action with
  | stamp sender atMs =>
      exact ⟨fun slotId => by simp [movingAdjustment],
        fun slotId => .inr (by simp [adjustmentHearing])⟩
  | process receiver beacon atMs =>
      exact ⟨fun slotId => by simp [movingAdjustment],
        fun slotId => .inr (by simp [adjustmentHearing])⟩
  | adjust slotId random =>
      exact absurd rfl (notAdjust slotId random)

/-- An adjustment concerns one node. -/
theorem gains_adjust
    {adjusted random : Nat}
    {gain : ℚ}
    (nonneg : 0 ≤ gain)
    (moves :
      ((network.node adjusted).adjustSlot setting.numNodes adjusted
            random).slot ≠
          (network.node adjusted).slot →
        4 ≤ gain)
    (catchesUp :
      delaysOf setting.leader (network.node adjusted).delays ≠ [] →
        position adjusted ≤ setting.lead - 5 →
        4 ≤ gain) :
    Gains setting network (.adjust adjusted random) position
      (Function.update position adjusted (position adjusted + gain)) := by
  constructor
  · intro slotId
    by_cases same : slotId = adjusted
    · subst same
      rw [Function.update_self, movingAdjustment]
      split
      · rename_i isMoving
        have gained := moves isMoving.2
        rw [List.length_singleton]
        push_cast
        linarith
      · rw [List.length_nil]
        push_cast
        linarith
    · rw [Function.update_of_ne same, movingAdjustment,
        if_neg fun isMoving => same isMoving.1.symm]
      simp
  · intro slotId
    by_cases same : slotId = adjusted
    · subst same
      rcases lt_or_ge (setting.lead - 5) (position slotId) with near | behind
      · exact .inl near
      · right
        rw [Function.update_self, adjustmentHearing]
        split
        · rename_i isHearing
          have gained := catchesUp isHearing.2 behind
          rw [List.length_singleton]
          push_cast
          linarith
        · rw [List.length_nil]
          push_cast
          linarith
    · right
      rw [Function.update_of_ne same, adjustmentHearing,
        if_neg fun isHearing => same isHearing.1.symm]
      simp

/-- Who hears the leader from 5 ms behind is outside the dead band. -/
theorem Chase.late_of_hearing
    (valid : setting.Valid)
    (chase : Chase setting network position)
    {slotId : Nat}
    (isNode : IsNode setting.numNodes slotId)
    (heard :
      delaysOf setting.leader (network.node slotId).delays ≠ [])
    (behind : position slotId ≤ setting.lead - 5) :
    ¬ largestMeanDelay (network.node slotId).delays ≤ syncDeadbandMs := by
  have mean := chase.le_mean isNode heard
  obtain ⟨first, last⟩ := valid.isNode
  intro inBand
  rw [largestMeanDelay_le_iff (by decide)] at inBand
  have small :=
    inBand setting.leader first (last.trans valid.atMostMax) heard
  rw [truncate_le_iff (by decide)] at small
  norm_num [syncDeadbandMs] at small
  linarith

/-- Without delays or inside the dead band, an adjustment keeps the slot. -/
theorem Chase.adjust_of_quiet
    (valid : setting.Valid)
    (chase : Chase setting network position)
    {adjusted : Nat}
    (isNode : IsNode setting.numNodes adjusted)
    (quiet :
      (network.node adjusted).delays = [] ∨
        largestMeanDelay (network.node adjusted).delays ≤ syncDeadbandMs)
    (random : Nat) :
    Chase setting
        (syncStep setting.numNodes setting.offsetMs network
          (.adjust adjusted random))
        position ∧
      Gains setting network (.adjust adjusted random) position position := by
  have positive : 0 < setting.numNodes := by
    have atLeastTwo := valid.atLeastTwo
    omega
  have sameSlot :
      ((network.node adjusted).adjustSlot setting.numNodes adjusted
          random).slot =
        (network.node adjusted).slot := by
    rw [slot_adjustSlot positive (chase.placed adjusted isNode),
      if_pos quiet]
  constructor
  · refine chase.setDelays sameSlot fun _ entry recorded => ?_
    unfold SyncState.adjustSlot at recorded
    by_cases none : (network.node adjusted).delays = []
    · rw [if_pos none, none] at recorded
      cases recorded
    · rw [if_neg none, if_pos (quiet.resolve_left none)] at recorded
      cases recorded
  · have near :
        delaysOf setting.leader (network.node adjusted).delays ≠ [] →
          ¬ position adjusted ≤ setting.lead - 5 := by
      intro heard behind
      have late := chase.late_of_hearing valid isNode heard behind
      rcases quiet with none | inBand
      · rw [none] at heard
        exact heard rfl
      · exact late inBand
    have gains :
        Gains setting network (.adjust adjusted random) position
          (Function.update position adjusted (position adjusted + 0)) :=
      gains_adjust le_rfl (fun moves => absurd sameSlot moves)
        fun heard behind => absurd behind (near heard)
    rwa [add_zero, Function.update_eq_self] at gains

/-- Outside the dead band it moves the slot by 4 or 5 ms. -/
theorem Chase.adjust_of_late
    (valid : setting.Valid)
    (chase : Chase setting network position)
    {adjusted : Nat}
    (isNode : IsNode setting.numNodes adjusted)
    (some : (network.node adjusted).delays ≠ [])
    (late :
      ¬ largestMeanDelay (network.node adjusted).delays ≤ syncDeadbandMs)
    (random : Nat) :
    ∃ later,
      Chase setting
          (syncStep setting.numNodes setting.offsetMs network
            (.adjust adjusted random))
          later ∧
        Gains setting network (.adjust adjusted random) position later := by
  have positive : 0 < setting.numNodes := by
    have atLeastTwo := valid.atLeastTwo
    omega
  have above :
      syncDeadbandMs <
        (largestMeanDelay (network.node adjusted).delays).toNat := by
    omega
  have atLeast :
      (4 : ℚ) ≤
        syncDelta setting.numNodes
          (largestMeanDelay (network.node adjusted).delays).toNat random := by
    exact_mod_cast four_le_syncDelta positive above random
  have atMost :=
    syncDelta_le positive
      (largestMeanDelay (network.node adjusted).delays).toNat random
  refine ⟨_, ?_, gains_adjust (by linarith) (fun _ => atLeast)
    fun _ _ => atLeast⟩
  rw [syncStep, SyncState.adjustSlot, if_neg some, if_neg late,
    syncAdjustSlot_eq_shiftSlot positive (chase.placed adjusted isNode)]
  exact chase.move valid isNode late atMost 0

/-- Every step keeps the chase and gains what it should. -/
theorem Chase.step
    (valid : setting.Valid)
    (chase : Chase setting network position)
    {action : SyncAction}
    (allowed :
      PromptEnabled setting.numNodes setting.latencyMs network action) :
    ∃ later,
      Chase setting (syncStep setting.numNodes setting.offsetMs network action)
          later ∧
        Gains setting network action position later := by
  cases action with
  | stamp sender atMs =>
      exact ⟨position, chase.stamp allowed.1 atMs,
        gains_of_not_adjust (by simp)⟩
  | process receiver beacon atMs =>
      exact ⟨position, chase.process valid allowed,
        gains_of_not_adjust (by simp)⟩
  | adjust adjusted random =>
      have isNode : IsNode setting.numNodes adjusted := allowed.1
      by_cases quiet :
          (network.node adjusted).delays = [] ∨
            largestMeanDelay (network.node adjusted).delays ≤ syncDeadbandMs
      · exact ⟨position, chase.adjust_of_quiet valid isNode quiet random⟩
      · obtain ⟨some, late⟩ := not_or.mp quiet
        exact chase.adjust_of_late valid isNode some late random

end

/-! ## Runs -/

/-- What a run has gained since its start. -/
structure Gained
    (setting : ChaseSetting)
    (start : SyncNetwork)
    (actions : List SyncAction)
    (position : Nat → ℚ) : Prop where
  moves :
    ∀ slotId,
      setting.phase slotId +
          4 *
            (slotMoves setting.numNodes setting.offsetMs slotId start
              actions : ℚ) ≤
        position slotId
  catchesUp :
    ∀ slotId,
      setting.lead - 5 < position slotId ∨
        setting.phase slotId +
            4 *
              (adjustmentsHearing setting.numNodes setting.offsetMs
                setting.leader slotId start actions : ℚ) ≤
          position slotId

/-- The gains of a run and of one more step. -/
theorem Gained.append_singleton
    {setting : ChaseSetting}
    {start network : SyncNetwork}
    {actions : List SyncAction}
    {action : SyncAction}
    {position later : Nat → ℚ}
    (gained : Gained setting start actions position)
    (isAfter :
      network =
        actions.foldl (syncStep setting.numNodes setting.offsetMs) start)
    (gains : Gains setting network action position later) :
    Gained setting start (actions ++ [action]) later := by
  subst isAfter
  constructor
  · intro slotId
    have before := gained.moves slotId
    have more := gains.moves slotId
    rw [slotMoves, StepRun.trace_append_singleton, List.length_append]
    unfold slotMoves at before
    push_cast
    linarith
  · intro slotId
    have forward : position slotId ≤ later slotId := by
      have more := gains.moves slotId
      have some :
          (0 : ℚ) ≤
            (movingAdjustment setting.numNodes slotId
              (actions.foldl (syncStep setting.numNodes setting.offsetMs)
                start)
              action).length :=
        Nat.cast_nonneg _
      linarith
    rcases gained.catchesUp slotId with near | before
    · exact .inl (near.trans_le forward)
    · refine (gains.catchesUp slotId).imp (fun near => near.trans_le forward)
        fun more => ?_
      rw [adjustmentsHearing, StepRun.trace_append_singleton,
        List.length_append]
      unfold adjustmentsHearing at before
      push_cast
      linarith

/-- Where the phases are after a run. -/
theorem exists_chase
    {setting : ChaseSetting}
    (valid : setting.Valid)
    {slots : Nat → SlotLimits}
    (placed :
      ∀ slotId, IsNode setting.numNodes slotId →
        (slots slotId).WellPlaced setting.numNodes)
    (phases :
      ∀ slotId, IsNode setting.numNodes slotId →
        IsPhase setting.numNodes setting.offsetMs slotId
          (slots slotId).beginMs (setting.phase slotId))
    {stableRounds : Nat → Nat}
    {actions : List SyncAction}
    {network : SyncNetwork}
    (run :
      StepRun.Run (syncStep setting.numNodes setting.offsetMs)
        (PromptEnabled setting.numNodes setting.latencyMs)
        (syncStart slots stableRounds) actions network) :
    ∃ position,
      Chase setting network position ∧
        Gained setting (syncStart slots stableRounds) actions position := by
  induction run with
  | start =>
      refine ⟨setting.phase, chase_syncStart valid placed phases stableRounds,
        ⟨fun slotId => ?_, fun slotId => .inr ?_⟩⟩
      · simp [slotMoves, StepRun.trace]
      · simp [adjustmentsHearing, StepRun.trace]
  | next action earlier allowed inductionHypothesis =>
      obtain ⟨position, chase, gained⟩ := inductionHypothesis
      obtain ⟨later, chaseLater, gains⟩ := chase.step valid allowed
      exact ⟨later, chaseLater,
        gained.append_singleton earlier.final_eq_foldl gains⟩

/--
Take any number of nodes, any slots whose phases lie within half a frame, and
any run in which beacons are processed within a latency.  Then the phases stay
between where they started and the leader's, up to the latencies; each move
gains at least 4 ms, so a node moves at most a quarter of its distance in ms;
and a node that adjusted often enough after hearing the leader is within 5 ms
of it.
-/
theorem slots_converge
    {setting : ChaseSetting}
    (valid : setting.Valid)
    {slots : Nat → SlotLimits}
    (placed :
      ∀ slotId, IsNode setting.numNodes slotId →
        (slots slotId).WellPlaced setting.numNodes)
    (phases :
      ∀ slotId, IsNode setting.numNodes slotId →
        IsPhase setting.numNodes setting.offsetMs slotId
          (slots slotId).beginMs (setting.phase slotId))
    {stableRounds : Nat → Nat}
    {actions : List SyncAction}
    {network : SyncNetwork}
    (run :
      StepRun.Run (syncStep setting.numNodes setting.offsetMs)
        (PromptEnabled setting.numNodes setting.latencyMs)
        (syncStart slots stableRounds) actions network) :
    ∃ position : Nat → ℚ,
      ∀ slotId, IsNode setting.numNodes slotId →
        IsPhase setting.numNodes setting.offsetMs slotId
            (network.node slotId).slot.beginMs (position slotId) ∧
          setting.phase slotId ≤ position slotId ∧
          position slotId ≤
            setting.lead + setting.numNodes * setting.latencyMs ∧
          4 *
              (slotMoves setting.numNodes setting.offsetMs slotId
                (syncStart slots stableRounds) actions : ℚ) ≤
            position slotId - setting.phase slotId ∧
          (setting.lead - setting.phase slotId ≤
              4 *
                (adjustmentsHearing setting.numNodes setting.offsetMs
                  setting.leader slotId (syncStart slots stableRounds)
                  actions : ℚ) →
            setting.lead - 5 < position slotId) := by
  obtain ⟨position, chase, gained⟩ := exists_chase valid placed phases run
  refine ⟨position, fun slotId isNode => ⟨chase.phases slotId isNode,
    chase.forward slotId, chase.le_limit valid isNode, ?_, ?_⟩⟩
  · have moves := gained.moves slotId
    linarith
  · intro enough
    rcases gained.catchesUp slotId with near | caughtUp
    · exact near
    · linarith

/-- The clock of the second of two nodes is 30 ms ahead. -/
def secondAhead : Nat → ℚ
  | 2 => 30
  | _ => 0

/-- Their slots as `sync_init` places them: the first node leads. -/
def secondBehindFirst : ChaseSetting where
  numNodes := 2
  offsetMs := secondAhead
  phase := fun slotId => -50 - secondAhead slotId
  leader := 1
  latencyMs := 1

theorem valid_secondBehindFirst : secondBehindFirst.Valid where
  atLeastTwo := by decide
  atMostMax := by decide
  isNode := by decide
  leads := by
    rintro slotId ⟨first, last⟩
    unfold secondBehindFirst at last
    interval_cases slotId <;>
      norm_num [ChaseSetting.lead, secondBehindFirst, secondAhead]
  near := by
    rintro slotId ⟨first, last⟩
    unfold secondBehindFirst at last
    interval_cases slotId <;>
      norm_num [ChaseSetting.lead, secondBehindFirst, secondAhead,
        roundPeriodMs_eq]
  latencyNonneg := by norm_num [secondBehindFirst]
  prompt := by norm_num [secondBehindFirst]

/-- The phase of the slot of `sync_init` is the clock's offset, reversed. -/
theorem isPhase_syncInit
    {numNodes slotId : Nat}
    (isNode : IsNode numNodes slotId)
    (offsetMs : Nat → ℚ) :
    IsPhase numNodes offsetMs slotId (syncInit slotId numNodes).beginMs
      (-50 - offsetMs slotId) := by
  obtain ⟨first, last⟩ := isNode
  have same :
      ((syncInit slotId numNodes).beginMs : ℚ) - offsetMs slotId -
          slotId * slotWidthMs numNodes =
        -50 - offsetMs slotId := by
    simp only [syncInit, slotWidthMs_eq (by omega : 0 < numNodes)]
    rw [Nat.cast_mul, Nat.cast_sub first]
    push_cast
    ring
  rw [IsPhase, same]

/-- A beacon of the first node. -/
def firstBeacon : StampedBeacon where
  sender := 1
  stampedMs := 10
  timestampS := 10 / 1000
  beginMs := 0

/-- The second node hears it in eight rounds. -/
def hearsFirstEightTimes : List SyncAction :=
  .stamp 1 10 ::
    (List.replicate 8 [.process 2 firstBeacon 11, .adjust 2 50]).flatten

/-- It catches up with the first one. -/
theorem slots_converge_hearsFirstEightTimes :
    ∃ position : ℚ,
      IsPhase 2 secondAhead 2
          ((hearsFirstEightTimes.foldl (syncStep 2 secondAhead)
            (syncStart (fun slotId => syncInit slotId 2) fun _ => 0)).node
              2).slot.beginMs
          position ∧
        -55 < position ∧ position ≤ -48 := by
  have placed :
      ∀ slotId, IsNode 2 slotId → (syncInit slotId 2).WellPlaced 2 :=
    fun slotId isNode =>
      wellPlaced_syncInit ⟨by decide, by decide, isNode.1, isNode.2⟩
  obtain ⟨position, always⟩ :=
    slots_converge valid_secondBehindFirst placed
      (fun slotId isNode => isPhase_syncInit isNode secondAhead)
      (StepRun.Run.of_checkRun
        (by decide +kernel :
          StepRun.checkRun (syncStep 2 secondAhead) (PromptEnabled 2 1)
            (syncStart (fun slotId => syncInit slotId 2) fun _ => 0)
            hearsFirstEightTimes = true))
  obtain ⟨isPhase, _, limit, _, catchesUp⟩ := always 2 (by decide)
  have rounds :
      adjustmentsHearing 2 secondAhead 1 2
          (syncStart (fun slotId => syncInit slotId 2) fun _ => 0)
          hearsFirstEightTimes =
        8 := by
    decide +kernel
  refine ⟨position 2, isPhase, ?_, ?_⟩
  · have near := catchesUp ?_
    · norm_num [ChaseSetting.lead, secondBehindFirst, secondAhead] at near
      exact near
    · norm_num [ChaseSetting.lead, secondBehindFirst, secondAhead, rounds]
  · norm_num [ChaseSetting.lead, secondBehindFirst, secondAhead] at limit
    exact limit

end RoutingMesh
