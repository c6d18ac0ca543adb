import Mathlib.Order.Interval.Finset.Nat
import RoutingMesh.MatrixState

/-!
# The representation invariant of the topology matrix

Whatever the order of merges, serialisations, removals and quality updates,
the used part of the arrays stays well formed.  The invariant is carried on
the topology that the arrays store, where every operation is a formula, and
is read back at the positions at the end.
-/

namespace RoutingMesh

open CellArray KeyedCells

/-- The identifiers `1..numNodes` of the nodes of the network. -/
def InNetwork (numNodes : Nat) (id : UInt8) : Prop :=
  1 ≤ id.toNat ∧ id.toNat ≤ numNodes

instance (numNodes : Nat) : DecidablePred (InNetwork numNodes) :=
  fun _ => inferInstanceAs (Decidable (_ ∧ _))

/-- What a beacon of the network looks like once it is decoded. -/
structure WellFormedBeacon
    (numNodes : Nat)
    (newMat : TdmaMatrix) : Prop where
  distinct : newMat.idOfActiveNodes.Nodup
  inNetwork : ∀ id ∈ newMat.idOfActiveNodes, InNetwork numNodes id
  binary :
    ∀ i, i < newMat.numberOfActiveNodes →
      ∀ j, j < newMat.numberOfActiveNodes →
        newMat.matrix i j = 0 ∨ newMat.matrix i j = 1
  loopless :
    ∀ i, i < newMat.numberOfActiveNodes → newMat.matrix i i = 0
  recent :
    ∀ i, i < newMat.numberOfActiveNodes →
      0 ≤ newMat.age i ∧ newMat.age i < maxAge

theorem wellFormedBeacon_iff
    {numNodes : Nat}
    {newMat : TdmaMatrix} :
    WellFormedBeacon numNodes newMat ↔
      newMat.idOfActiveNodes.Nodup ∧
        (∀ id ∈ newMat.idOfActiveNodes, InNetwork numNodes id) ∧
        (∀ i, i < newMat.numberOfActiveNodes →
          ∀ j, j < newMat.numberOfActiveNodes →
            newMat.matrix i j = 0 ∨ newMat.matrix i j = 1) ∧
        (∀ i, i < newMat.numberOfActiveNodes → newMat.matrix i i = 0) ∧
        ∀ i, i < newMat.numberOfActiveNodes →
          0 ≤ newMat.age i ∧ newMat.age i < maxAge :=
  ⟨fun beacon =>
      ⟨beacon.distinct, beacon.inNetwork, beacon.binary, beacon.loopless,
        beacon.recent⟩,
    fun ⟨distinct, inNetwork, binary, loopless, recent⟩ =>
      ⟨distinct, inNetwork, binary, loopless, recent⟩⟩

instance (numNodes : Nat) : DecidablePred (WellFormedBeacon numNodes) :=
  fun _ =>
    -- Not by trying every identifier, which an enumeration of them offers.
    haveI := List.decidableBAll (InNetwork numNodes)
    decidable_of_iff' _ wellFormedBeacon_iff

/-- The merged beacon comes from another node and is well formed. -/
def ReceivesWellFormed
    (numNodes : Nat)
    (me : UInt8) : MatrixAction → Prop
  | .update newMat otherIp _ =>
      otherIp ≠ me ∧ WellFormedBeacon numNodes newMat
  | _ => True

instance (numNodes : Nat) (me : UInt8) :
    DecidablePred (ReceivesWellFormed numNodes me)
  | .update newMat otherIp _ =>
      inferInstanceAs
        (Decidable (otherIp ≠ me ∧ WellFormedBeacon numNodes newMat))
  | .serialize _ _ => .isTrue trivial
  | .removeDeadLinks _ => .isTrue trivial
  | .updateLinkQuality _ _ => .isTrue trivial
  | .setLinkQuality _ _ => .isTrue trivial

/-- The operations that a node of the network takes as time goes on. -/
def matrixEnabled
    (numNodes : Nat)
    (me : UInt8)
    (state : MatrixState)
    (action : MatrixAction) : Prop :=
  action.ClockForward state.clock ∧ ReceivesWellFormed numNodes me action

instance (numNodes : Nat) (me : UInt8) (state : MatrixState) :
    DecidablePred (matrixEnabled numNodes me state) :=
  fun _ => inferInstanceAs (Decidable (_ ∧ _))

/-- The representation invariant of the active part of `g_myMatrix`. -/
structure MatrixState.WellFormed
    (numNodes : Nat)
    (me : UInt8)
    (state : MatrixState) : Prop where
  ordered : state.myMatrix.idOfActiveNodes.Pairwise (· < ·)
  inNetwork :
    ∀ id ∈ state.myMatrix.idOfActiveNodes, InNetwork numNodes id
  self : me ∈ state.myMatrix.idOfActiveNodes
  bounded : state.myMatrix.numberOfActiveNodes ≤ numNodes
  binary :
    ∀ i, i < state.myMatrix.numberOfActiveNodes →
      ∀ j, j < state.myMatrix.numberOfActiveNodes →
        state.myMatrix.matrix i j = 0 ∨ state.myMatrix.matrix i j = 1
  loopless :
    ∀ i, i < state.myMatrix.numberOfActiveNodes →
      state.myMatrix.matrix i i = 0
  notInFuture :
    ∀ i, i < state.myMatrix.numberOfActiveNodes →
      state.myMatrix.creationTime i ≤ state.clock

/-- The invariant of the stored topology at clock reading `now`. -/
structure Topology.WellFormed
    (numNodes : Nat)
    (topology : Topology UInt8)
    (now : ℚ) : Prop where
  inNetwork : ∀ id ∈ topology.members, InNetwork numNodes id
  binary : ∀ a b, topology.link a b = 0 ∨ topology.link a b = 1
  loopless : ∀ a, topology.link a a = 0
  notInFuture : ∀ k ∈ topology.members, topology.created k ≤ now

/-- What a well-formed beacon reports. -/
structure Report.WellFormed
    (numNodes : Nat)
    (report : Report UInt8) : Prop where
  inNetwork : ∀ id ∈ report.members, InNetwork numNodes id
  binary : ∀ a b, report.link a b = 0 ∨ report.link a b = 1
  loopless : ∀ a, report.link a a = 0
  recent :
    ∀ k ∈ report.members, 0 ≤ report.age k ∧ report.age k < maxAge

theorem WellFormedBeacon.report
    {numNodes : Nat}
    {newMat : TdmaMatrix}
    (beacon : WellFormedBeacon numNodes newMat) :
    newMat.report.WellFormed numNodes where
  inNetwork id listed :=
    beacon.inNetwork id (TdmaMatrix.mem_report_members.mp listed)
  binary a b := by
    by_cases listed :
        a ∈ newMat.idOfActiveNodes ∧ b ∈ newMat.idOfActiveNodes
    · obtain ⟨i, iInBounds, rfl⟩ := List.getElem_of_mem listed.1
      obtain ⟨j, jInBounds, rfl⟩ := List.getElem_of_mem listed.2
      rw [TdmaMatrix.report_link_getElem beacon.distinct]
      exact beacon.binary i iInBounds j jInBounds
    · exact .inl (TdmaMatrix.readAt_of_not_listed listed _)
  loopless a := by
    by_cases listed : a ∈ newMat.idOfActiveNodes
    · obtain ⟨i, inBounds, rfl⟩ := List.getElem_of_mem listed
      rw [TdmaMatrix.report_link_getElem beacon.distinct]
      exact beacon.loopless i inBounds
    · exact TdmaMatrix.readAt_of_not_listed (fun both => listed both.1) _
  recent k listed := by
    obtain ⟨i, inBounds, rfl⟩ :=
      List.getElem_of_mem (TdmaMatrix.mem_report_members.mp listed)
    rw [TdmaMatrix.report_age_getElem beacon.distinct]
    exact beacon.recent i inBounds

namespace Topology.WellFormed

variable {numNodes : Nat} {topology : Topology UInt8} {now later : ℚ}

theorem mono
    (wellFormed : topology.WellFormed numNodes now)
    (forward : now ≤ later) :
    topology.WellFormed numNodes later :=
  { wellFormed with
    notInFuture := fun k listed =>
      (wellFormed.notInFuture k listed).trans forward }

/-- Expiring silent members keeps the cells of the others. -/
theorem expire
    (wellFormed : topology.WellFormed numNodes now)
    (me : UInt8)
    (time : ℚ) :
    (topology.expire me time).WellFormed numNodes now where
  inNetwork id kept :=
    wellFormed.inNetwork id (Topology.mem_alive.mp kept).1
  binary a b := by
    simp only [Topology.expire, Topology.restrict]
    split
    · exact wellFormed.binary a b
    · exact .inl rfl
  loopless a := by
    simp [Topology.expire, Topology.restrict, wellFormed.loopless]
  notInFuture k kept := by
    have listed := (Topology.mem_alive.mp kept).1
    have unchanged :
        (topology.expire me time).created k = topology.created k :=
      if_pos kept
    rw [unchanged]
    exact wellFormed.notInFuture k listed

/-- A refresh creates the own entry now. -/
theorem refresh
    (wellFormed : topology.WellFormed numNodes now)
    (me : UInt8) :
    (topology.refresh me now).WellFormed numNodes now :=
  { wellFormed with
    notInFuture := by
      intro k listed
      simp only [Topology.refresh]
      split
      · exact le_rfl
      · exact wellFormed.notInFuture k listed }

theorem rate
    (wellFormed : topology.WellFormed numNodes now)
    (me other : UInt8)
    (change : UInt8 → UInt8) :
    (topology.rate me other change).WellFormed numNodes now :=
  { wellFormed with }

/-- A merge takes each row from one of two well-formed sources. -/
theorem merge
    (wellFormed : topology.WellFormed numNodes now)
    {report : Report UInt8}
    (reported : report.WellFormed numNodes)
    (mode : LinkQualityMode)
    {me other : UInt8}
    (selfListed : me ∈ topology.members)
    (different : other ≠ me) :
    (topology.merge mode report me other now).WellFormed numNodes now where
  inNetwork id listed := by
    rcases Finset.mem_union.mp listed with known | new
    · exact wellFormed.inNetwork id known
    · exact reported.inNetwork id new
  binary a b := by
    simp only [Topology.merge, Topology.mergedLink]
    split
    · exact .inr rfl
    · split
      · exact reported.binary a b
      · exact wellFormed.binary a b
  loopless a := by
    simp only [Topology.merge, Topology.mergedLink]
    split
    · rename_i direct
      exact (different (direct.2.1.symm.trans direct.1)).elim
    · split
      · exact reported.loopless a
      · exact wellFormed.loopless a
  notInFuture k listed := by
    simp only [Topology.merge, Topology.mergedCreated]
    split
    · exact le_rfl
    · split
      · rename_i accepted
        have age := (reported.recent k accepted.1).1
        split
        · linarith
        · rename_i neither
          push Not at neither
          exact wellFormed.notInFuture k neither.2
      · rename_i rejected
        by_cases known : k ∈ topology.members
        · exact wellFormed.notInFuture k known
        · -- An unknown member is reported, and its report is accepted.
          have new : k ∈ report.members :=
            (Finset.mem_union.mp listed).resolve_left known
          have notSelf : k ≠ me := by
            rintro rfl
            exact known selfListed
          exact (rejected
            ⟨new, notSelf, (reported.recent k new).2, .inr (.inl known),
              .inl known⟩).elim

end Topology.WellFormed

/-- Every enabled operation keeps the invariant of the stored topology. -/
private theorem topologyWellFormed_matrixStep
    {mode : LinkQualityMode}
    {numNodes : Nat}
    {me : UInt8}
    {state : MatrixState}
    {action : MatrixAction}
    (listed : state.myMatrix.Listed me)
    (wellFormed :
      state.myMatrix.topology.WellFormed numNodes state.clock)
    (allowed : matrixEnabled numNodes me state action)
    (distinctIds : action.DistinctIds) :
    (matrixStep mode state action).myMatrix.topology.WellFormed numNodes
      (matrixStep mode state action).clock := by
  rw [topology_matrixStep listed distinctIds]
  obtain ⟨forward, receives⟩ := allowed
  have selfListed : me ∈ state.myMatrix.topology.members :=
    TdmaMatrix.mem_members.mpr listed.self
  cases action with
  | update newMat otherIp time =>
      exact (wellFormed.mono forward).merge receives.2.report mode
        selfListed receives.1
  | serialize removalTime time =>
      exact ((wellFormed.mono (forward.1.trans forward.2)).expire me
        removalTime).refresh me
  | removeDeadLinks time =>
      exact (wellFormed.mono forward).expire me time
  | updateLinkQuality nodeId timeout =>
      exact wellFormed.rate me nodeId (adjustQuality · timeout)
  | setLinkQuality nodeId quality =>
      exact wellFormed.rate me nodeId (fun _ => quality)

theorem ReceivesWellFormed.distinctIds
    {numNodes : Nat}
    {me : UInt8}
    {action : MatrixAction}
    (receives : ReceivesWellFormed numNodes me action) :
    action.DistinctIds := by
  cases action with
  | update newMat otherIp time => exact receives.2.distinct
  | serialize removalTime time => trivial
  | removeDeadLinks time => trivial
  | updateLinkQuality nodeId timeout => trivial
  | setLinkQuality nodeId quality => trivial

/-- Distinct identifiers of the network are no more than its nodes. -/
theorem length_le_of_inNetwork
    {numNodes : Nat}
    {ids : List UInt8}
    (distinct : ids.Nodup)
    (inNetwork : ∀ id ∈ ids, InNetwork numNodes id) :
    ids.length ≤ numNodes := by
  have inside :
      ids.toFinset.image UInt8.toNat ⊆ Finset.Icc 1 numNodes := by
    intro number isImage
    obtain ⟨id, listed, rfl⟩ := Finset.mem_image.mp isImage
    exact Finset.mem_Icc.mpr (inNetwork id (List.mem_toFinset.mp listed))
  have injective : Function.Injective UInt8.toNat :=
    fun _ _ => UInt8.toNat_inj.mp
  calc
    ids.length = ids.toFinset.card :=
      (List.toFinset_card_of_nodup distinct).symm
    _ = (ids.toFinset.image UInt8.toNat).card :=
      (Finset.card_image_of_injective _ injective).symm
    _ ≤ (Finset.Icc 1 numNodes).card := Finset.card_le_card inside
    _ = numNodes := by simp

/-- `MATRIX_init` stores a well-formed topology. -/
private theorem topologyWellFormed_matrixStart
    {numNodes : Nat}
    {me : UInt8}
    (own : InNetwork numNodes me)
    (time : ℚ) :
    (matrixStart me time).myMatrix.topology.WellFormed numNodes time where
  inNetwork id listed := by
    rw [TdmaMatrix.mem_members] at listed
    have isSelf : id = me := by
      simpa [matrixStart, matrixInit, TdmaMatrix.zeroed] using listed
    rw [isSelf]
    exact own
  binary a b := by
    simp [matrixStart, matrixInit, TdmaMatrix.zeroed, TdmaMatrix.topology]
  loopless a := by
    simp [matrixStart, matrixInit, TdmaMatrix.zeroed, TdmaMatrix.topology]
  notInFuture k listed := by
    rw [TdmaMatrix.mem_members] at listed
    have isSelf : k = me := by
      simpa [matrixStart, matrixInit, TdmaMatrix.zeroed] using listed
    simp [matrixStart, matrixInit, TdmaMatrix.zeroed, TdmaMatrix.topology,
      KeyedCells.read, isSelf]

/-- Every run from `MATRIX_init` stores a well-formed topology. -/
theorem topologyWellFormed_of_reachable
    {mode : LinkQualityMode}
    {numNodes : Nat}
    {me : UInt8}
    (own : InNetwork numNodes me)
    {time : ℚ}
    {state : MatrixState}
    (reachable :
      StepRun.Reachable (matrixStep mode) (matrixEnabled numNodes me)
        (matrixStart me time) state) :
    state.myMatrix.Listed me ∧
      state.myMatrix.topology.WellFormed numNodes state.clock :=
  reachable.invariant
    (fun state =>
      state.myMatrix.Listed me ∧
        state.myMatrix.topology.WellFormed numNodes state.clock)
    ⟨listed_matrixInit me time, topologyWellFormed_matrixStart own time⟩
    (fun {_ _} invariant allowed =>
      ⟨listed_matrixStep invariant.1,
        topologyWellFormed_matrixStep invariant.1 invariant.2 allowed
          allowed.2.distinctIds⟩)

/-- A reachable matrix lists no more nodes than the network has. -/
theorem numberOfActiveNodes_le_of_reachable
    {mode : LinkQualityMode}
    {numNodes : Nat}
    {me : UInt8}
    (own : InNetwork numNodes me)
    {time : ℚ}
    {state : MatrixState}
    (reachable :
      StepRun.Reachable (matrixStep mode) (matrixEnabled numNodes me)
        (matrixStart me time) state) :
    state.myMatrix.numberOfActiveNodes ≤ numNodes := by
  obtain ⟨listed, wellFormed⟩ := topologyWellFormed_of_reachable own reachable
  exact length_le_of_inNetwork listed.distinct
    (fun id member =>
      wellFormed.inNetwork id (TdmaMatrix.mem_members.mpr member))

/--
In every run of merges, serialisations, removals and quality updates from
`MATRIX_init` the used part of the topology matrix is well formed.
-/
theorem matrix_wellFormed_of_reachable
    (mode : LinkQualityMode)
    {numNodes : Nat}
    {me : UInt8}
    (own : InNetwork numNodes me)
    (time : ℚ)
    {state : MatrixState}
    (reachable :
      StepRun.Reachable (matrixStep mode) (matrixEnabled numNodes me)
        (matrixStart me time) state) :
    state.WellFormed numNodes me := by
  obtain ⟨listed, wellFormed⟩ := topologyWellFormed_of_reachable own reachable
  have inNetwork :
      ∀ id ∈ state.myMatrix.idOfActiveNodes, InNetwork numNodes id :=
    fun id member =>
      wellFormed.inNetwork id (TdmaMatrix.mem_members.mpr member)
  exact
    { ordered := listed.ordered
      inNetwork := inNetwork
      self := listed.self
      bounded := numberOfActiveNodes_le_of_reachable own reachable
      binary := by
        intro i iInBounds j jInBounds
        rw [← TdmaMatrix.link_getElem listed.distinct iInBounds jInBounds]
        exact wellFormed.binary _ _
      loopless := by
        intro i inBounds
        rw [← TdmaMatrix.link_getElem listed.distinct inBounds inBounds]
        exact wellFormed.loopless _
      notInFuture := by
        intro i inBounds
        rw [← TdmaMatrix.created_getElem listed.distinct inBounds]
        exact wellFormed.notInFuture _
          (TdmaMatrix.mem_members.mpr (List.getElem_mem inBounds)) }

/-- Node 1 merges a beacon of node 2, serialises twice, and forgets node 2. -/
def neighbourComesAndGoes : List MatrixAction :=
  [.update (beaconOfRows [2] [[0]] [0]) 2 1,
    .updateLinkQuality 2 true,
    .serialize 2 2,
    .serialize 4 4]

/-- The invariant holds after such a run, which its own checker accepts. -/
theorem matrix_wellFormed_neighbourComesAndGoes :
    (neighbourComesAndGoes.foldl (matrixStep .test)
      (matrixStart 1 0)).WellFormed 2 1 :=
  matrix_wellFormed_of_reachable .test (by decide) 0
    ⟨neighbourComesAndGoes, StepRun.Run.of_checkRun (by decide +kernel)⟩

end RoutingMesh
