import RoutingMesh.MergedQualities
import RoutingMesh.MeshNode

/-!
# Whom an expired report admits

`discoverIds` unites the identifiers before any age is looked at, and the loop
over the reports skips the expired ones later.  So an unknown node is listed
whatever the age of its report; its creation time is set only by a report that
the loop does not skip.
-/

namespace RoutingMesh

open CellArray KeyedCells

/-- The beacon holds a report of `id` that is younger than `MAX_AGE`. -/
def HasRecentReport (newMat : TdmaMatrix) (id : UInt8) : Prop :=
  ∃ i, i < newMat.numberOfActiveNodes ∧
    newMat.idOfActiveNodes[i]? = some id ∧ newMat.age i < maxAge

instance (newMat : TdmaMatrix) : DecidablePred (HasRecentReport newMat) :=
  fun _ => inferInstanceAs (Decidable (∃ i, i < _ ∧ _ ∧ _))

/-- Every unknown node of the beacon has a report younger than `MAX_AGE`. -/
def UnknownReportsRecent (mine newMat : TdmaMatrix) : Prop :=
  ∀ id ∈ newMat.idOfActiveNodes,
    id ∉ mine.idOfActiveNodes → HasRecentReport newMat id

instance (mine newMat : TdmaMatrix) :
    Decidable (UnknownReportsRecent mine newMat) :=
  inferInstanceAs (Decidable (∀ id ∈ _, _ → _))

/--
An expired report admits nobody: who is listed anew was created within
`MAX_AGE`, who has expired reports only is in no list and in no tree, and a
beacon whose unknown nodes are all of that kind raises `topology_changed` by
the tree of the nodes listed before alone.
-/
structure AdmitsRecentOnly
    (before after : MatrixState)
    (newMat : TdmaMatrix)
    (time : ℚ) : Prop where
  created :
    ∀ id ∈ after.myMatrix.idOfActiveNodes,
      id ∉ before.myMatrix.idOfActiveNodes →
        time - maxAge < after.myMatrix.topology.created id
  unlisted :
    ∀ id, id ∉ before.myMatrix.idOfActiveNodes →
      ¬ HasRecentReport newMat id →
        id ∉ after.myMatrix.idOfActiveNodes ∧ id ∉ after.treeIds
  undecided :
    (∀ id ∈ newMat.idOfActiveNodes,
      id ∉ before.myMatrix.idOfActiveNodes →
        ¬ HasRecentReport newMat id) →
      topologyChanged before.myMatrix.numberOfActiveNodes
          before.spanningTree after = true →
        ∃ i, i < before.myMatrix.numberOfActiveNodes ∧
          ∃ j, j < before.myMatrix.numberOfActiveNodes ∧
            before.spanningTree i j ≠ after.spanningTree i j

/-! ## The loop over the reports -/

/-- The report of an unknown node is accepted unless it is expired. -/
theorem created_acceptReport_of_unknown
    {localMat newMat final : TdmaMatrix}
    (distinct : final.idOfActiveNodes.Nodup)
    (otherIp : UInt8)
    (time : ℚ)
    {id : UInt8}
    {i : Nat}
    (notSelf : id ≠ localMat.myId)
    (unknown : id ∉ localMat.idOfActiveNodes)
    (listed : id ∈ final.idOfActiveNodes)
    (recent : newMat.age i < maxAge) :
    (acceptReport localMat newMat final otherIp time id i).topology.created
        id =
      time - newMat.age i := by
  have notFound : searchId localMat id = none := by
    simpa [searchId] using unknown
  obtain ⟨finalPos, finalOwned⟩ := exists_position listed
  have found : searchId final id = some finalPos := finalOwned
  unfold acceptReport
  rw [if_neg (by simp [notSelf, recent])]
  simp only [notFound, found, localEntryExpired, reportIsNewer, Bool.and_false,
    Bool.false_eq_true, ↓reduceIte, ite_self]
  exact (read_write distinct finalOwned _ _ id).trans (if_pos rfl)

/-- The node `k` is listed and was created within `MAX_AGE`. -/
structure CreatedRecently
    (ids : List UInt8)
    (k : UInt8)
    (time : ℚ)
    (state : TdmaMatrix) : Prop where
  ids : state.idOfActiveNodes = ids
  created : time - maxAge < state.topology.created k

/-- Considering any report keeps an unknown node recent. -/
theorem CreatedRecently.acceptReport
    {ids : List UInt8}
    {k : UInt8}
    {time : ℚ}
    {state : TdmaMatrix}
    (recently : CreatedRecently ids k time state)
    (distinct : ids.Nodup)
    (localMat newMat : TdmaMatrix)
    (otherIp : UInt8)
    (notSelf : k ≠ localMat.myId)
    (unknown : k ∉ localMat.idOfActiveNodes)
    (listed : k ∈ ids)
    (id : UInt8)
    (i : Nat) :
    CreatedRecently ids k time
      (acceptReport localMat newMat state otherIp time id i) := by
  have stateDistinct : state.idOfActiveNodes.Nodup := by
    rw [recently.ids]
    exact distinct
  refine ⟨(idOfActiveNodes_acceptReport ..).trans recently.ids, ?_⟩
  by_cases isNode : id = k
  · subst isNode
    by_cases recent : newMat.age i < maxAge
    · rw [created_acceptReport_of_unknown stateDistinct otherIp time notSelf
        unknown (by rw [recently.ids]; exact listed) recent]
      linarith
    · rw [RoutingMesh.acceptReport, if_pos (.inr (not_lt.mp recent))]
      exact recently.created
  · have same :=
      entry_acceptReport_of_ne stateDistinct localMat newMat otherIp time
        (Ne.symm isNode) i
    have sameCreated := congrArg Entry.created same
    exact lt_of_lt_of_eq recently.created sameCreated.symm

/-- One recent report in the rest of a beacon is enough for an unknown node. -/
theorem created_acceptReports_of_recent
    {localMat newMat : TdmaMatrix}
    {ids : List UInt8}
    {k otherIp : UInt8}
    {time : ℚ}
    (distinct : ids.Nodup)
    (notSelf : k ≠ localMat.myId)
    (unknown : k ∉ localMat.idOfActiveNodes)
    (listed : k ∈ ids)
    {rest : List UInt8} :
    ∀ {final : TdmaMatrix} {start i : Nat},
      final.idOfActiveNodes = ids →
      rest[i]? = some k →
      newMat.age (start + i) < maxAge →
      CreatedRecently ids k time
        (forEachFrom
          (fun final id i =>
            acceptReport localMat newMat final otherIp time id i)
          final rest start) := by
  induction rest with
  | nil =>
      intro final start i _ reported _
      simp at reported
  | cons id rest inductionHypothesis =>
      intro final start i sameIds reported recent
      have keptIds :
          (acceptReport localMat newMat final otherIp time id
            start).idOfActiveNodes = ids :=
        (idOfActiveNodes_acceptReport ..).trans sameIds
      rw [forEachFrom]
      cases i with
      | zero =>
          obtain rfl : id = k := by
            simpa using reported
          rw [Nat.add_zero] at recent
          -- The first recent report sets the time; the others keep it recent.
          refine forEachFrom_invariant
            (fun recently =>
              recently.acceptReport distinct localMat newMat otherIp notSelf
                unknown listed _ _)
            ⟨keptIds, ?_⟩
          rw [created_acceptReport_of_unknown (by rw [sameIds]; exact distinct)
            otherIp time notSelf unknown (by rw [sameIds]; exact listed)
            recent]
          linarith
      | succ i =>
          have reportedLater : rest[i]? = some k := by
            simpa using reported
          refine inductionHypothesis keptIds reportedLater ?_
          rwa [Nat.add_assoc, Nat.add_comm 1]

/-! ## The merge -/

/-- A merge leaves an unknown node with a recent report a recent time. -/
theorem created_mergedMatrix_of_recent
    (mode : LinkQualityMode)
    {mine newMat : TdmaMatrix}
    {me id : UInt8}
    (listed : mine.Listed me)
    (otherIp : UInt8)
    (time : ℚ)
    (unknown : id ∉ mine.idOfActiveNodes)
    (recent : HasRecentReport newMat id) :
    time - maxAge <
      (mergedMatrix mode mine newMat otherIp time).topology.created id := by
  obtain ⟨i, _, reported, young⟩ := recent
  have notSelf : id ≠ mine.myId := fun isSelf =>
    unknown (isSelf ▸ listed.selfListed)
  have distinct := nodup_discoverIds listed.distinct newMat
  have member : id ∈ discoverIds mine newMat :=
    mem_discoverIds.mpr (.inr (List.mem_of_getElem? reported))
  have accepted :
      CreatedRecently (discoverIds mine newMat) id time
        (acceptedMatrix (updateLinkQuality mine otherIp false) newMat
          otherIp time) := by
    refine created_acceptReports_of_recent distinct (by simpa using notSelf)
      (by simpa using unknown) member ?_ reported
      (by rwa [Nat.zero_add])
    exact (inFrame_copiedMatrix _ newMat).ids.trans
      (discoverIds_updateLinkQuality ..)
  obtain ⟨-, confirms⟩ :=
    cells_confirmedMatrix listed.distinct listed.selfListed newMat otherIp
      time rfl
  have kept := (confirms id).trans (if_neg (fun both => notSelf both.1))
  rw [topology_mergedMatrix_of_confirmed mode listed.distinct
    listed.selfListed]
  exact lt_of_lt_of_eq accepted.created kept.symm

/-- With the same number of nodes `topology_changed` compares the trees. -/
theorem exists_cell_of_topologyChanged
    {nodesBefore : Nat}
    {oldMst : Nat → Nat → UInt8}
    {after : MatrixState}
    (sameNumber : after.myMatrix.numberOfActiveNodes = nodesBefore)
    (raised : topologyChanged nodesBefore oldMst after = true) :
    ∃ i, i < nodesBefore ∧
      ∃ j, j < nodesBefore ∧ oldMst i j ≠ after.spanningTree i j := by
  subst sameNumber
  simp only [topologyChanged, ne_eq, not_true_eq_false, decide_false,
    Bool.false_or, Bool.and_eq_true, List.any_eq_true, List.mem_range,
    bne_iff_ne] at raised
  exact raised.2

/--
For every reachable state and every decoded beacon, whatever its ages and
whether its identifiers are distinct, an expired report admits nobody exactly
when every unknown node of the beacon also has a report that is not expired.
-/
theorem expiredReports_admitNobody_iff
    (mode : LinkQualityMode)
    (me : UInt8)
    (start : ℚ)
    {state : MatrixState}
    (reachable :
      StepRun.Reachable (matrixStep mode) (fun _ _ => True)
        (matrixStart me start) state)
    (newMat : TdmaMatrix)
    (otherIp : UInt8)
    (time : ℚ) :
    AdmitsRecentOnly state
        (matrixStep mode state (.update newMat otherIp time)) newMat time ↔
      UnknownReportsRecent state.myMatrix newMat := by
  have listed := listed_of_reachable reachable
  have union :
      ∀ id,
        id ∈ (mergedMatrix mode state.myMatrix newMat otherIp
            time).idOfActiveNodes ↔
          id ∈ state.myMatrix.idOfActiveNodes ∨
            id ∈ newMat.idOfActiveNodes := by
    intro id
    rw [idOfActiveNodes_mergedMatrix, mem_discoverIds]
  constructor
  · intro admits id reported unknown
    by_contra expired
    exact (admits.unlisted id unknown expired).1
      ((union id).mpr (.inr reported))
  · intro recent
    have unlisted :
        ∀ id, id ∉ state.myMatrix.idOfActiveNodes →
          ¬ HasRecentReport newMat id →
            id ∉ (mergedMatrix mode state.myMatrix newMat otherIp
              time).idOfActiveNodes := by
      intro id unknown expired member
      rcases (union id).mp member with known | reported
      · exact unknown known
      · exact expired (recent id reported unknown)
    refine ⟨?_, fun id unknown expired => ?_, ?_⟩
    · intro id member unknown
      have reported := ((union id).mp member).resolve_left unknown
      exact created_mergedMatrix_of_recent mode listed otherIp time unknown
        (recent id reported unknown)
    · exact ⟨unlisted id unknown expired, unlisted id unknown expired⟩
    · intro allExpired raised
      have merged := listed.mergedMatrix mode newMat otherIp time
      have sameMembers :
          ∀ id,
            id ∈ (mergedMatrix mode state.myMatrix newMat otherIp
                time).idOfActiveNodes ↔
              id ∈ state.myMatrix.idOfActiveNodes := by
        intro id
        rw [union]
        refine or_iff_left_of_imp fun reported => ?_
        by_contra unknown
        exact allExpired id reported unknown (recent id reported unknown)
      have sameNumber :
          (mergedMatrix mode state.myMatrix newMat otherIp
              time).numberOfActiveNodes =
            state.myMatrix.numberOfActiveNodes :=
        ((List.perm_ext_iff_of_nodup merged.distinct
          listed.distinct).mpr sameMembers).length_eq
      exact exists_cell_of_topologyChanged sameNumber raised

/-- A beacon of node 2 that relays node 3 with the given age. -/
def relaysOther (age : ℚ) : TdmaMatrix :=
  beaconOfRows [2, 3] [[0, 1], [1, 0]] [0, age]

/-- Node 1 admits node 3 by a report that is a second old. -/
theorem expiredReports_admitNobody_relaysOther :
    AdmitsRecentOnly (matrixStart 1 0)
      (matrixStep .test (matrixStart 1 0) (.update (relaysOther 1) 2 5))
      (relaysOther 1) 5 :=
  (expiredReports_admitNobody_iff .test 1 0 ⟨[], .start⟩ (relaysOther 1) 2
    5).mpr (by decide +kernel)

/-- Node 1 also lists node 3 when its only report is three seconds old. -/
theorem expiredReports_admit_relaysOther :
    ¬ ∀ (mode : LinkQualityMode) (me : UInt8) (start : ℚ)
        (state : MatrixState),
      StepRun.Reachable (matrixStep mode) (fun _ _ => True)
        (matrixStart me start) state →
      ∀ newMat otherIp time,
        AdmitsRecentOnly state
          (matrixStep mode state (.update newMat otherIp time)) newMat
          time := by
  intro always
  have admits :=
    always .test 1 0 (matrixStart 1 0) ⟨[], .start⟩ (relaysOther 3) 2 5
  have unlisted := (admits.unlisted 3 (by decide +kernel) (by decide +kernel)).1
  revert unlisted
  decide +kernel

end RoutingMesh
