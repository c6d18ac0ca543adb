import RoutingMesh.MatrixState

/-!
# Merging a beacon twice

The second merge of a beacon meets the entries that the first one left: those
that its reports set are no longer older, those of relayed reports keep their
creation time and take the same report again, and those of rejected reports
are rejected for the same reason.
-/

namespace RoutingMesh

open CellArray KeyedCells

namespace Topology

variable {Id : Type*} [DecidableEq Id]
variable {topology : Topology Id} {report : Report Id}
variable {me other k : Id} {now : ℚ}

/--
A report that the second merge accepts is a relayed one of a known member,
which the first merge accepted without a new creation time.
-/
theorem accepts_of_accepts_merge
    {mode : LinkQualityMode}
    (again :
      (topology.merge mode report me other now).Accepts report me other now
        k) :
    topology.Accepts report me other now k ∧
      k ≠ other ∧ k ∈ topology.members := by
  obtain ⟨reported, notSelf, recent, revives, newer⟩ := again
  have member : k ∈ (topology.merge mode report me other now).members :=
    Finset.mem_union_right _ reported
  have created :
      (topology.merge mode report me other now).created k = _ :=
    mergedCreated_of_ne notSelf
  have later := newer.resolve_left (fun unknown => unknown member)
  have alive := or_assoc.mpr revives
  simp only [member, not_true_eq_false, or_false] at alive
  by_cases sets :
      topology.Accepts report me other now k ∧
        (k = other ∨ k ∉ topology.members)
  · rw [created, if_pos sets] at later
    exact absurd later (lt_irrefl _)
  · rw [created, if_neg sets] at later alive
    have accepted : topology.Accepts report me other now k :=
      ⟨reported, notSelf, recent, alive.imp_right .inr, .inr later⟩
    obtain ⟨notSender, notUnknown⟩ :=
      not_or.mp fun either => sets ⟨accepted, either⟩
    exact ⟨accepted, notSender, not_not.mp notUnknown⟩

/-- Merging a report again changes no member, link, creation time or age. -/
theorem merge_merge
    (mode : LinkQualityMode) :
    let once := topology.merge mode report me other now
    let twice := once.merge mode report me other now
    twice.members = once.members ∧ twice.link = once.link ∧
      twice.created = once.created ∧ twice.age = once.age := by
  intro once twice
  have sameMembers : once.members ∪ report.members = once.members := by
    simp only [once, merge, Finset.union_assoc, Finset.union_self]
  refine ⟨sameMembers, ?_, ?_, ?_⟩
  · funext a b
    change once.mergedLink report me other now a b = _
    unfold mergedLink
    rw [sameMembers]
    split
    · rename_i own
      exact (if_pos own).symm
    · rename_i notOwn
      split
      · rename_i again
        exact ((if_neg notOwn).trans
          (if_pos (accepts_of_accepts_merge again).1)).symm
      · rfl
  · funext a
    change once.mergedCreated report me other now a = _
    unfold mergedCreated
    rw [sameMembers]
    split
    · rename_i own
      exact (if_pos own).symm
    · split
      · rename_i again
        obtain ⟨_, notSender, known⟩ := accepts_of_accepts_merge again
        have stillKnown : a ∈ once.members :=
          Finset.mem_union_left _ known
        exact if_neg (by simp [notSender, stillKnown])
      · rfl
  · funext a
    change (if once.Accepts report me other now a then _ else _) = _
    split
    · rename_i again
      exact (if_pos (accepts_of_accepts_merge again).1).symm
    · rfl

end Topology

/-- Two matrices list the same nodes with the same rows, times and ages. -/
structure SameEntries (first second : TdmaMatrix) : Prop where
  ids : second.idOfActiveNodes = first.idOfActiveNodes
  matrix :
    ∀ i, i < first.numberOfActiveNodes →
      ∀ j, j < first.numberOfActiveNodes →
        second.matrix i j = first.matrix i j
  creationTime :
    ∀ i, i < first.numberOfActiveNodes →
      second.creationTime i = first.creationTime i
  age :
    ∀ i, i < first.numberOfActiveNodes → second.age i = first.age i

/-- Equal identifiers and equal cells by identifier are equal cells. -/
theorem sameEntries_of_topology
    {first second : TdmaMatrix}
    (distinct : first.idOfActiveNodes.Nodup)
    (ids : second.idOfActiveNodes = first.idOfActiveNodes)
    (links : second.topology.link = first.topology.link)
    (created : second.topology.created = first.topology.created)
    (ages : second.topology.age = first.topology.age) :
    SameEntries first second := by
  simp only [TdmaMatrix.topology, ids] at links created ages
  refine ⟨ids, ?_, ?_, ?_⟩
  · intro i iInBounds j jInBounds
    have cell :=
      congrFun (congrFun links first.idOfActiveNodes[i])
        first.idOfActiveNodes[j]
    rwa [readAt_getElem distinct iInBounds jInBounds,
      readAt_getElem distinct iInBounds jInBounds] at cell
  · intro i inBounds
    have cell := congrFun created first.idOfActiveNodes[i]
    rwa [read_getElem distinct inBounds, read_getElem distinct inBounds]
      at cell
  · intro i inBounds
    have cell := congrFun ages first.idOfActiveNodes[i]
    rwa [read_getElem distinct inBounds, read_getElem distinct inBounds]
      at cell

/-- Listing the identifiers of a beacon again lists no new one. -/
theorem discoverIds_mergedMatrix
    (mode : LinkQualityMode)
    {mine newMat : TdmaMatrix}
    (distinct : mine.idOfActiveNodes.Nodup)
    (otherIp : UInt8)
    (time : ℚ) :
    discoverIds (mergedMatrix mode mine newMat otherIp time) newMat =
      discoverIds mine newMat := by
  have onceOrdered := pairwise_lt_discoverIds distinct newMat
  have onceDistinct :
      (mergedMatrix mode mine newMat otherIp time).idOfActiveNodes.Nodup := by
    rw [idOfActiveNodes_mergedMatrix]
    exact nodup_discoverIds distinct newMat
  have twiceOrdered := pairwise_lt_discoverIds onceDistinct newMat
  refine List.Perm.eq_of_pairwise ?_ twiceOrdered onceOrdered ?_
  · intro a b _ _ less greater
    exact absurd greater (UInt8.lt_asymm less)
  · refine (List.perm_ext_iff_of_nodup (nodup_discoverIds onceDistinct newMat)
      (nodup_discoverIds distinct newMat)).mpr fun id => ?_
    rw [mem_discoverIds, idOfActiveNodes_mergedMatrix, mem_discoverIds]
    tauto

/--
For every matrix with distinct identifiers that lists the local node, every
beacon with distinct identifiers, every sender and every time, merging the
beacon a second time leaves the identifiers, rows, creation times and ages.
-/
theorem matrixUpdate_idempotent
    (mode : LinkQualityMode)
    {mine newMat : TdmaMatrix}
    (distinct : mine.idOfActiveNodes.Nodup)
    (selfListed : mine.myId ∈ mine.idOfActiveNodes)
    (newDistinct : newMat.idOfActiveNodes.Nodup)
    (otherIp : UInt8)
    (time : ℚ) :
    SameEntries (mergedMatrix mode mine newMat otherIp time)
      (mergedMatrix mode (mergedMatrix mode mine newMat otherIp time) newMat
        otherIp time) := by
  have once :=
    topology_mergedMatrix mode distinct selfListed newDistinct otherIp time
  have onceDistinct :
      (mergedMatrix mode mine newMat otherIp time).idOfActiveNodes.Nodup := by
    rw [idOfActiveNodes_mergedMatrix]
    exact nodup_discoverIds distinct newMat
  have onceListed :
      (mergedMatrix mode mine newMat otherIp time).myId ∈
        (mergedMatrix mode mine newMat otherIp time).idOfActiveNodes := by
    rw [myId_mergedMatrix, idOfActiveNodes_mergedMatrix, mem_discoverIds]
    exact .inl selfListed
  have twice :=
    topology_mergedMatrix mode onceDistinct onceListed newDistinct otherIp time
  rw [myId_mergedMatrix, once] at twice
  obtain ⟨-, links, created, ages⟩ :=
    mine.topology.merge_merge mode
  refine sameEntries_of_topology onceDistinct ?_ ?_ ?_ ?_
  · rw [idOfActiveNodes_mergedMatrix, discoverIds_mergedMatrix mode distinct,
      idOfActiveNodes_mergedMatrix]
  · rw [twice, once]
    exact links
  · rw [twice, once]
    exact created
  · rw [twice, once]
    exact ages

/-- Node 1 knows node 3 from node 2 and merges a relay of node 4, twice. -/
theorem matrixUpdate_idempotent_relayed :
    let mine :=
      mergedMatrix .test (matrixInit 1 0)
        (beaconOfRows [2, 3] [[0, 1], [1, 0]] [0, 1 / 2]) 2 1
    let beacon := beaconOfRows [4, 3] [[0, 1], [1, 0]] [0, 1 / 4]
    SameEntries (mergedMatrix .test mine beacon 4 (3 / 2))
      (mergedMatrix .test (mergedMatrix .test mine beacon 4 (3 / 2)) beacon 4
        (3 / 2)) :=
  matrixUpdate_idempotent .test (by decide +kernel) (by decide +kernel)
    (by decide) 4 (3 / 2)

end RoutingMesh
