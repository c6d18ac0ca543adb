import RoutingMesh.MatrixWellFormed
import RoutingMesh.Routing

/-!
# Snapshots of the tree and of the identifiers

`MATRIX_get_snapshot` copies the spanning tree beside the identifiers, but a
removal closes the gap in the identifiers and leaves the tree as it was.  The
two still belong together while every removed position lies above the edges
of the tree; otherwise an edge points at the wrong node, or at none.
-/

namespace RoutingMesh

open CellArray KeyedCells

/-- `MATRIX_get_snapshot`. -/
def matrixGetSnapshot (state : MatrixState) : MatrixSnapshot where
  idOfActiveNodes := state.myMatrix.idOfActiveNodes
  linkQuality := state.myMatrix.linkQuality
  mst := state.spanningTree

/--
Every edge of the copied tree joins two active positions with a link in at
least one direction.
-/
def MatrixState.Coherent (state : MatrixState) : Prop :=
  ∀ i j, (matrixGetSnapshot state).mst i j = 1 →
    i < (matrixGetSnapshot state).numberOfActiveNodes ∧
      j < (matrixGetSnapshot state).numberOfActiveNodes ∧
      (state.myMatrix.matrix i j ≠ 0 ∨ state.myMatrix.matrix j i ≠ 0)

/-- The position lies above both ends of every edge of the tree. -/
def IsAboveTree (state : MatrixState) (pos : Nat) : Prop :=
  ∀ i, i < state.treeIds.length →
    ∀ j, j < state.treeIds.length →
      state.spanningTree i j = 1 → i < pos ∧ j < pos

instance (state : MatrixState) : DecidablePred (IsAboveTree state) :=
  fun pos =>
    inferInstanceAs
      (Decidable
        (∀ i, i < state.treeIds.length →
          ∀ j, j < state.treeIds.length →
            state.spanningTree i j = 1 → i < pos ∧ j < pos))

/-- Every node that has expired at `time` has a position above the tree. -/
def ExpiresAboveTree (state : MatrixState) (time : ℚ) : Prop :=
  ∀ pos, pos < state.myMatrix.numberOfActiveNodes →
    isDeadAt state.myMatrix time pos = true → IsAboveTree state pos

/-- The operation removes no position at or below an edge of the tree. -/
def RemovesAboveTree (state : MatrixState) : MatrixAction → Prop
  | .serialize removalTime _ => ExpiresAboveTree state removalTime
  | .removeDeadLinks time => ExpiresAboveTree state time
  | _ => True

instance (state : MatrixState) (time : ℚ) :
    Decidable (ExpiresAboveTree state time) :=
  inferInstanceAs
    (Decidable
      (∀ pos, pos < state.myMatrix.numberOfActiveNodes →
        isDeadAt state.myMatrix time pos = true → IsAboveTree state pos))

instance (state : MatrixState) :
    DecidablePred (RemovesAboveTree state)
  | .update _ _ _ => .isTrue trivial
  | .serialize removalTime _ =>
      inferInstanceAs (Decidable (ExpiresAboveTree state removalTime))
  | .removeDeadLinks time =>
      inferInstanceAs (Decidable (ExpiresAboveTree state time))
  | .updateLinkQuality _ _ => .isTrue trivial
  | .setLinkQuality _ _ => .isTrue trivial

/-!
## The tree and the identifiers it was computed for
-/

/-- A cleared table stores the forest without edges. -/
theorem isForest_cleared (num : Nat) : IsForest num (fun _ _ => 0) where
  binary _ _ := .inl rfl
  symmetric _ _ := rfl
  loopless _ := rfl
  inBounds := by simp
  acyclic := by
    have noEdges :
        treeGraph (fun _ _ => 0) = (⊥ : SimpleGraph Nat) := by
      ext a b
      simp [treeGraph]
    rw [noEdges]
    exact SimpleGraph.isAcyclic_bot

/-- The stored tree is a forest over the identifiers it was computed for. -/
def MatrixState.Planted (state : MatrixState) : Prop :=
  IsForest state.treeIds.length state.spanningTree

theorem planted_matrixStart (me : UInt8) (time : ℚ) :
    (matrixStart me time).Planted :=
  isForest_cleared _

/-- Every operation leaves a forest. -/
theorem planted_matrixStep
    {mode : LinkQualityMode}
    {state : MatrixState}
    {action : MatrixAction}
    (planted : state.Planted) :
    (matrixStep mode state action).Planted := by
  cases action with
  | update newMat otherIp time =>
      exact isForest_primAlgorithmWeighted mode _
  | serialize removalTime time =>
      exact planted
  | removeDeadLinks time =>
      exact planted
  | updateLinkQuality nodeId timeout =>
      exact planted
  | setLinkQuality nodeId quality =>
      exact planted

/-!
## Removals above a position
-/

/-- Filtering does not move an element when everything up to it is kept. -/
theorem getElem?_filter_of_kept
    {α : Type*}
    {kept : α → Bool}
    {items : List α}
    {i : Nat}
    (allKept :
      ∀ q item, q ≤ i → items[q]? = some item → kept item = true) :
    (items.filter kept)[i]? = items[i]? := by
  induction items generalizing i with
  | nil =>
      rfl
  | cons head rest inductionHypothesis =>
      have headKept := allKept 0 head (Nat.zero_le _) rfl
      rw [List.filter_cons_of_pos headKept]
      cases i with
      | zero =>
          rfl
      | succ i =>
          apply inductionHypothesis
          intro q item before found
          exact allKept (q + 1) item (Nat.succ_le_succ before) found

/-- Below every expired position the removal moves nothing. -/
theorem removeDeadLinks_below
    {mat : TdmaMatrix}
    (distinct : mat.idOfActiveNodes.Nodup)
    {time : ℚ}
    {i : Nat}
    (below : ∀ pos, isDeadAt mat time pos = true → i < pos) :
    (removeDeadLinks mat time).idOfActiveNodes[i]? =
      mat.idOfActiveNodes[i]? := by
  rw [idOfActiveNodes_removeDeadLinks distinct]
  apply getElem?_filter_of_kept
  intro q id before owner
  rw [decide_eq_true_eq]
  by_contra silent
  have expired := (isDeadAt_iff distinct owner).mpr silent
  exact absurd (below q expired) (by omega)

/-- Below every expired position the links stay in their cells. -/
theorem matrix_removeDeadLinks_below
    {mat : TdmaMatrix}
    (distinct : mat.idOfActiveNodes.Nodup)
    {time : ℚ}
    {i j : Nat}
    (iBelow : ∀ pos, isDeadAt mat time pos = true → i < pos)
    (jBelow : ∀ pos, isDeadAt mat time pos = true → j < pos)
    (iInBounds : i < mat.idOfActiveNodes.length)
    (jInBounds : j < mat.idOfActiveNodes.length) :
    i < (removeDeadLinks mat time).idOfActiveNodes.length ∧
      j < (removeDeadLinks mat time).idOfActiveNodes.length ∧
      (removeDeadLinks mat time).matrix i j = mat.matrix i j := by
  have iOwner := removeDeadLinks_below distinct iBelow
  have jOwner := removeDeadLinks_below distinct jBelow
  rw [List.getElem?_eq_getElem iInBounds] at iOwner
  rw [List.getElem?_eq_getElem jInBounds] at jOwner
  obtain ⟨iKept, sameRow⟩ := List.getElem?_eq_some_iff.mp iOwner
  obtain ⟨jKept, sameColumn⟩ := List.getElem?_eq_some_iff.mp jOwner
  refine ⟨iKept, jKept, ?_⟩
  have keptDistinct :
      (removeDeadLinks mat time).idOfActiveNodes.Nodup := by
    rw [idOfActiveNodes_removeDeadLinks distinct]
    exact distinct.filter _
  have aliveOf :
      ∀ {k}, k ∈ (removeDeadLinks mat time).idOfActiveNodes →
        k ∈ mat.topology.alive mat.myId time := by
    intro k kept
    rw [idOfActiveNodes_removeDeadLinks distinct] at kept
    simpa using (List.mem_filter.mp kept).2
  have rowAlive := aliveOf (List.getElem_mem iKept)
  have columnAlive := aliveOf (List.getElem_mem jKept)
  calc
    (removeDeadLinks mat time).matrix i j
        = (removeDeadLinks mat time).topology.link
            (removeDeadLinks mat time).idOfActiveNodes[i]
            (removeDeadLinks mat time).idOfActiveNodes[j] :=
      (TdmaMatrix.link_getElem keptDistinct iKept jKept).symm
    _ = mat.topology.link
            (removeDeadLinks mat time).idOfActiveNodes[i]
            (removeDeadLinks mat time).idOfActiveNodes[j] := by
      rw [topology_removeDeadLinks distinct]
      exact if_pos ⟨rowAlive, columnAlive⟩
    _ = mat.topology.link mat.idOfActiveNodes[i] mat.idOfActiveNodes[j] := by
      rw [sameRow, sameColumn]
    _ = mat.matrix i j :=
      TdmaMatrix.link_getElem distinct iInBounds jInBounds

/-!
## Runs
-/

/-- A removal above the tree keeps the snapshot coherent. -/
private theorem coherent_removeDeadLinks
    {me : UInt8}
    {state next : MatrixState}
    {time : ℚ}
    (listed : state.myMatrix.Listed me)
    (planted : state.Planted)
    (coherent : state.Coherent)
    (above : ExpiresAboveTree state time)
    (sameTree : next.spanningTree = state.spanningTree)
    (sameIds :
      next.myMatrix.idOfActiveNodes =
        (removeDeadLinks state.myMatrix time).idOfActiveNodes)
    (sameLinks :
      next.myMatrix.matrix = (removeDeadLinks state.myMatrix time).matrix) :
    next.Coherent := by
  intro i j edge
  have edge : state.spanningTree i j = 1 := by
    rw [← sameTree]
    exact edge
  obtain ⟨iInBounds, jInBounds, isLinked⟩ := coherent i j edge
  obtain ⟨iPlanted, jPlanted⟩ := planted.inBounds edge
  have below :
      ∀ pos, isDeadAt state.myMatrix time pos = true → i < pos ∧ j < pos := by
    intro pos expired
    by_cases inBounds : pos < state.myMatrix.numberOfActiveNodes
    · exact above pos inBounds expired i iPlanted j jPlanted edge
    · have outside : state.myMatrix.idOfActiveNodes[pos]? = none :=
        List.getElem?_eq_none (not_lt.mp inBounds)
      simp [isDeadAt, outside] at expired
  obtain ⟨iKept, jKept, cell⟩ :=
    matrix_removeDeadLinks_below listed.distinct
      (fun pos expired => (below pos expired).1)
      (fun pos expired => (below pos expired).2) iInBounds jInBounds
  obtain ⟨_, _, cell'⟩ :=
    matrix_removeDeadLinks_below listed.distinct
      (fun pos expired => (below pos expired).2)
      (fun pos expired => (below pos expired).1) jInBounds iInBounds
  rw [← sameIds] at iKept jKept
  rw [sameLinks, cell, cell']
  exact ⟨iKept, jKept, isLinked⟩

/-- Every operation that removes nothing below the tree keeps the snapshot coherent. -/
theorem coherent_matrixStep
    {mode : LinkQualityMode}
    {me : UInt8}
    {state : MatrixState}
    {action : MatrixAction}
    (listed : state.myMatrix.Listed me)
    (planted : state.Planted)
    (coherent : state.Coherent)
    (above : RemovesAboveTree state action) :
    (matrixStep mode state action).Coherent := by
  cases action with
  | update newMat otherIp time =>
      intro i j edge
      obtain ⟨iInBounds, jInBounds, isLinked⟩ := linked_of_tree edge
      refine ⟨iInBounds, jInBounds, ?_⟩
      rw [linked, Bool.or_eq_true, bne_iff_ne, bne_iff_ne] at isLinked
      exact isLinked
  | serialize removalTime time =>
      exact coherent_removeDeadLinks listed planted coherent above rfl rfl rfl
  | removeDeadLinks time =>
      exact coherent_removeDeadLinks listed planted coherent above rfl rfl rfl
  | updateLinkQuality nodeId timeout =>
      intro i j edge
      have unchanged := coherent i j edge
      simpa [matrixStep, matrixGetSnapshot,
        MatrixSnapshot.numberOfActiveNodes,
        (updateLinkQuality_cells _ nodeId timeout).1] using unchanged
  | setLinkQuality nodeId quality =>
      intro i j edge
      have unchanged := coherent i j edge
      simpa [matrixStep, matrixGetSnapshot,
        MatrixSnapshot.numberOfActiveNodes,
        (setLinkQuality_cells _ nodeId quality).1] using unchanged

/--
Snapshots are coherent in every state of every run whose removals lie above
the edges of the stored tree.
-/
theorem snapshot_coherent_of_reachable
    (mode : LinkQualityMode)
    (me : UInt8)
    (time : ℚ)
    {state : MatrixState}
    (reachable :
      StepRun.Reachable (matrixStep mode) RemovesAboveTree
        (matrixStart me time) state) :
    state.Coherent := by
  have carried :=
    reachable.invariant
      (fun state =>
        state.myMatrix.Listed me ∧ state.Planted ∧ state.Coherent)
      ⟨listed_matrixInit me time, planted_matrixStart me time,
        fun i j edge => by simp [matrixGetSnapshot, matrixStart] at edge⟩
      (fun {_ _} invariant above =>
        ⟨listed_matrixStep invariant.1, planted_matrixStep invariant.2.1,
          coherent_matrixStep invariant.1 invariant.2.1 invariant.2.2
            above⟩)
  exact carried.2.2

/-- Node 2 reports a node 3 without links, which expires above the tree. -/
def isolatedNodeExpires : List MatrixAction :=
  [.update (beaconOfRows [2, 3] [[0, 0], [0, 0]] [0, 1]) 2 1,
    .serialize (5 / 2) (5 / 2)]

/-- That snapshot is coherent. -/
theorem snapshot_coherent_isolatedNodeExpires :
    (isolatedNodeExpires.foldl (matrixStep .test)
      (matrixStart 1 0)).Coherent :=
  snapshot_coherent_of_reachable .test 1 0
    ⟨isolatedNodeExpires, StepRun.Run.of_checkRun (by decide +kernel)⟩

/-- Node 2 sends one beacon and falls silent until it expires. -/
def neighbourExpires : List MatrixAction :=
  [.update (beaconOfRows [2] [[0]] [0]) 2 1,
    .serialize 4 4]

/-- After that the tree still joins position 0 to a position that is gone. -/
theorem snapshot_not_coherent_neighbourExpires :
    ¬ ∀ state,
      StepRun.Reachable (matrixStep .test) (matrixEnabled 2 1)
        (matrixStart 1 0) state →
      state.Coherent := by
  intro always
  have coherent :=
    always
      (neighbourExpires.foldl (matrixStep .test) (matrixStart 1 0))
      ⟨neighbourExpires, StepRun.Run.of_checkRun (by decide +kernel)⟩
  have outside := (coherent 0 1 (by decide +kernel)).2.1
  revert outside
  decide +kernel

end RoutingMesh
