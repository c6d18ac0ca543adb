import RoutingMesh.MergeRefinement
import RoutingMesh.PrimTree
import RoutingMesh.StepRun

/-!
# The state of `matrix.c` and its operations

The two globals of `matrix.c`, the operations that other threads call on them
under `g_matrix_mutex`, and what every order of these operations preserves.
Each operation is one atomic step.  Two fields are kept beside the globals and
read by no operation: the last clock reading, so that a run can say that
readings do not decrease, and the identifiers that the spanning tree was
computed for.
-/

namespace RoutingMesh

open CellArray KeyedCells

/-- `g_myMatrix` and `g_spanningTree`, with the history that runs speak of. -/
structure MatrixState where
  myMatrix : TdmaMatrix
  spanningTree : Nat → Nat → UInt8
  treeIds : List UInt8
  clock : ℚ

/-- The state that `MATRIX_init` leaves. -/
def matrixStart (myId : UInt8) (time : ℚ) : MatrixState where
  myMatrix := matrixInit myId time
  spanningTree := fun _ _ => 0
  treeIds := [myId]
  clock := time

/-- The operations of `matrix.c`, with the clock readings they make. -/
inductive MatrixAction where
  | update (newMat : TdmaMatrix) (otherIp : UInt8) (time : ℚ)
  | serialize (removalTime time : ℚ)
  | removeDeadLinks (time : ℚ)
  | updateLinkQuality (nodeId : UInt8) (timeout : Bool)
  | setLinkQuality (nodeId quality : UInt8)

/-- One operation.  Only `matrix_update` computes the spanning tree. -/
def matrixStep
    (mode : LinkQualityMode)
    (state : MatrixState) : MatrixAction → MatrixState
  | .update newMat otherIp time =>
      let merged := mergedMatrix mode state.myMatrix newMat otherIp time
      { myMatrix := merged
        spanningTree := primAlgorithmWeighted mode merged
        treeIds := merged.idOfActiveNodes
        clock := time }
  | .serialize removalTime time =>
      { state with
        myMatrix := serializedMatrix state.myMatrix removalTime time
        clock := time }
  | .removeDeadLinks time =>
      { state with
        myMatrix := RoutingMesh.removeDeadLinks state.myMatrix time
        clock := time }
  | .updateLinkQuality nodeId timeout =>
      { state with
        myMatrix :=
          RoutingMesh.updateLinkQuality state.myMatrix nodeId timeout }
  | .setLinkQuality nodeId quality =>
      { state with
        myMatrix := RoutingMesh.setLinkQuality state.myMatrix nodeId quality }

/-- A received matrix, as `deserializeMatrix` lays it out in cleared memory. -/
def beaconOfRows
    (ids : List UInt8)
    (rows : List (List UInt8))
    (ages : List ℚ) : TdmaMatrix :=
  { TdmaMatrix.zeroed 0 ids with
    matrix := fun i j => (rows.getD i []).getD j 0
    age := fun i => ages.getD i 0 }

namespace MatrixAction

/-- The clock readings of an operation do not go back behind `clock`. -/
def ClockForward (clock : ℚ) : MatrixAction → Prop
  | update _ _ time => clock ≤ time
  | serialize removalTime time => clock ≤ removalTime ∧ removalTime ≤ time
  | removeDeadLinks time => clock ≤ time
  | updateLinkQuality _ _ => True
  | setLinkQuality _ _ => True

/-- A merged beacon lists every identifier once. -/
def DistinctIds : MatrixAction → Prop
  | update newMat _ _ => newMat.idOfActiveNodes.Nodup
  | _ => True

instance (clock : ℚ) : DecidablePred (ClockForward clock)
  | update _ _ time => inferInstanceAs (Decidable (clock ≤ time))
  | serialize removalTime time =>
      inferInstanceAs (Decidable (clock ≤ removalTime ∧ removalTime ≤ time))
  | removeDeadLinks time => inferInstanceAs (Decidable (clock ≤ time))
  | updateLinkQuality _ _ => .isTrue trivial
  | setLinkQuality _ _ => .isTrue trivial

/-- Only a merge can bring in repeated identifiers. -/
theorem distinctIds_of_noMerge
    {action : MatrixAction}
    (noMerge : ∀ newMat otherIp time, action ≠ .update newMat otherIp time) :
    action.DistinctIds := by
  cases action with
  | update newMat otherIp time =>
      exact (noMerge newMat otherIp time rfl).elim
  | serialize removalTime time => trivial
  | removeDeadLinks time => trivial
  | updateLinkQuality nodeId timeout => trivial
  | setLinkQuality nodeId quality => trivial

end MatrixAction

/-- The operation on topologies that a matrix operation computes. -/
def topologyStep
    (mode : LinkQualityMode)
    (me : UInt8)
    (topology : Topology UInt8) : MatrixAction → Topology UInt8
  | .update newMat otherIp time =>
      topology.merge mode newMat.report me otherIp time
  | .serialize removalTime time =>
      (topology.expire me removalTime).refresh me time
  | .removeDeadLinks time => topology.expire me time
  | .updateLinkQuality nodeId timeout =>
      topology.rate me nodeId (adjustQuality · timeout)
  | .setLinkQuality nodeId quality =>
      topology.rate me nodeId (fun _ => quality)

/-- The identifiers are sorted and distinct, and the local one is among them. -/
structure TdmaMatrix.Listed (mat : TdmaMatrix) (me : UInt8) : Prop where
  ordered : mat.idOfActiveNodes.Pairwise (· < ·)
  own : mat.myId = me
  self : me ∈ mat.idOfActiveNodes

namespace TdmaMatrix.Listed

variable {mat : TdmaMatrix} {me : UInt8}

theorem distinct (listed : mat.Listed me) : mat.idOfActiveNodes.Nodup :=
  listed.ordered.imp (fun less => UInt8.ne_of_lt less)

theorem selfListed (listed : mat.Listed me) :
    mat.myId ∈ mat.idOfActiveNodes := by
  rw [listed.own]
  exact listed.self

/-- A merge keeps the identifiers sorted and the local one among them. -/
theorem mergedMatrix
    (listed : mat.Listed me)
    (mode : LinkQualityMode)
    (newMat : TdmaMatrix)
    (otherIp : UInt8)
    (time : ℚ) :
    (mergedMatrix mode mat newMat otherIp time).Listed me where
  ordered := by
    rw [idOfActiveNodes_mergedMatrix]
    exact pairwise_lt_discoverIds listed.distinct newMat
  own := by
    rw [myId_mergedMatrix]
    exact listed.own
  self := by
    rw [idOfActiveNodes_mergedMatrix, mem_discoverIds]
    exact .inl listed.self

/-- Removing dead links keeps the order, and the local node always stays. -/
theorem removeDeadLinks
    (listed : mat.Listed me)
    (time : ℚ) :
    (removeDeadLinks mat time).Listed me where
  ordered := by
    rw [idOfActiveNodes_removeDeadLinks listed.distinct]
    exact listed.ordered.filter _
  own := (myId_removeDeadLinks listed.distinct time).trans listed.own
  self := by
    have kept :=
      self_mem_removeDeadLinks listed.distinct listed.selfListed time
    rwa [listed.own] at kept

end TdmaMatrix.Listed

theorem listed_matrixInit (myId : UInt8) (time : ℚ) :
    (matrixInit myId time).Listed myId where
  ordered := by simp [matrixInit, TdmaMatrix.zeroed]
  own := rfl
  self := by simp [matrixInit, TdmaMatrix.zeroed]

/-- Every operation keeps the identifiers sorted and the local one among them. -/
theorem listed_matrixStep
    {mode : LinkQualityMode}
    {me : UInt8}
    {state : MatrixState}
    {action : MatrixAction}
    (listed : state.myMatrix.Listed me) :
    (matrixStep mode state action).myMatrix.Listed me := by
  cases action with
  | update newMat otherIp time =>
      exact listed.mergedMatrix mode newMat otherIp time
  | serialize removalTime time =>
      exact
        { ordered := (listed.removeDeadLinks removalTime).ordered
          own := (listed.removeDeadLinks removalTime).own
          self := (listed.removeDeadLinks removalTime).self }
  | removeDeadLinks time =>
      exact listed.removeDeadLinks time
  | updateLinkQuality nodeId timeout =>
      exact
        { ordered := by simpa [matrixStep] using listed.ordered
          own := by simpa [matrixStep] using listed.own
          self := by simpa [matrixStep] using listed.self }
  | setLinkQuality nodeId quality =>
      exact
        { ordered := by simpa [matrixStep] using listed.ordered
          own := by simpa [matrixStep] using listed.own
          self := by simpa [matrixStep] using listed.self }

/-- So does every run, whatever its operations are. -/
theorem listed_of_reachable
    {mode : LinkQualityMode}
    {me : UInt8}
    {time : ℚ}
    {enabled : MatrixState → MatrixAction → Prop}
    {state : MatrixState}
    (reachable :
      StepRun.Reachable (matrixStep mode) enabled (matrixStart me time)
        state) :
    state.myMatrix.Listed me :=
  reachable.invariant (fun state => state.myMatrix.Listed me)
    (listed_matrixInit me time)
    (fun {_ _} listed _ => listed_matrixStep listed)

/-- Every operation on the arrays computes its operation on the topology. -/
theorem topology_matrixStep
    {mode : LinkQualityMode}
    {me : UInt8}
    {state : MatrixState}
    {action : MatrixAction}
    (listed : state.myMatrix.Listed me)
    (distinctIds : action.DistinctIds) :
    (matrixStep mode state action).myMatrix.topology =
      topologyStep mode me state.myMatrix.topology action := by
  have distinct := listed.distinct
  have selfListed := listed.selfListed
  have own := listed.own
  cases action with
  | update newMat otherIp time =>
      rw [matrixStep, topologyStep, ← own]
      exact topology_mergedMatrix mode distinct selfListed distinctIds
        otherIp time
  | serialize removalTime time =>
      rw [matrixStep, topologyStep, ← own]
      exact topology_serializedMatrix distinct selfListed removalTime time
  | removeDeadLinks time =>
      rw [matrixStep, topologyStep, ← own]
      exact topology_removeDeadLinks distinct time
  | updateLinkQuality nodeId timeout =>
      rw [matrixStep, topologyStep, ← own]
      exact topology_updateLinkQuality distinct selfListed nodeId timeout
  | setLinkQuality nodeId quality =>
      rw [matrixStep, topologyStep, ← own]
      exact topology_setLinkQuality distinct selfListed nodeId quality

/-- No operation sets the clock back. -/
theorem clock_le_matrixStep
    {mode : LinkQualityMode}
    {state : MatrixState}
    {action : MatrixAction}
    (forward : action.ClockForward state.clock) :
    state.clock ≤ (matrixStep mode state action).clock := by
  cases action with
  | update newMat otherIp time => exact forward
  | serialize removalTime time => exact forward.1.trans forward.2
  | removeDeadLinks time => exact forward
  | updateLinkQuality nodeId timeout => exact le_rfl
  | setLinkQuality nodeId quality => exact le_rfl

end RoutingMesh
