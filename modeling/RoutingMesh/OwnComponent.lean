import RoutingMesh.PrimOptimality
import RoutingMesh.SnapshotCoherence
import RoutingMesh.TreeRouting

/-!
# The component of the local node

`primAlgorithm_weighted` grows its tree from position 0, which holds the
lowest active identifier and need not be the local node.  The tree covers the
component of position 0 and nothing else, so the local component is covered
exactly when links connect the local node to position 0, or when the local
node has no link at all.
-/

namespace RoutingMesh

open KeyedCells

/-- The state after a further call of `primAlgorithm_weighted`. -/
def MatrixState.runPrim
    (mode : LinkQualityMode)
    (state : MatrixState) : MatrixState :=
  { state with
    spanningTree := primAlgorithmWeighted mode state.myMatrix
    treeIds := state.myMatrix.idOfActiveNodes }

/--
After `primAlgorithm_weighted` every active node that links connect to the
local node is connected to it in the tree, and a table that is filled from
the tree has a route to it.
-/
structure OwnComponentSpanned
    (mode : LinkQualityMode)
    (state : MatrixState) : Prop where
  spanned :
    ∀ {own v}, searchId state.myMatrix state.myMatrix.myId = some own →
      (linkGraph state.myMatrix).Reachable own v →
        (treeGraph (state.runPrim mode).spanningTree).Reachable own v
  routed :
    ∀ {numNodes},
      (∀ id ∈ state.myMatrix.idOfActiveNodes, InNetwork numNodes id) →
      ∀ {own v id},
        searchId state.myMatrix state.myMatrix.myId = some own →
        state.myMatrix.idOfActiveNodes[v]? = some id →
        id ≠ state.myMatrix.myId →
        (linkGraph state.myMatrix).Reachable own v →
          routingManagerLookup numNodes
              (routingManagerRecompute state.myMatrix.myId
                (matrixGetSnapshot (state.runPrim mode))) id ≠ 0

/-- Links connect the local node to position 0, or it has no link at all. -/
def OwnComponentRooted (mat : TdmaMatrix) : Prop :=
  ∀ {own}, searchId mat mat.myId = some own →
    (linkGraph mat).Reachable 0 own ∨ ∀ v, ¬ (linkGraph mat).Adj own v

/-- Nothing can be reached from a vertex without neighbours. -/
theorem eq_of_reachable_of_isolated
    {V : Type*}
    {graph : SimpleGraph V}
    {a b : V}
    (isolated : ∀ v, ¬ graph.Adj a v)
    (reached : graph.Reachable a b) :
    a = b := by
  obtain ⟨walk⟩ := reached
  cases walk with
  | nil =>
      rfl
  | cons adjacent _ =>
      exact (isolated _ adjacent).elim

/-- An edge of the tree lies in the component of position 0. -/
theorem reachable_root_of_tree_adj
    {mode : LinkQualityMode}
    {mat : TdmaMatrix}
    {a b : Nat}
    (adjacent : (treeGraph (primAlgorithmWeighted mode mat)).Adj a b) :
    (linkGraph mat).Reachable 0 a := by
  have component := spansComponent_primAlgorithmWeighted mode mat
  exact component.inside (tree_eq_one_of_adj component.forest adjacent)

/-- What is connected to the local node in the tree has a route. -/
theorem routed_of_spanned
    {mode : LinkQualityMode}
    {state : MatrixState}
    (distinct : state.myMatrix.idOfActiveNodes.Nodup)
    {numNodes : Nat}
    (inNetwork :
      ∀ id ∈ state.myMatrix.idOfActiveNodes, InNetwork numNodes id)
    {own v : Nat}
    {id : UInt8}
    (found : searchId state.myMatrix state.myMatrix.myId = some own)
    (owner : state.myMatrix.idOfActiveNodes[v]? = some id)
    (notSelf : id ≠ state.myMatrix.myId)
    (reached :
      (treeGraph (state.runPrim mode).spanningTree).Reachable own v) :
    routingManagerLookup numNodes
        (routingManagerRecompute state.myMatrix.myId
          (matrixGetSnapshot (state.runPrim mode))) id ≠ 0 := by
  obtain ⟨path, isPath⟩ := reached.exists_isPath
  have forest :
      IsForest (matrixGetSnapshot (state.runPrim mode)).numberOfActiveNodes
        (matrixGetSnapshot (state.runPrim mode)).mst :=
    isForest_primAlgorithmWeighted mode state.myMatrix
  have configured :
      ∀ id ∈ (matrixGetSnapshot (state.runPrim mode)).idOfActiveNodes,
        InNetwork numNodes id :=
    inNetwork
  exact routed_of_path configured forest found distinct owner notSelf isPath

/--
In every reachable state `primAlgorithm_weighted` spans the component of the
local node, and so gives routes to all of it, exactly when links connect the
local node to position 0 or the local node has no link.
-/
theorem ownComponent_spanned_iff
    (mode : LinkQualityMode)
    (me : UInt8)
    (time : ℚ)
    {state : MatrixState}
    (reachable :
      StepRun.Reachable (matrixStep mode) (fun _ _ => True)
        (matrixStart me time) state) :
    OwnComponentSpanned mode state ↔ OwnComponentRooted state.myMatrix := by
  have listed := listed_of_reachable reachable
  have component :=
    spansComponent_primAlgorithmWeighted mode state.myMatrix
  constructor
  · intro covered own found
    by_contra neither
    rw [not_or, not_forall] at neither
    obtain ⟨apart, v, linkToV⟩ := neither
    rw [not_not] at linkToV
    obtain ⟨walk⟩ := covered.spanned found linkToV.reachable
    cases walk with
    | nil =>
        exact linkToV.ne rfl
    | cons adjacent _ =>
        exact apart (reachable_root_of_tree_adj adjacent)
  · intro rooted
    have spanned :
        ∀ {own v}, searchId state.myMatrix state.myMatrix.myId = some own →
          (linkGraph state.myMatrix).Reachable own v →
            (treeGraph (state.runPrim mode).spanningTree).Reachable own v := by
      intro own v found reached
      rcases rooted found with fromRoot | isolated
      · have ownInTree := (component.connects own).mpr fromRoot
        have vInTree := (component.connects v).mpr (fromRoot.trans reached)
        exact ownInTree.symm.trans vInTree
      · rw [eq_of_reachable_of_isolated isolated reached]
    refine ⟨spanned, ?_⟩
    intro numNodes inNetwork own v id found owner notSelf reached
    exact routed_of_spanned listed.distinct inNetwork found owner notSelf
      (spanned found reached)

/-- Node 3 hears node 1, and then node 2, which lists node 1 as well. -/
def hearsBothNeighbours : List MatrixAction :=
  [.update (beaconOfRows [1] [[0]] [0]) 1 1,
    .update (beaconOfRows [1, 2] [[0, 0], [0, 0]] [1 / 2, 0]) 2 2]

/-- Node 3 is linked to position 0, so its component is covered. -/
theorem ownComponent_spanned_hearsBothNeighbours :
    OwnComponentSpanned .test
      (hearsBothNeighbours.foldl (matrixStep .test) (matrixStart 3 0)) := by
  refine (ownComponent_spanned_iff .test 3 0
    ⟨hearsBothNeighbours, StepRun.Run.of_checkRun (by decide +kernel)⟩).mpr ?_
  intro own found
  have isThird : own = 2 :=
    Option.some.inj (found.symm.trans (by decide +kernel))
  subst isThird
  exact .inl (linkGraph_adj.mpr (by decide +kernel)).reachable

/--
Node 3 hears only node 2, which lists node 1 but has lost the links that told
it of node 1.
-/
def hearsOfLinklessNode : List MatrixAction :=
  [.update (beaconOfRows [1, 2] [[0, 0], [0, 0]] [1 / 2, 0]) 2 2]

/-- Nodes 2 and 3 are linked, but the tree that grows from node 1 is empty. -/
theorem ownComponent_notSpanned_hearsOfLinklessNode :
    ¬ ∀ (mode : LinkQualityMode) (me : UInt8) (time : ℚ) (state : MatrixState),
      StepRun.Reachable (matrixStep mode) (fun _ _ => True)
        (matrixStart me time) state →
      OwnComponentSpanned mode state := by
  intro always
  let state := hearsOfLinklessNode.foldl (matrixStep .test) (matrixStart 3 0)
  have covered : OwnComponentSpanned .test state :=
    always .test 3 0 state
      ⟨hearsOfLinklessNode, StepRun.Run.of_checkRun (by decide +kernel)⟩
  have found : searchId state.myMatrix state.myMatrix.myId = some 2 := by
    decide +kernel
  have link : (linkGraph state.myMatrix).Adj 2 1 :=
    linkGraph_adj.mpr (by decide +kernel)
  have noEdge :
      ∀ v, v < 3 → primAlgorithmWeighted .test state.myMatrix 2 v ≠ 1 := by
    decide +kernel
  have forest := isForest_primAlgorithmWeighted .test state.myMatrix
  have isolated :
      ∀ v, ¬ (treeGraph (state.runPrim .test).spanningTree).Adj 2 v := by
    intro v adjacent
    have isEdge := tree_eq_one_of_adj forest adjacent
    have three : state.myMatrix.numberOfActiveNodes = 3 := by
      decide +kernel
    exact noEdge v (three ▸ (forest.inBounds isEdge).2) isEdge
  have same :=
    eq_of_reachable_of_isolated isolated
      (covered.spanned found link.reachable)
  exact absurd same (by decide)

end RoutingMesh
