import RoutingMesh.MatrixWellFormed
import RoutingMesh.RoutingLookup

/-!
# The routing table follows the tree

The search finds every node behind a neighbour, and on a forest each node is
behind one neighbour only.  So the entry of a destination in the same tree is
the second node of the only path to it, and no other destination has one.
-/

namespace RoutingMesh

open KeyedCells

/-!
## Searches find what a walk reaches
-/

/-- A forest has no edges past its positions. -/
theorem activeTree_eq_self
    {num : Nat}
    {tree : Nat → Nat → UInt8}
    (forest : IsForest num tree) :
    activeTree num tree = tree := by
  funext a b
  unfold activeTree
  split
  · rfl
  · rename_i outside
    rcases forest.binary a b with absent | present
    · exact absent.symm
    · exact (outside (forest.inBounds present)).elim

/-- The edges of the graph are the cells equal to 1. -/
theorem tree_eq_one_of_adj
    {num : Nat}
    {tree : Nat → Nat → UInt8}
    (forest : IsForest num tree)
    {a b : Nat}
    (adjacent : (treeGraph tree).Adj a b) :
    tree a b = 1 := by
  obtain ⟨_, isEdge⟩ := (SimpleGraph.fromRel_adj _ a b).mp adjacent
  rcases isEdge with forward | backward
  · exact forward
  · rw [forest.symmetric]
    exact backward

/-- A walk that avoids the local position is found by a search that does. -/
theorem reaches_of_walk
    {num : Nat}
    {tree : Nat → Nat → UInt8}
    (forest : IsForest num tree)
    {myIdx v d : Nat}
    (way : (treeGraph tree).Walk v d)
    (avoids : myIdx ∉ way.support) :
    GuardedSearch.Reaches (fun a b => tree a b != 0) (List.range num)
      (fun query => query == myIdx) v d := by
  induction way with
  | nil =>
      exact .refl
  | @cons a b c adjacent rest inductionHypothesis =>
      rw [SimpleGraph.Walk.support_cons, List.mem_cons, not_or] at avoids
      have isOne := tree_eq_one_of_adj forest adjacent
      have different : b ≠ myIdx := by
        rintro rfl
        exact avoids.2 rest.start_mem_support
      refine .head ⟨?_, ?_, ?_⟩ (inductionHypothesis avoids.2)
      · simp [isOne]
      · exact List.mem_range.mpr (forest.inBounds isOne).2
      · simpa using different

/-!
## Lookups find what the lists hold
-/

/-- A destination that a listed neighbour leads to has a next hop. -/
theorem lookupNextHop_ne_zero_of_leads
    {primaryList : List PrimaryRoute}
    (identified : ∀ route ∈ primaryList, route.nodeId ≠ 0)
    {destination : UInt8}
    {route : PrimaryRoute}
    (listed : route ∈ primaryList)
    (leads :
      (∃ behind ∈ route.reachable, behind.nodeId = destination) ∨
        route.nodeId = destination) :
    lookupNextHop primaryList destination ≠ 0 := by
  unfold lookupNextHop
  split
  · rename_i found isFound
    exact identified found (List.mem_of_find?_eq_some isFound)
  · rename_i noneBehind
    rw [List.find?_eq_none] at noneBehind
    have isNeighbour : route.nodeId = destination := by
      rcases leads with behind | isNeighbour
      · exact (noneBehind route listed (by simpa using behind)).elim
      · exact isNeighbour
    split
    · rename_i found isFound
      exact identified found (List.mem_of_find?_eq_some isFound)
    · rename_i noNeighbour
      rw [List.find?_eq_none] at noNeighbour
      exact (noNeighbour route listed (by simpa using isNeighbour)).elim

/-- A destination with a next hop is found in the table. -/
theorem routingManagerLookup_ne_zero_of_nextHop
    {numNodes : Nat}
    {myNodeId : UInt8}
    {snap : MatrixSnapshot}
    {destination : UInt8}
    {d : Nat}
    (inBounds : d < numNodes)
    (owner : snap.idOfActiveNodes[d]? = some destination)
    (notSelf : destination ≠ myNodeId)
    (routed :
      lookupNextHop (buildRoutingStructure myNodeId snap) destination ≠ 0) :
    routingManagerLookup numNodes (routingManagerRecompute myNodeId snap)
      destination ≠ 0 := by
  unfold routingManagerLookup
  split
  · rename_i i isFound
    have matched := List.find?_some isFound
    simp only [Bool.and_eq_true] at matched
    exact (filledEntry_of_valid matched.2).routed
  · rename_i notFound
    rw [List.find?_eq_none] at notFound
    have entry :
        routingManagerRecompute myNodeId snap d =
          { routingManagerRecompute myNodeId snap d with
            destination := destination
            valid := true } := by
      simp [routingManagerRecompute, routingEntryAt, owner, notSelf, routed]
    refine (notFound d (List.mem_range.mpr inBounds) ?_).elim
    rw [entry]
    simp

/-!
## The table
-/

/-- The next hop towards `destination` is the one that the tree gives. -/
structure RoutesAlongTree
    (myNodeId : UInt8)
    (snap : MatrixSnapshot)
    (destination nextHop : UInt8) : Prop where
  notRouted :
    destination ∉ snap.idOfActiveNodes ∨ destination = myNodeId →
      nextHop = 0
  disconnected :
    ∀ {myIdx d},
      snap.idOfActiveNodes[myIdx]? = some myNodeId →
      snap.idOfActiveNodes[d]? = some destination →
      ¬ (treeGraph snap.mst).Reachable myIdx d →
      nextHop = 0
  firstOfPath :
    ∀ {myIdx d},
      snap.idOfActiveNodes[myIdx]? = some myNodeId →
      snap.idOfActiveNodes[d]? = some destination →
      destination ≠ myNodeId →
      (treeGraph snap.mst).Reachable myIdx d →
      ∃ path : (treeGraph snap.mst).Walk myIdx d,
        path.IsPath ∧
          (∀ other : (treeGraph snap.mst).Walk myIdx d,
            other.IsPath → other = path) ∧
          snap.idOfActiveNodes[path.snd]? = some nextHop ∧
          (treeGraph snap.mst).dist path.snd d + 1 =
            (treeGraph snap.mst).dist myIdx d

section Tree

variable {numNodes : Nat} {myNodeId : UInt8} {snap : MatrixSnapshot}
variable (inNetwork : ∀ id ∈ snap.idOfActiveNodes, InNetwork numNodes id)
variable (forest : IsForest snap.numberOfActiveNodes snap.mst)
variable {myIdx : Nat}
variable (found : findNodeIndex snap.idOfActiveNodes myNodeId = some myIdx)
include inNetwork found

/-- Neighbours have identifiers of the network, so none of them is 0. -/
theorem nodeId_ne_zero_of_mem_buildRoutingStructure
    {route : PrimaryRoute}
    (listed : route ∈ buildRoutingStructure myNodeId snap) :
    route.nodeId ≠ 0 := by
  obtain ⟨i, inRange, _, rfl⟩ :=
    (mem_buildRoutingStructure found).mp listed
  have inBounds : i < snap.idOfActiveNodes.length := List.mem_range.mp inRange
  have configured :=
    inNetwork _ (List.getElem_mem inBounds)
  have sameId :
      snap.idOfActiveNodes.getD i 0 = snap.idOfActiveNodes[i] := by
    rw [List.getD_eq_getElem?_getD, List.getElem?_eq_getElem inBounds]
    rfl
  intro isZero
  have isZeroId : snap.idOfActiveNodes[i] = 0 := sameId.symm.trans isZero
  rw [isZeroId] at configured
  exact absurd configured.1 (by decide)

include forest

/-- A destination in the tree of the local node has a route. -/
theorem routed_of_path
    (distinct : snap.idOfActiveNodes.Nodup)
    {destination : UInt8}
    {d : Nat}
    (owner : snap.idOfActiveNodes[d]? = some destination)
    (notSelf : destination ≠ myNodeId)
    {path : (treeGraph snap.mst).Walk myIdx d}
    (isPath : path.IsPath) :
    routingManagerLookup numNodes (routingManagerRecompute myNodeId snap)
      destination ≠ 0 := by
  have meAt : snap.idOfActiveNodes[myIdx]? = some myNodeId :=
    (idxOf?_eq_some_iff_getElem? distinct).mp found
  obtain ⟨dInBounds, destinationAt⟩ := List.getElem?_eq_some_iff.mp owner
  have dInNetwork : d < numNodes :=
    dInBounds.trans_le (length_le_of_inNetwork distinct inNetwork)
  have notMe : myIdx ≠ d := by
    rintro rfl
    rw [owner] at meAt
    exact notSelf (Option.some.inj meAt)
  cases path with
  | nil =>
      exact (notMe rfl).elim
  | @cons _ v _ adjacent rest =>
      have isOne := tree_eq_one_of_adj forest adjacent
      have vInBounds := (forest.inBounds isOne).2
      obtain ⟨restIsPath, avoids⟩ :=
        (SimpleGraph.Walk.cons_isPath_iff adjacent rest).mp isPath
      have neighbour :=
        (mem_buildRoutingStructure found).mpr
          ⟨v, List.mem_range.mpr vInBounds, isOne, rfl⟩
      have sameId :
          snap.idOfActiveNodes.getD d 0 = destination := by
        rw [List.getD_eq_getElem?_getD, owner]
        rfl
      refine routingManagerLookup_ne_zero_of_nextHop dInNetwork owner notSelf
        (lookupNextHop_ne_zero_of_leads
          (fun route listed =>
            nodeId_ne_zero_of_mem_buildRoutingStructure inNetwork found listed)
          neighbour ?_)
      by_cases isNeighbour : d = v
      · right
        rw [← isNeighbour]
        exact sameId
      · left
        have searched :
            (isReachableViaMst snap.mst snap.numberOfActiveNodes v d
              (fun query => query == myIdx)).1 = true := by
          refine (GuardedSearch.search_eq_true_iff
            (List.mem_range.mpr vInBounds) ?_ ?_).mpr
            (reaches_of_walk forest rest avoids)
          · simpa using adjacent.ne'
          · exact List.countP_le_length.trans (by simp)
        exact ⟨_, mem_secondaryList.mpr
          ⟨d, List.mem_range.mpr dInBounds,
            ⟨not_or.mpr ⟨Ne.symm notMe, isNeighbour⟩, searched⟩, rfl⟩,
          sameId⟩

end Tree

/--
After a recomputation from a spanning forest over distinct identifiers of the
network, the entry of an active destination in the tree of the local node is
the first node on the only path to it; every other lookup returns 0.
-/
theorem routingTable_follows_tree
    {numNodes : Nat}
    {myNodeId : UInt8}
    {snap : MatrixSnapshot}
    (distinct : snap.idOfActiveNodes.Nodup)
    (inNetwork : ∀ id ∈ snap.idOfActiveNodes, InNetwork numNodes id)
    (selfListed : myNodeId ∈ snap.idOfActiveNodes)
    (forest : IsForest snap.numberOfActiveNodes snap.mst)
    (destination : UInt8) :
    RoutesAlongTree myNodeId snap destination
      (routingManagerLookup numNodes (routingManagerRecompute myNodeId snap)
        destination) := by
  obtain ⟨me, found⟩ := exists_position selfListed
  have meAt : snap.idOfActiveNodes[me]? = some myNodeId :=
    (idxOf?_eq_some_iff_getElem? distinct).mp found
  have meInBounds : me < snap.numberOfActiveNodes :=
    (List.getElem?_eq_some_iff.mp meAt).1
  have samePosition :
      ∀ {i j : Nat} {id : UInt8}, snap.idOfActiveNodes[i]? = some id →
        snap.idOfActiveNodes[j]? = some id → i = j := by
    intro i j id atI atJ
    have inBounds := (List.getElem?_eq_some_iff.mp atI).1
    exact (List.getElem?_inj inBounds distinct).mp (atI.trans atJ.symm)
  have hop :
      routingManagerLookup numNodes (routingManagerRecompute myNodeId snap)
          destination ≠ 0 →
        ∃ v d,
          snap.idOfActiveNodes[v]? =
              some (routingManagerLookup numNodes
                (routingManagerRecompute myNodeId snap) destination) ∧
            snap.idOfActiveNodes[d]? = some destination ∧
            (treeGraph snap.mst).Adj me v ∧
            Forest.ReachesAvoiding (treeGraph snap.mst) me v d := by
    intro routed
    have leads := hop_of_lookup forest found meInBounds routed
    rw [activeTree_eq_self forest] at leads
    exact leads
  refine ⟨?_, ?_, ?_⟩
  · intro excluded
    by_contra routed
    obtain ⟨active, notSelf, _⟩ := routingManagerLookup_ne_zero routed
    exact excluded.elim (fun inactive => inactive active) notSelf
  · intro myIdx d ownAt destinationAt apart
    by_contra routed
    obtain ⟨v, d', _, atD', adjacent, way, _⟩ := hop routed
    obtain rfl := samePosition ownAt meAt
    obtain rfl := samePosition destinationAt atD'
    exact apart ⟨SimpleGraph.Walk.cons adjacent way⟩
  · intro myIdx d ownAt destinationAt notSelf reachable
    obtain rfl := samePosition ownAt meAt
    obtain ⟨path, isPath⟩ := reachable.exists_isPath
    obtain ⟨v, d', hopAt, atD', adjacent, avoiding⟩ :=
      hop (routed_of_path inNetwork forest found distinct destinationAt
        notSelf isPath)
    obtain rfl := samePosition destinationAt atD'
    have closer := Forest.dist_of_hop forest.acyclic adjacent avoiding
    obtain ⟨rest, _, throughHop⟩ :=
      Forest.exists_path_cons adjacent avoiding
    refine ⟨_, throughHop, ?_, ?_, ?_⟩
    · intro other otherIsPath
      exact Forest.path_unique forest.acyclic otherIsPath throughHop
    · rw [SimpleGraph.Walk.snd_cons]
      exact hopAt
    · rw [SimpleGraph.Walk.snd_cons]
      exact closer

/-- Node 2 hears nodes 1 and 3, which do not hear each other. -/
def chainOfThree : TdmaMatrix :=
  { TdmaMatrix.zeroed 1 [1, 2, 3] with
    matrix := fun i j => if i = 1 ∧ j ≠ 1 then 1 else 0 }

/-- What node 1 copies out of it. -/
def snapshotOfChain : MatrixSnapshot where
  idOfActiveNodes := [1, 2, 3]
  linkQuality := fun _ _ => 0
  mst := primAlgorithmWeighted .test chainOfThree

/-- Its entry of node 3 is node 2, the first node on the path. -/
theorem routingTable_follows_tree_snapshotOfChain :
    RoutesAlongTree 1 snapshotOfChain 3 2 := by
  have nextHop :
      routingManagerLookup 3 (routingManagerRecompute 1 snapshotOfChain) 3 =
        2 := by
    decide +kernel
  have forest :
      IsForest snapshotOfChain.numberOfActiveNodes snapshotOfChain.mst :=
    isForest_primAlgorithmWeighted .test chainOfThree
  have configured :
      ∀ id ∈ snapshotOfChain.idOfActiveNodes, InNetwork 3 id := by
    intro id listed
    simp only [snapshotOfChain, List.mem_cons, List.not_mem_nil, or_false]
      at listed
    rcases listed with rfl | rfl | rfl <;> decide
  rw [← nextHop]
  exact routingTable_follows_tree (by decide) configured (by decide) forest 3

end RoutingMesh
