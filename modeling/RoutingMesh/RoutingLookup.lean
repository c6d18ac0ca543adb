import RoutingMesh.PrimTree
import RoutingMesh.Routing

/-!
# What a lookup returns

A next hop that `routing_manager_lookup` returns from a recomputed table is a
tree neighbour of the local node from which the destination is reached
without coming back through the local node.  On a forest that is one step
closer to the destination.
-/

namespace RoutingMesh

open KeyedCells

/-- A loop that prepends what it keeps lists exactly what it has kept. -/
private theorem mem_foldl_prepend
    {α : Type*}
    (item : α)
    (kept : Nat → Prop)
    {body : List α → Nat → List α}
    (acts : ∀ items i, item ∈ body items i ↔ item ∈ items ∨ kept i)
    {positions : List Nat}
    {items : List α} :
    item ∈ positions.foldl body items ↔
      item ∈ items ∨ ∃ i ∈ positions, kept i := by
  induction positions generalizing items with
  | nil =>
      simp
  | cons head rest inductionHypothesis =>
      rw [List.foldl_cons, inductionHypothesis, acts]
      simp [or_assoc]

/-- The nodes listed behind neighbour `i`. -/
theorem mem_secondaryList
    {snap : MatrixSnapshot}
    {myIdx i : Nat}
    {route : SecondaryRoute} :
    route ∈ secondaryList snap myIdx i ↔
      ∃ j ∈ List.range snap.numberOfActiveNodes,
        (¬ (j = myIdx ∨ j = i) ∧
          (isReachableViaMst snap.mst snap.numberOfActiveNodes i j
            (fun query => query == myIdx)).1 = true) ∧
          route = { nodeId := snap.idOfActiveNodes.getD j 0, quality := 0 } := by
  unfold secondaryList
  rw [mem_foldl_prepend route (fun j =>
    (¬ (j = myIdx ∨ j = i) ∧
      (isReachableViaMst snap.mst snap.numberOfActiveNodes i j
        (fun query => query == myIdx)).1 = true) ∧
      route = { nodeId := snap.idOfActiveNodes.getD j 0, quality := 0 })]
  · simp
  · intro items j
    split
    · rename_i skipped
      simp [skipped]
    · rename_i notSkipped
      split
      · rename_i found
        simp [notSkipped, found, or_comm]
      · rename_i notFound
        simp [notFound]

/-- The neighbours listed by `build_routing_structure`. -/
theorem mem_buildRoutingStructure
    {myNodeId : UInt8}
    {snap : MatrixSnapshot}
    {myIdx : Nat}
    (found : findNodeIndex snap.idOfActiveNodes myNodeId = some myIdx)
    {route : PrimaryRoute} :
    route ∈ buildRoutingStructure myNodeId snap ↔
      ∃ i ∈ List.range snap.numberOfActiveNodes,
        snap.mst myIdx i = 1 ∧
          route =
            { nodeId := snap.idOfActiveNodes.getD i 0
              quality := snap.linkQuality myIdx i
              reachable := secondaryList snap myIdx i } := by
  simp only [buildRoutingStructure, found]
  rw [mem_foldl_prepend route (fun i =>
    snap.mst myIdx i = 1 ∧
      route =
        { nodeId := snap.idOfActiveNodes.getD i 0
          quality := snap.linkQuality myIdx i
          reachable := secondaryList snap myIdx i })]
  · simp
  · intro items i
    by_cases neighbour : snap.mst myIdx i = 1
    · simp [neighbour, or_comm]
    · simp [neighbour]

/-- A next hop is a listed neighbour that is the destination or has it behind. -/
theorem lookupNextHop_ne_zero
    {primaryList : List PrimaryRoute}
    {destination : UInt8}
    (routed : lookupNextHop primaryList destination ≠ 0) :
    ∃ route ∈ primaryList,
      route.nodeId = lookupNextHop primaryList destination ∧
        ((∃ behind ∈ route.reachable, behind.nodeId = destination) ∨
          route.nodeId = destination) := by
  unfold lookupNextHop at routed ⊢
  split
  · rename_i route isFound
    have listed := List.mem_of_find?_eq_some isFound
    have hasBehind := List.find?_some isFound
    simp only [List.any_eq_true, beq_iff_eq] at hasBehind
    exact ⟨route, listed, rfl, .inl hasBehind⟩
  · rename_i noneBehind
    simp only [noneBehind] at routed
    split
    · rename_i route isFound
      have listed := List.mem_of_find?_eq_some isFound
      have isDestination := List.find?_some isFound
      simp only [beq_iff_eq] at isDestination
      exact ⟨route, listed, rfl, .inr isDestination⟩
    · rename_i noNeighbour
      simp [noNeighbour] at routed

/-- A valid entry of a recomputed table forwards to a node of the snapshot. -/
theorem nextHop_mem_of_valid
    {myNodeId : UInt8}
    {snap : MatrixSnapshot}
    {i : Nat}
    (isValid : (routingManagerRecompute myNodeId snap i).valid = true) :
    (routingManagerRecompute myNodeId snap i).nextHop ∈
      snap.idOfActiveNodes := by
  have filled := filledEntry_of_valid isValid
  have notZero := filled.routed
  rw [filled.nextHop] at notZero ⊢
  obtain ⟨route, listed, sameHop, _⟩ := lookupNextHop_ne_zero notZero
  rw [← sameHop]
  cases found : findNodeIndex snap.idOfActiveNodes myNodeId with
  | none =>
      simp [buildRoutingStructure, found] at listed
  | some myIdx =>
      obtain ⟨j, inRange, _, rfl⟩ :=
        (mem_buildRoutingStructure found).mp listed
      have inBounds : j < snap.idOfActiveNodes.length :=
        List.mem_range.mp inRange
      change snap.idOfActiveNodes.getD j 0 ∈ snap.idOfActiveNodes
      rw [← List.getElem_eq_getD (h := inBounds)]
      exact List.getElem_mem inBounds

/-- A valid table entry comes from the list of neighbours. -/
theorem routingManagerLookup_ne_zero
    {numNodes : Nat}
    {myNodeId : UInt8}
    {snap : MatrixSnapshot}
    {destination : UInt8}
    (routed :
      routingManagerLookup numNodes (routingManagerRecompute myNodeId snap)
        destination ≠ 0) :
    destination ∈ snap.idOfActiveNodes ∧ destination ≠ myNodeId ∧
      routingManagerLookup numNodes (routingManagerRecompute myNodeId snap)
          destination =
        lookupNextHop (buildRoutingStructure myNodeId snap) destination := by
  unfold routingManagerLookup at routed ⊢
  split
  · rename_i i isFound
    have matched := List.find?_some isFound
    simp only [Bool.and_eq_true, beq_iff_eq] at matched
    obtain ⟨rfl, isValid⟩ := matched
    have filled := filledEntry_of_valid isValid
    exact ⟨List.mem_of_getElem? filled.owner, filled.notSelf, filled.nextHop⟩
  · rename_i notFound
    simp [notFound] at routed

/-!
## Lookups on a forest
-/

/-- The edges of a tree between the first `num` positions. -/
def activeTree
    (num : Nat)
    (tree : Nat → Nat → UInt8) : Nat → Nat → UInt8 :=
  fun a b => if a < num ∧ b < num then tree a b else 0

theorem activeTree_eq_one
    {num : Nat}
    {tree : Nat → Nat → UInt8}
    {a b : Nat} :
    activeTree num tree a b = 1 ↔ tree a b = 1 ∧ a < num ∧ b < num := by
  unfold activeTree
  by_cases inBounds : a < num ∧ b < num
  · simp [inBounds]
  · simp [inBounds]

/-- An edge between active positions joins them in the graph of the tree. -/
theorem adj_activeTree
    {num planted : Nat}
    {tree : Nat → Nat → UInt8}
    (forest : IsForest planted tree)
    {a b : Nat}
    (isEdge : tree a b = 1)
    (aInBounds : a < num)
    (bInBounds : b < num) :
    (treeGraph (activeTree num tree)).Adj a b := by
  have different : a ≠ b := by
    rintro rfl
    rw [forest.loopless] at isEdge
    simp at isEdge
  exact (SimpleGraph.fromRel_adj _ a b).mpr
    ⟨different, .inl (activeTree_eq_one.mpr ⟨isEdge, aInBounds, bInBounds⟩)⟩

/-- A search that avoids the local position finds a walk that avoids it. -/
theorem reachesAvoiding_of_reaches
    {num planted : Nat}
    {tree : Nat → Nat → UInt8}
    (forest : IsForest planted tree)
    {myIdx v d : Nat}
    (vInBounds : v < num)
    (different : v ≠ myIdx)
    (way :
      GuardedSearch.Reaches (fun a b => tree a b != 0) (List.range num)
        (fun query => query == myIdx) v d) :
    d < num ∧
      Forest.ReachesAvoiding (treeGraph (activeTree num tree)) myIdx v d := by
  induction way with
  | refl =>
      refine ⟨vInBounds, SimpleGraph.Walk.nil, ?_⟩
      simpa using Ne.symm different
  | @tail b c _ step inductionHypothesis =>
      obtain ⟨bInBounds, walk, avoids⟩ := inductionHypothesis
      obtain ⟨isEdge, cInRange, unblocked⟩ := step
      have cInBounds : c < num := List.mem_range.mp cInRange
      have isOne : tree b c = 1 := by
        rcases forest.binary b c with absent | present
        · simp [absent] at isEdge
        · exact present
      have adjacent := adj_activeTree forest isOne bInBounds cInBounds
      refine ⟨cInBounds, walk.concat adjacent, ?_⟩
      rw [SimpleGraph.Walk.support_concat]
      simp only [beq_eq_false_iff_ne, ne_eq] at unblocked
      simp [avoids, Ne.symm unblocked]

/--
On a forest a next hop is a neighbour of the local node, and the rest of the
way to the destination avoids the local node.
-/
theorem hop_of_lookup
    {numNodes planted : Nat}
    {myNodeId : UInt8}
    {snap : MatrixSnapshot}
    (forest : IsForest planted snap.mst)
    {myIdx : Nat}
    (found : findNodeIndex snap.idOfActiveNodes myNodeId = some myIdx)
    (meInBounds : myIdx < snap.numberOfActiveNodes)
    {destination : UInt8}
    (routed :
      routingManagerLookup numNodes (routingManagerRecompute myNodeId snap)
        destination ≠ 0) :
    ∃ v d,
      snap.idOfActiveNodes[v]? =
          some (routingManagerLookup numNodes
            (routingManagerRecompute myNodeId snap) destination) ∧
        snap.idOfActiveNodes[d]? = some destination ∧
        (treeGraph (activeTree snap.numberOfActiveNodes snap.mst)).Adj
          myIdx v ∧
        Forest.ReachesAvoiding
          (treeGraph (activeTree snap.numberOfActiveNodes snap.mst))
          myIdx v d := by
  obtain ⟨_, _, sameHop⟩ := routingManagerLookup_ne_zero routed
  rw [sameHop] at routed ⊢
  obtain ⟨route, listed, isHop, leads⟩ := lookupNextHop_ne_zero routed
  obtain ⟨v, vInRange, isEdge, isRoute⟩ :=
    (mem_buildRoutingStructure found).mp listed
  have vInBounds : v < snap.numberOfActiveNodes := List.mem_range.mp vInRange
  have adjacent := adj_activeTree forest isEdge meInBounds vInBounds
  have different : v ≠ myIdx := adjacent.ne'
  have nodeAt :
      ∀ {i}, i < snap.idOfActiveNodes.length →
        snap.idOfActiveNodes[i]? = some (snap.idOfActiveNodes.getD i 0) := by
    intro i inBounds
    rw [List.getD_eq_getElem?_getD, List.getElem?_eq_getElem inBounds]
    rfl
  have hopAt :
      snap.idOfActiveNodes[v]? =
        some (lookupNextHop (buildRoutingStructure myNodeId snap)
          destination) := by
    rw [nodeAt vInBounds, ← isHop, isRoute]
  rcases leads with ⟨behind, behindListed, isDestination⟩ | isDestination
  · rw [isRoute] at behindListed
    obtain ⟨d, dInRange, ⟨_, searched⟩, isBehind⟩ :=
      mem_secondaryList.mp behindListed
    refine ⟨v, d, hopAt, ?_, adjacent, ?_⟩
    · rw [nodeAt (List.mem_range.mp dInRange), ← isDestination, isBehind]
    · refine (reachesAvoiding_of_reaches forest vInBounds different ?_).2
      refine (GuardedSearch.search_eq_true_iff vInRange
        (by simpa using different) ?_).mp searched
      exact List.countP_le_length.trans (by simp)
  · refine ⟨v, v, hopAt, ?_, adjacent, SimpleGraph.Walk.nil, ?_⟩
    · rw [nodeAt vInBounds, ← isDestination, isRoute]
    · simpa using Ne.symm different

end RoutingMesh
