import RoutingMesh.MeshNode
import RoutingMesh.RoutingLookup

/-!
# The routing table follows the topology

The table is recomputed only when `matrix_update` finds that the number of
nodes or the tree changed, and it compares the tree position by position.  As
long as no node has been removed since the tree was computed, an unnoticed
merge leaves the identifiers and the tree as they were, so the table, the
snapshot in use or an event under way always accounts for the current tree.
-/

namespace RoutingMesh

/-- The fields of an entry that decide where packets go. -/
def RoutingEntry.route (entry : RoutingEntry) : UInt8 × UInt8 × Bool :=
  (entry.destination, entry.nextHop, entry.valid)

/-!
## Routes do not depend on link qualities
-/

/-- A neighbour without the quality of its link. -/
private def routeKey (route : PrimaryRoute) : UInt8 × List SecondaryRoute :=
  (route.nodeId, route.reachable)

/-- `lookup_next_hop` on neighbours without qualities. -/
private def nextHopOfKeys
    (keys : List (UInt8 × List SecondaryRoute))
    (destination : UInt8) : UInt8 :=
  match keys.find? fun key => key.2.any fun s => s.nodeId == destination with
  | some key => key.1
  | none =>
      match keys.find? fun key => key.1 == destination with
      | some key => key.1
      | none => 0

private theorem lookupNextHop_eq_nextHopOfKeys
    (primaryList : List PrimaryRoute)
    (destination : UInt8) :
    lookupNextHop primaryList destination =
      nextHopOfKeys (primaryList.map routeKey) destination := by
  unfold lookupNextHop nextHopOfKeys
  rw [List.find?_map, List.find?_map]
  change _ = match
      (primaryList.find? fun p =>
        p.reachable.any fun s => s.nodeId == destination).map routeKey with
    | some key => key.1
    | none =>
        match (primaryList.find? fun p : PrimaryRoute =>
            p.nodeId == destination).map routeKey with
        | some key => key.1
        | none => 0
  cases primaryList.find? fun p =>
      p.reachable.any fun s => s.nodeId == destination with
  | some route =>
      rfl
  | none =>
      cases primaryList.find? fun p => p.nodeId == destination with
      | some route =>
          rfl
      | none =>
          rfl

/-- The neighbour lists of one tree, without qualities. -/
private def routeKeys
    (snap : MatrixSnapshot)
    (myIdx : Nat) : List (UInt8 × List SecondaryRoute) :=
  (List.range snap.numberOfActiveNodes).foldl
    (fun keys i =>
      if snap.mst myIdx i ≠ 1 then
        keys
      else
        (snap.idOfActiveNodes.getD i 0, secondaryList snap myIdx i) :: keys)
    []

private theorem map_routeKey_buildRoutingStructure
    {myNodeId : UInt8}
    {snap : MatrixSnapshot}
    {myIdx : Nat}
    (found : findNodeIndex snap.idOfActiveNodes myNodeId = some myIdx) :
    (buildRoutingStructure myNodeId snap).map routeKey =
      routeKeys snap myIdx := by
  simp only [buildRoutingStructure, found, routeKeys]
  symm
  change (List.range snap.numberOfActiveNodes).foldl _
    (List.map routeKey []) = _
  apply List.foldl_hom
  intro listed i
  by_cases neighbour : snap.mst myIdx i = 1
  · simp [neighbour, routeKey]
  · simp [neighbour]

/-- The neighbour lists of one tree differ in qualities only. -/
private theorem routeKey_buildRoutingStructure
    (myNodeId : UInt8)
    (snap : MatrixSnapshot)
    (linkQuality : Nat → Nat → UInt8) :
    (buildRoutingStructure myNodeId
        { snap with linkQuality := linkQuality }).map routeKey =
      (buildRoutingStructure myNodeId snap).map routeKey := by
  cases found : findNodeIndex snap.idOfActiveNodes myNodeId with
  | none =>
      simp [buildRoutingStructure, found]
  | some myIdx =>
      have sameKeys :
          (buildRoutingStructure myNodeId
              { snap with linkQuality := linkQuality }).map routeKey =
            routeKeys snap myIdx :=
        map_routeKey_buildRoutingStructure found
      rw [sameKeys, map_routeKey_buildRoutingStructure found]

/-- The routes of a recomputed table depend on the identifiers and the tree. -/
theorem route_routingManagerRecompute
    (myNodeId : UInt8)
    (snap : MatrixSnapshot)
    (linkQuality : Nat → Nat → UInt8)
    (i : Nat) :
    (routingManagerRecompute myNodeId
        { snap with linkQuality := linkQuality } i).route =
      (routingManagerRecompute myNodeId snap i).route := by
  have sameHop :
      ∀ destination,
        lookupNextHop
            (buildRoutingStructure myNodeId
              { snap with linkQuality := linkQuality }) destination =
          lookupNextHop (buildRoutingStructure myNodeId snap) destination := by
    intro destination
    rw [lookupNextHop_eq_nextHopOfKeys, lookupNextHop_eq_nextHopOfKeys,
      routeKey_buildRoutingStructure]
  unfold routingManagerRecompute routingEntryAt
  dsimp only
  cases snap.idOfActiveNodes[i]? with
  | none =>
      rfl
  | some destId =>
      dsimp only
      rw [sameHop]
      by_cases isSelf : destId = myNodeId
      · simp [isSelf]
      · by_cases noHop :
            lookupNextHop (buildRoutingStructure myNodeId snap) destId = 0
        · simp [isSelf, noHop]
        · simp [isSelf, noHop, RoutingEntry.route]

/-- The routes that a snapshot gives. -/
def snapshotRoute
    (me : UInt8)
    (snap : MatrixSnapshot)
    (i : Nat) : UInt8 × UInt8 × Bool :=
  (routingManagerRecompute me snap i).route

/-- Snapshots with the same identifiers and the same tree give the same routes. -/
theorem snapshotRoute_congr
    {me : UInt8}
    {first second : MatrixSnapshot}
    (sameIds : first.idOfActiveNodes = second.idOfActiveNodes)
    (sameTree : first.mst = second.mst) :
    snapshotRoute me first = snapshotRoute me second := by
  funext i
  have sameButQuality :
      first = { second with linkQuality := first.linkQuality } := by
    cases first
    cases second
    simp_all
  rw [sameButQuality]
  exact route_routingManagerRecompute me second first.linkQuality i

/-!
## Merges that go unnoticed
-/

/-- A merge that lists no new identifier leaves the identifiers as they were. -/
theorem discoverIds_of_length
    {mine newMat : TdmaMatrix}
    (ordered : mine.idOfActiveNodes.Pairwise (· < ·))
    (sameLength :
      (discoverIds mine newMat).length = mine.idOfActiveNodes.length) :
    discoverIds mine newMat = mine.idOfActiveNodes := by
  unfold discoverIds at sameLength ⊢
  obtain ⟨added, shape⟩ :=
    appendUnknownIds_prefix mine.idOfActiveNodes newMat.idOfActiveNodes
  rw [shape, List.length_insertionSort, List.length_append] at sameLength
  have nothingAdded : added = [] := by
    apply List.eq_nil_of_length_eq_zero
    omega
  rw [shape, nothingAdded, List.append_nil]
  exact List.Pairwise.insertionSort_eq
    (ordered.imp (fun less => UInt8.le_of_lt less))

/-- Two forests over the same positions that agree there are the same table. -/
theorem IsForest.eq_of_agree
    {num : Nat}
    {first second : Nat → Nat → UInt8}
    (firstForest : IsForest num first)
    (secondForest : IsForest num second)
    (agree : ∀ i, i < num → ∀ j, j < num → first i j = second i j) :
    first = second := by
  have zeroOutside :
      ∀ {tree : Nat → Nat → UInt8}, IsForest num tree →
        ∀ {i j}, ¬ (i < num ∧ j < num) → tree i j = 0 := by
    intro tree forest i j outside
    rcases forest.binary i j with absent | present
    · exact absent
    · exact (outside (forest.inBounds present)).elim
  funext i j
  by_cases inside : i < num ∧ j < num
  · exact agree i inside.1 j inside.2
  · rw [zeroOutside firstForest inside, zeroOutside secondForest inside]

/-- What `topology_changed` compares when it stays false. -/
theorem topologyChanged_eq_false
    {nodesBefore : Nat}
    {oldMst : Nat → Nat → UInt8}
    {after : MatrixState}
    (unchanged : topologyChanged nodesBefore oldMst after = false) :
    after.myMatrix.numberOfActiveNodes = nodesBefore ∧
      (2 ≤ nodesBefore →
        ∀ i, i < nodesBefore → ∀ j, j < nodesBefore →
          oldMst i j = after.spanningTree i j) := by
  unfold topologyChanged at unchanged
  simp only [Bool.or_eq_false_iff, decide_eq_false_iff_not, ne_eq,
    not_not, Bool.and_eq_false_iff, List.any_eq_false,
    List.mem_range] at unchanged
  obtain ⟨sameNumber, compared⟩ := unchanged
  refine ⟨sameNumber, ?_⟩
  intro atLeastTwo i iInBounds j jInBounds
  rcases compared with small | same
  · exact absurd ⟨by omega, atLeastTwo⟩ small
  · have row := same i (by omega)
    simp only [Bool.not_eq_true, List.any_eq_false, List.mem_range,
      bne_iff_ne, ne_eq, not_not] at row
    exact row j (by omega)

/--
While the tree belongs to the listed identifiers, an unnoticed merge leaves
the identifiers and the tree as they were.
-/
theorem unnoticed_update
    {mode : LinkQualityMode}
    {me : UInt8}
    {state : MatrixState}
    (listed : state.myMatrix.Listed me)
    (planted : state.Planted)
    (current : state.myMatrix.idOfActiveNodes = state.treeIds)
    {newMat : TdmaMatrix}
    {otherIp : UInt8}
    {time : ℚ}
    (unchanged :
      topologyChanged state.myMatrix.numberOfActiveNodes state.spanningTree
        (matrixStep mode state (.update newMat otherIp time)) = false) :
    (matrixStep mode state
          (.update newMat otherIp time)).myMatrix.idOfActiveNodes =
        state.myMatrix.idOfActiveNodes ∧
      (matrixStep mode state (.update newMat otherIp time)).spanningTree =
        state.spanningTree := by
  obtain ⟨sameNumber, sameCells⟩ := topologyChanged_eq_false unchanged
  have sameIds :
      (matrixStep mode state
          (.update newMat otherIp time)).myMatrix.idOfActiveNodes =
        state.myMatrix.idOfActiveNodes := by
    have merged :
        (matrixStep mode state
            (.update newMat otherIp time)).myMatrix.idOfActiveNodes =
          discoverIds state.myMatrix newMat :=
      idOfActiveNodes_mergedMatrix mode _ newMat otherIp time
    unfold TdmaMatrix.numberOfActiveNodes at sameNumber
    rw [merged] at sameNumber ⊢
    exact discoverIds_of_length listed.ordered sameNumber
  refine ⟨sameIds, ?_⟩
  have newForest :
      IsForest state.myMatrix.numberOfActiveNodes
        (matrixStep mode state (.update newMat otherIp time)).spanningTree := by
    rw [← sameNumber]
    exact isForest_primAlgorithmWeighted mode _
  have oldForest :
      IsForest state.myMatrix.numberOfActiveNodes state.spanningTree := by
    unfold TdmaMatrix.numberOfActiveNodes
    rw [current]
    exact planted
  apply newForest.eq_of_agree oldForest
  intro i iInBounds j jInBounds
  by_cases atLeastTwo : 2 ≤ state.myMatrix.numberOfActiveNodes
  · exact (sameCells atLeastTwo i iInBounds j jInBounds).symm
  · -- A single position has no edge.
    have sameEnds : i = j := by omega
    rw [sameEnds, newForest.loopless, oldForest.loopless]

/-!
## The invariant
-/

/-- The current routes are in the table, or on their way to it. -/
inductive Accounted (me : UInt8) (node : MeshNode) : Prop where
  | pending (isPending : node.pushPending = true)
  | queued (isQueued : 0 < node.eventQueue)
  | handling (atSnapshot : node.handler = .handling)
  | computing
      (snap : MatrixSnapshot)
      (atRecompute : node.handler = .computing snap)
      (isCurrent :
        snapshotRoute me snap =
          snapshotRoute me (matrixGetSnapshot node.matrix))
  | settled
      (idle : node.handler = .waiting)
      (isCurrent :
        ∀ i, (node.routingTable i).route =
          snapshotRoute me (matrixGetSnapshot node.matrix) i)

/-- A change of the globals that keeps the routes keeps them accounted for. -/
theorem Accounted.of_sameRoutes
    {me : UInt8}
    {node next : MeshNode}
    (accounted : Accounted me node)
    (samePending : next.pushPending = node.pushPending)
    (sameQueue : next.eventQueue = node.eventQueue)
    (sameHandler : next.handler = node.handler)
    (sameTable : next.routingTable = node.routingTable)
    (sameRoutes :
      snapshotRoute me (matrixGetSnapshot next.matrix) =
        snapshotRoute me (matrixGetSnapshot node.matrix)) :
    Accounted me next := by
  cases accounted with
  | pending isPending =>
      exact .pending (samePending.trans isPending)
  | queued isQueued =>
      exact .queued (by rwa [sameQueue])
  | handling atSnapshot =>
      exact .handling (sameHandler.trans atSnapshot)
  | computing snap atRecompute isCurrent =>
      exact .computing snap (sameHandler.trans atRecompute)
        (isCurrent.trans sameRoutes.symm)
  | settled idle isCurrent =>
      refine .settled (sameHandler.trans idle) ?_
      intro i
      rw [sameTable, sameRoutes]
      exact isCurrent i

/-- What every run keeps whose merges notice the removals before them. -/
structure FollowsInvariant (me : UInt8) (node : MeshNode) : Prop where
  listed : node.matrix.myMatrix.Listed me
  planted : node.matrix.Planted
  within :
    node.matrix.myMatrix.idOfActiveNodes.Sublist node.matrix.treeIds
  accounted :
    node.matrix.myMatrix.idOfActiveNodes = node.matrix.treeIds →
    Accounted me node

/--
A merge comes before any removal since the tree was computed, or it lists an
identifier that is not listed yet.
-/
def NoticesRemovals (node : MeshNode) : NodeAction → Prop
  | .matrix (.update newMat _ _) =>
      node.matrix.myMatrix.idOfActiveNodes = node.matrix.treeIds ∨
        ∃ id ∈ newMat.idOfActiveNodes,
          id ∉ node.matrix.myMatrix.idOfActiveNodes
  | _ => True

instance (node : MeshNode) : DecidablePred (NoticesRemovals node)
  | .matrix (.update newMat _ _) =>
      haveI :=
        List.decidableBEx
          (fun id => id ∉ node.matrix.myMatrix.idOfActiveNodes)
      inferInstanceAs
        (Decidable
          (node.matrix.myMatrix.idOfActiveNodes = node.matrix.treeIds ∨
            ∃ id ∈ newMat.idOfActiveNodes,
              id ∉ node.matrix.myMatrix.idOfActiveNodes))
  | .matrix (.serialize _ _) => .isTrue trivial
  | .matrix (.removeDeadLinks _) => .isTrue trivial
  | .matrix (.updateLinkQuality _ _) => .isTrue trivial
  | .matrix (.setLinkQuality _ _) => .isTrue trivial
  | .pushEvent => .isTrue trivial
  | .popEvent => .isTrue trivial
  | .takeSnapshot => .isTrue trivial
  | .recompute => .isTrue trivial

/-- The matrix operations of the node are those that a run may take. -/
def NodeEnabled
    (numNodes : Nat)
    (me : UInt8)
    (node : MeshNode)
    (action : NodeAction) : Prop :=
  ∀ operation, action.matrixAction? = some operation →
    matrixEnabled numNodes me node.matrix operation

instance
    (numNodes : Nat)
    (me : UInt8)
    (node : MeshNode) :
    DecidablePred (NodeEnabled numNodes me node)
  | .matrix operation =>
      decidable_of_iff (matrixEnabled numNodes me node.matrix operation)
        (by simp [NodeEnabled, NodeAction.matrixAction?])
  | .pushEvent => .isTrue (by simp [NodeEnabled, NodeAction.matrixAction?])
  | .popEvent => .isTrue (by simp [NodeEnabled, NodeAction.matrixAction?])
  | .takeSnapshot =>
      .isTrue (by simp [NodeEnabled, NodeAction.matrixAction?])
  | .recompute => .isTrue (by simp [NodeEnabled, NodeAction.matrixAction?])

/-- A merge that lists a new identifier changes the number of nodes. -/
theorem topologyChanged_of_newId
    {mode : LinkQualityMode}
    {state : MatrixState}
    {newMat : TdmaMatrix}
    (otherIp : UInt8)
    (time : ℚ)
    {id : UInt8}
    (reported : id ∈ newMat.idOfActiveNodes)
    (unlisted : id ∉ state.myMatrix.idOfActiveNodes) :
    topologyChanged state.myMatrix.numberOfActiveNodes state.spanningTree
      (matrixStep mode state (.update newMat otherIp time)) = true := by
  by_contra unchanged
  have sameNumber :=
    (topologyChanged_eq_false (by simpa using unchanged)).1
  have merged :
      (matrixStep mode state
          (.update newMat otherIp time)).myMatrix.idOfActiveNodes =
        discoverIds state.myMatrix newMat :=
    idOfActiveNodes_mergedMatrix mode _ newMat otherIp time
  unfold TdmaMatrix.numberOfActiveNodes at sameNumber
  rw [merged] at sameNumber
  obtain ⟨added, shape⟩ :=
    appendUnknownIds_prefix state.myMatrix.idOfActiveNodes
      newMat.idOfActiveNodes
  rw [discoverIds, List.length_insertionSort, shape,
    List.length_append] at sameNumber
  have nothingAdded : added = [] := by
    apply List.eq_nil_of_length_eq_zero
    omega
  rw [nothingAdded, List.append_nil] at shape
  apply unlisted
  rw [← shape, mem_appendUnknownIds]
  exact .inr reported

/-- A merge keeps the invariant when it notices the removals before it. -/
private theorem FollowsInvariant.update
    {mode : LinkQualityMode}
    {me : UInt8}
    {node : MeshNode}
    (invariant : FollowsInvariant me node)
    {newMat : TdmaMatrix}
    {otherIp : UInt8}
    {time : ℚ}
    (noneOutstanding : node.pushPending = false)
    (notices :
      NoticesRemovals node (.matrix (.update newMat otherIp time))) :
    FollowsInvariant me
      (nodeStep mode node (.matrix (.update newMat otherIp time))) where
  listed := listed_matrixStep invariant.listed
  planted := planted_matrixStep invariant.planted
  within := List.Sublist.refl _
  accounted := by
    intro _
    cases changed :
        topologyChanged node.matrix.myMatrix.numberOfActiveNodes
          node.matrix.spanningTree
          (matrixStep mode node.matrix (.update newMat otherIp time)) with
    | true =>
        exact .pending changed
    | false =>
        rcases notices with current | ⟨id, reported, unlisted⟩
        · obtain ⟨sameIds, sameTree⟩ :=
            unnoticed_update invariant.listed invariant.planted current
              changed
          exact (invariant.accounted current).of_sameRoutes
            (changed.trans noneOutstanding.symm) rfl rfl rfl
            (snapshotRoute_congr sameIds sameTree)
        · have noticed :
              topologyChanged node.matrix.myMatrix.numberOfActiveNodes
                node.matrix.spanningTree
                (matrixStep mode node.matrix
                  (.update newMat otherIp time)) = true :=
            topologyChanged_of_newId otherIp time reported unlisted
          rw [changed] at noticed
          exact (Bool.false_ne_true noticed).elim

/-- Any other matrix operation either removes a node or keeps the routes. -/
private theorem FollowsInvariant.shrink
    {me : UInt8}
    {node next : MeshNode}
    (invariant : FollowsInvariant me node)
    (listed : next.matrix.myMatrix.Listed me)
    (sameTree : next.matrix.spanningTree = node.matrix.spanningTree)
    (sameTreeIds : next.matrix.treeIds = node.matrix.treeIds)
    (shrinks :
      next.matrix.myMatrix.idOfActiveNodes.Sublist
        node.matrix.myMatrix.idOfActiveNodes)
    (samePending : next.pushPending = node.pushPending)
    (sameQueue : next.eventQueue = node.eventQueue)
    (sameHandler : next.handler = node.handler)
    (sameTable : next.routingTable = node.routingTable) :
    FollowsInvariant me next where
  listed := listed
  planted := by
    unfold MatrixState.Planted
    rw [sameTree, sameTreeIds]
    exact invariant.planted
  within := by
    rw [sameTreeIds]
    exact shrinks.trans invariant.within
  accounted := by
    intro current
    rw [sameTreeIds] at current
    have sameIds :
        next.matrix.myMatrix.idOfActiveNodes =
          node.matrix.myMatrix.idOfActiveNodes := by
      apply shrinks.antisymm
      rw [current]
      exact invariant.within
    rw [sameIds] at current
    exact (invariant.accounted current).of_sameRoutes samePending sameQueue
      sameHandler sameTable (snapshotRoute_congr sameIds sameTree)

/-- Expiring dead links only takes identifiers out of the list. -/
theorem sublist_removeDeadLinks
    {mat : TdmaMatrix}
    (distinct : mat.idOfActiveNodes.Nodup)
    (time : ℚ) :
    (removeDeadLinks mat time).idOfActiveNodes.Sublist
      mat.idOfActiveNodes := by
  rw [idOfActiveNodes_removeDeadLinks distinct]
  exact List.filter_sublist

/-- A step of the threads around the matrix keeps the globals. -/
private theorem FollowsInvariant.of_sameMatrix
    {me : UInt8}
    {node next : MeshNode}
    (invariant : FollowsInvariant me node)
    (sameMatrix : next.matrix = node.matrix)
    (accounted :
      node.matrix.myMatrix.idOfActiveNodes = node.matrix.treeIds →
      Accounted me node →
      Accounted me next) :
    FollowsInvariant me next where
  listed := by
    rw [sameMatrix]
    exact invariant.listed
  planted := by
    rw [sameMatrix]
    exact invariant.planted
  within := by
    rw [sameMatrix]
    exact invariant.within
  accounted := by
    rw [sameMatrix]
    intro current
    exact accounted current (invariant.accounted current)

/-- Every step of a thread keeps the current routes accounted for. -/
theorem FollowsInvariant.step
    {mode : LinkQualityMode}
    {me : UInt8}
    {node : MeshNode}
    {action : NodeAction}
    (invariant : FollowsInvariant me node)
    (allowed : PhaseAllows node action)
    (notices : NoticesRemovals node action) :
    FollowsInvariant me (nodeStep mode node action) := by
  cases action with
  | matrix operation =>
      have listed : (matrixStep mode node.matrix operation).myMatrix.Listed me :=
        listed_matrixStep invariant.listed
      cases operation with
      | update newMat otherIp time =>
          exact invariant.update allowed notices
      | serialize removalTime time =>
          exact invariant.shrink listed rfl rfl
            (sublist_removeDeadLinks invariant.listed.distinct removalTime)
            rfl rfl rfl rfl
      | removeDeadLinks time =>
          exact invariant.shrink listed rfl rfl
            (sublist_removeDeadLinks invariant.listed.distinct time)
            rfl rfl rfl rfl
      | updateLinkQuality nodeId timeout =>
          exact invariant.shrink listed rfl rfl
            (by simp [nodeStep, matrixStep]) rfl rfl rfl rfl
      | setLinkQuality nodeId quality =>
          exact invariant.shrink listed rfl rfl
            (by simp [nodeStep, matrixStep]) rfl rfl rfl rfl
  | pushEvent =>
      simp only [nodeStep]
      split
      · exact invariant.of_sameMatrix rfl
          (fun _ _ => .queued (Nat.succ_pos _))
      · exact invariant
  | popEvent =>
      simp only [nodeStep]
      split
      · exact invariant.of_sameMatrix rfl (fun _ _ => .handling rfl)
      · exact invariant
  | takeSnapshot =>
      simp only [nodeStep]
      split
      · exact invariant.of_sameMatrix rfl
          (fun _ _ => .computing _ rfl rfl)
      · exact invariant
  | recompute =>
      simp only [nodeStep]
      split
      · rename_i snap atRecompute
        refine invariant.of_sameMatrix rfl ?_
        intro _ accounted
        cases accounted with
        | pending isPending =>
            exact .pending isPending
        | queued isQueued =>
            exact .queued isQueued
        | handling atSnapshot =>
            rw [atRecompute] at atSnapshot
            cases atSnapshot
        | computing other atOther isCurrent =>
            rw [atRecompute] at atOther
            cases atOther
            refine .settled rfl ?_
            intro i
            rw [invariant.listed.own]
            exact congrFun isCurrent i
        | settled idle isCurrent =>
            rw [atRecompute] at idle
            cases idle
      · exact invariant

/-- Nothing is queued, pushed or handled. -/
structure MeshNode.Drained (node : MeshNode) : Prop where
  noPush : node.pushPending = false
  noEvent : node.eventQueue = 0
  idle : node.handler = .waiting

/-- The step may take nodes out of the list. -/
def NodeAction.Removes : NodeAction → Prop
  | .matrix (.serialize _ _) => True
  | .matrix (.removeDeadLinks _) => True
  | _ => False

/-- The last topology operation is a merge: no removal comes after it. -/
def MergedLast (actions : List NodeAction) : Prop :=
  ∃ earlier newMat otherIp time later,
    actions = earlier ++ .matrix (.update newMat otherIp time) :: later ∧
      ∀ action ∈ later, ¬ action.Removes

/-- A step that removes nothing keeps the tree with its own nodes. -/
theorem current_nodeStep
    {mode : LinkQualityMode}
    {node : MeshNode}
    {action : NodeAction}
    (current : node.matrix.myMatrix.idOfActiveNodes = node.matrix.treeIds)
    (keeps : ¬ action.Removes) :
    (nodeStep mode node action).matrix.myMatrix.idOfActiveNodes =
      (nodeStep mode node action).matrix.treeIds := by
  rw [matrix_nodeStep]
  cases action with
  | matrix operation =>
      cases operation with
      | update newMat otherIp time =>
          rfl
      | serialize removalTime time =>
          exact (keeps trivial).elim
      | removeDeadLinks time =>
          exact (keeps trivial).elim
      | updateLinkQuality nodeId timeout =>
          simpa [matrixStep, NodeAction.matrixAction?] using current
      | setLinkQuality nodeId quality =>
          simpa [matrixStep, NodeAction.matrixAction?] using current
  | pushEvent =>
      exact current
  | popEvent =>
      exact current
  | takeSnapshot =>
      exact current
  | recompute =>
      exact current

/-- A run whose last topology operation is a merge ends with the tree's own nodes. -/
theorem current_of_mergedLast
    {mode : LinkQualityMode}
    {enabled : MeshNode → NodeAction → Prop}
    {initial node : MeshNode}
    {actions : List NodeAction}
    (run : StepRun.Run (nodeStep mode) enabled initial actions node)
    (mergedLast : MergedLast actions) :
    node.matrix.myMatrix.idOfActiveNodes = node.matrix.treeIds := by
  obtain ⟨earlier, newMat, otherIp, time, later, rfl, noRemoval⟩ := mergedLast
  induction later using List.reverseRecOn generalizing node with
  | nil =>
      obtain ⟨before, _, _, rfl⟩ := run.last_step
      rfl
  | append_singleton rest last inductionHypothesis =>
      rw [← List.cons_append, ← List.append_assoc] at run
      obtain ⟨before, shorter, _, rfl⟩ := run.last_step
      have current :=
        inductionHypothesis
          (fun action member =>
            noRemoval action (List.mem_append_left _ member)) shorter
      exact current_nodeStep current
        (noRemoval last (List.mem_append_right _ (List.mem_singleton_self _)))

/-- Before the threads run there is nothing to route to. -/
theorem followsInvariant_nodeStart
    (me : UInt8)
    (time : ℚ) :
    FollowsInvariant me (nodeStart me time) where
  listed := listed_matrixInit me time
  planted := planted_matrixStart me time
  within := List.Sublist.refl _
  accounted := by
    intro _
    refine .settled rfl ?_
    intro i
    cases i with
    | zero =>
        simp [nodeStart, snapshotRoute, matrixGetSnapshot, matrixStart,
          matrixInit, TdmaMatrix.zeroed, routingManagerRecompute,
          routingEntryAt]
    | succ i =>
        rfl

/-- A valid entry of a table that follows a snapshot names a listed node. -/
private theorem listed_of_valid
    {me : UInt8}
    {snap : MatrixSnapshot}
    {table : Nat → RoutingEntry}
    (follows : ∀ i, (table i).route = snapshotRoute me snap i)
    {i : Nat}
    {k : UInt8}
    (isDestination : (table i).destination = k)
    (isValid : (table i).valid = true) :
    k ∈ snap.idOfActiveNodes := by
  have route := follows i
  rw [RoutingEntry.route, isDestination, isValid] at route
  obtain ⟨sameId, sameRest⟩ := Prod.mk.inj route
  obtain ⟨-, sameValid⟩ := Prod.mk.inj sameRest
  have filled := filledEntry_of_valid sameValid.symm
  rw [sameId]
  exact List.mem_of_getElem? filled.owner

/-- An identifier that is not listed has no valid entry in a recomputed table. -/
theorem lookup_eq_zero_of_unlisted
    {me : UInt8}
    {snap : MatrixSnapshot}
    {table : Nat → RoutingEntry}
    (follows : ∀ i, (table i).route = snapshotRoute me snap i)
    {k : UInt8}
    (unlisted : k ∉ snap.idOfActiveNodes)
    (numNodes : Nat) :
    routingManagerLookup numNodes table k = 0 := by
  unfold routingManagerLookup
  cases found :
      (List.range numNodes).find? fun i =>
        (table i).destination == k && (table i).valid with
  | none =>
      rfl
  | some i =>
      have matched := List.find?_some found
      rw [Bool.and_eq_true, beq_iff_eq] at matched
      exact absurd (listed_of_valid follows matched.1 matched.2) unlisted

/--
In every run whose merges notice the removals before them, once the last
topology operation is a merge and the handler has drained the queue, the
table holds the routes of the current snapshot; a node that has been removed
has none.
-/
theorem routes_follow_topology
    (mode : LinkQualityMode)
    (me : UInt8)
    (start : ℚ)
    {actions : List NodeAction}
    {node : MeshNode}
    (run :
      StepRun.Run (nodeStep mode)
        (fun node action =>
          PhaseAllows node action ∧ NoticesRemovals node action)
        (nodeStart me start) actions node)
    (mergedLast : MergedLast actions)
    (drained : node.Drained) :
    (∀ i, (node.routingTable i).route =
        (routingManagerRecompute me (matrixGetSnapshot node.matrix)
          i).route) ∧
      ∀ numNodes k,
        k ∉ node.matrix.myMatrix.idOfActiveNodes →
        routingManagerLookup numNodes node.routingTable k = 0 := by
  have invariant : FollowsInvariant me node :=
    run.invariant (FollowsInvariant me) (followsInvariant_nodeStart me start)
      (fun invariant allowed => invariant.step allowed.1 allowed.2)
  have current := current_of_mergedLast run mergedLast
  have follows :
      ∀ i, (node.routingTable i).route =
        snapshotRoute me (matrixGetSnapshot node.matrix) i := by
    cases invariant.accounted current with
    | pending isPending =>
        rw [drained.noPush] at isPending
        cases isPending
    | queued isQueued =>
        rw [drained.noEvent] at isQueued
        cases isQueued
    | handling atSnapshot =>
        rw [drained.idle] at atSnapshot
        cases atSnapshot
    | computing snap atRecompute isCurrent =>
        rw [drained.idle] at atRecompute
        cases atRecompute
    | settled idle isCurrent =>
        exact isCurrent
  exact ⟨follows,
    fun numNodes k unlisted =>
      lookup_eq_zero_of_unlisted follows unlisted numNodes⟩

/-- The receiver and the handler work off one event. -/
def handleEvent : List NodeAction :=
  [.pushEvent, .popEvent, .takeSnapshot, .recompute]

/--
Nodes 2 and 3 are heard and then only node 2, so that node 3 is removed when
the beacon is serialised; the next beacon of node 2 reports node 4.
-/
def removalIsNoticed : List NodeAction :=
  [.matrix (.update (beaconOfRows [2] [[0]] [0]) 2 10)] ++ handleEvent ++
    [.matrix (.update (beaconOfRows [3] [[0]] [0]) 3 10)] ++ handleEvent ++
    [.matrix (.update (beaconOfRows [2] [[0]] [0]) 2 11),
      .matrix (.serialize 12 12),
      .matrix
        (.update (beaconOfRows [2, 4] [[0, 1], [1, 0]] [0, 0]) 2 12)] ++
    handleEvent

/-- The table then has the routes of the new tree, and none to node 3. -/
theorem routes_follow_topology_removalIsNoticed :
    let node :=
      removalIsNoticed.foldl (nodeStep .test) (nodeStart 1 0)
    (∀ i, (node.routingTable i).route =
        (routingManagerRecompute 1 (matrixGetSnapshot node.matrix)
          i).route) ∧
      routingManagerLookup 4 node.routingTable 3 = 0 := by
  intro node
  obtain ⟨follows, removed⟩ :=
    routes_follow_topology .test 1 0
      (StepRun.Run.of_checkRun (by decide +kernel) :
        StepRun.Run _ _ _ removalIsNoticed _)
      ⟨removalIsNoticed.take 12, _, _, _, handleEvent, rfl,
        by simp [handleEvent, NodeAction.Removes]⟩
      ⟨by decide +kernel, by decide +kernel, by with_unfolding_all rfl⟩
  exact ⟨follows, removed 4 3 (by decide +kernel)⟩

/--
Nodes 2 and 3 are heard, node 2 once more, and then only node 2: node 3 is
removed when the beacon is serialised, and the merge after that finds the
number of nodes and the compared part of the tree as they were.
-/
def removalGoesUnnoticed : List NodeAction :=
  [.matrix (.update (beaconOfRows [2] [[0]] [0]) 2 10)] ++ handleEvent ++
    [.matrix (.update (beaconOfRows [3] [[0]] [0]) 3 10)] ++ handleEvent ++
    [.matrix (.update (beaconOfRows [2] [[0]] [0]) 2 11),
      .matrix (.serialize 12 12),
      .matrix (.update (beaconOfRows [2] [[0]] [0]) 2 12)]

/-- The table keeps the route to node 3 that is no longer in the topology. -/
theorem routes_do_not_follow_removalGoesUnnoticed :
    ¬ ∀ actions node,
      StepRun.Run (nodeStep .test)
        (fun node action =>
          PhaseAllows node action ∧ NodeEnabled 3 1 node action)
        (nodeStart 1 0) actions node →
      MergedLast actions →
      node.Drained →
      ∀ i, (node.routingTable i).route =
        (routingManagerRecompute 1 (matrixGetSnapshot node.matrix)
          i).route := by
  intro always
  have follows :=
    always removalGoesUnnoticed
      (removalGoesUnnoticed.foldl (nodeStep .test) (nodeStart 1 0))
      (StepRun.Run.of_checkRun (by decide +kernel))
      ⟨removalGoesUnnoticed.dropLast, _, _, _, [], rfl, by simp⟩
      ⟨by decide +kernel, by decide +kernel, by rfl⟩
      2
  revert follows
  decide +kernel

end RoutingMesh
