import Mathlib.Data.List.Find
import RoutingMesh.MeshNetwork
import RoutingMesh.RoutingFollows

/-!
# Hop-by-hop forwarding

Each node forwards along its own spanning tree, weighed with link qualities
that no beacon carries.  A hop is a neighbour on the tree of its node, and the
rest of the way avoids that node; but when two nodes weigh a link differently,
each of them can pick the other.
-/

namespace RoutingMesh

/-- Where node `x` sends a packet for `destination`; the table says 0 for nowhere. -/
def MeshNetwork.nextHop
    (numNodes : Nat)
    (network : MeshNetwork)
    (destination x : UInt8) : Option UInt8 :=
  let hop :=
    routingManagerLookup numNodes (network.nodes x).routingTable destination
  if hop = 0 then none else some hop

/--
All nodes hold the same identifiers and the same links, and every table holds
the routes of the current tree of its node.
-/
structure MeshNetwork.Agreed
    (numNodes : Nat)
    (network : MeshNetwork) : Prop where
  sameIds :
    ∀ a, InNetwork numNodes a →
      ∀ b, InNetwork numNodes b →
        (network.nodes a).matrix.myMatrix.idOfActiveNodes =
          (network.nodes b).matrix.myMatrix.idOfActiveNodes
  sameLinks :
    ∀ a, InNetwork numNodes a →
      ∀ b, InNetwork numNodes b →
        ∀ i, i < (network.nodes a).matrix.myMatrix.numberOfActiveNodes →
          ∀ j, j < (network.nodes a).matrix.myMatrix.numberOfActiveNodes →
            (network.nodes a).matrix.myMatrix.matrix i j =
              (network.nodes b).matrix.myMatrix.matrix i j
  recomputed :
    ∀ a, InNetwork numNodes a →
      ∀ i, i < numNodes →
        ((network.nodes a).routingTable i).route =
          snapshotRoute a (matrixGetSnapshot (network.nodes a).matrix) i

/-- All nodes hold the same spanning tree over the active positions. -/
def MeshNetwork.SameTrees
    (numNodes : Nat)
    (network : MeshNetwork) : Prop :=
  ∀ a, InNetwork numNodes a →
    ∀ b, InNetwork numNodes b →
      ∀ i, i < (network.nodes a).matrix.myMatrix.numberOfActiveNodes →
        ∀ j, j < (network.nodes a).matrix.myMatrix.numberOfActiveNodes →
          (network.nodes a).matrix.spanningTree i j =
            (network.nodes b).matrix.spanningTree i j

/-!
## What every run keeps
-/

/-- Only identifiers of the network are listed or in flight. -/
structure MeshNetwork.Inhabited
    (numNodes : Nat)
    (network : MeshNetwork) : Prop where
  nodes :
    ∀ i, InNetwork numNodes i →
      ∀ id ∈ (network.nodes i).matrix.myMatrix.idOfActiveNodes,
        InNetwork numNodes id
  inFlight :
    ∀ beacon ∈ network.sent,
      ∀ id ∈ beacon.content.idOfActiveNodes, InNetwork numNodes id

/-- The identifiers after an operation were listed before or are merged by it. -/
theorem mem_matrixStep
    {mode : LinkQualityMode}
    {me : UInt8}
    {state : MatrixState}
    {action : MatrixAction}
    (listed : state.myMatrix.Listed me)
    {id : UInt8}
    (isListed :
      id ∈ (matrixStep mode state action).myMatrix.idOfActiveNodes) :
    id ∈ state.myMatrix.idOfActiveNodes ∨
      ∃ newMat otherIp time,
        action = .update newMat otherIp time ∧
          id ∈ newMat.idOfActiveNodes := by
  have expired :
      ∀ {time : ℚ},
        id ∈ (removeDeadLinks state.myMatrix time).idOfActiveNodes →
        id ∈ state.myMatrix.idOfActiveNodes :=
    fun kept =>
      (sublist_removeDeadLinks listed.distinct _).subset kept
  cases action with
  | update newMat otherIp time =>
      rw [matrixStep, idOfActiveNodes_mergedMatrix, mem_discoverIds] at isListed
      exact isListed.imp_right fun reported =>
        ⟨newMat, otherIp, time, rfl, reported⟩
  | serialize removalTime time =>
      exact .inl (expired isListed)
  | removeDeadLinks time =>
      exact .inl (expired isListed)
  | updateLinkQuality nodeId timeout =>
      exact .inl (by simpa [matrixStep] using isListed)
  | setLinkQuality nodeId quality =>
      exact .inl (by simpa [matrixStep] using isListed)

theorem inhabited_networkStart
    (numNodes : Nat)
    (boot : UInt8 → ℚ)
    (clock : ℚ) :
    (networkStart boot clock).Inhabited numNodes where
  nodes i inside id listed := by
    have isSelf : id = i := by
      simpa [networkStart, nodeStart, matrixStart, matrixInit,
        TdmaMatrix.zeroed] using listed
    rwa [isSelf]
  inFlight := by simp [networkStart]

/-- A step of a node brings in no identifier but those of a beacon in flight. -/
private theorem inhabited_nodeStep
    {mode : LinkQualityMode}
    {numNodes : Nat}
    {me : UInt8}
    {node : MeshNode}
    {action : NodeAction}
    (listed : node.matrix.myMatrix.Listed me)
    (inside :
      ∀ id ∈ node.matrix.myMatrix.idOfActiveNodes, InNetwork numNodes id)
    (merges :
      ∀ newMat otherIp time,
        action = .matrix (.update newMat otherIp time) →
        ∀ id ∈ newMat.idOfActiveNodes, InNetwork numNodes id) :
    ∀ id ∈ (nodeStep mode node action).matrix.myMatrix.idOfActiveNodes,
      InNetwork numNodes id := by
  rw [matrix_nodeStep]
  cases action with
  | matrix operation =>
      intro id isListed
      rcases mem_matrixStep listed isListed with
        known | ⟨newMat, otherIp, time, rfl, reported⟩
      · exact inside id known
      · exact merges newMat otherIp time rfl id reported
  | pushEvent =>
      exact inside
  | popEvent =>
      exact inside
  | takeSnapshot =>
      exact inside
  | recompute =>
      exact inside

/-- The updated node and the untouched ones keep to the network. -/
private theorem inhabited_update
    {numNodes : Nat}
    {nodes : UInt8 → MeshNode}
    {me : UInt8}
    {node : MeshNode}
    (atNode :
      ∀ id ∈ node.matrix.myMatrix.idOfActiveNodes, InNetwork numNodes id)
    (elsewhere :
      ∀ i, InNetwork numNodes i →
        ∀ id ∈ (nodes i).matrix.myMatrix.idOfActiveNodes,
          InNetwork numNodes id)
    (i : UInt8)
    (inside : InNetwork numNodes i) :
    ∀ id ∈ (Function.update nodes me node
        i).matrix.myMatrix.idOfActiveNodes,
      InNetwork numNodes id := by
  by_cases isNode : i = me
  · subst isNode
    rwa [Function.update_self]
  · rw [Function.update_of_ne isNode]
    exact elsewhere i inside

/-- Every step of the network keeps to the identifiers of the network. -/
theorem MeshNetwork.Inhabited.networkStep
    {mode : LinkQualityMode}
    {numNodes : Nat}
    {network : MeshNetwork}
    {action : NetworkAction}
    (inhabited : network.Inhabited numNodes)
    (listed : ∀ i, (network.nodes i).matrix.myMatrix.Listed i)
    (allowed : NetworkEnabled numNodes network action) :
    (networkStep mode network action).Inhabited numNodes := by
  cases action with
  | transmit sender removalTime time =>
      have sentIds :
          ∀ id ∈ (nodeStep mode (network.nodes sender)
              (.matrix (.serialize removalTime
                time))).matrix.myMatrix.idOfActiveNodes,
            InNetwork numNodes id :=
        inhabited_nodeStep (listed sender) (inhabited.nodes sender allowed)
          (by simp)
      refine ⟨inhabited_update sentIds inhabited.nodes, ?_⟩
      intro beacon isSent
      rcases List.mem_append.mp isSent with earlier | last
      · exact inhabited.inFlight beacon earlier
      · rw [List.mem_singleton.mp last]
        exact sentIds
  | deliver message receiver time =>
      obtain ⟨inside, _, beacon, found, _⟩ := allowed
      have found : network.sent[message]? = some beacon := found
      simp only [RoutingMesh.networkStep, found]
      refine ⟨inhabited_update ?_ inhabited.nodes, inhabited.inFlight⟩
      apply inhabited_nodeStep (listed receiver)
        (inhabited.nodes receiver inside)
      rintro newMat otherIp reading sameAction
      obtain ⟨rfl, -, -⟩ :
          beacon.content = newMat ∧ beacon.sender = otherIp ∧
            time = reading := by
        simpa using sameAction
      exact inhabited.inFlight beacon (List.mem_of_getElem? found)
  | thread node nodeAction =>
      obtain ⟨inside, staysInside, _⟩ := allowed
      refine ⟨inhabited_update ?_ inhabited.nodes, inhabited.inFlight⟩
      apply inhabited_nodeStep (listed node) (inhabited.nodes node inside)
      rintro newMat otherIp time rfl
      exact staysInside.elim

/-- What holds of the network in every reachable state. -/
structure MeshNetwork.Grounded
    (numNodes : Nat)
    (network : MeshNetwork) : Prop where
  listed : ∀ i, (network.nodes i).matrix.myMatrix.Listed i
  planted : ∀ i, (network.nodes i).matrix.Planted
  inhabited : network.Inhabited numNodes

theorem grounded_of_reachable
    {mode : LinkQualityMode}
    {numNodes : Nat}
    {boot : UInt8 → ℚ}
    {clock : ℚ}
    {network : MeshNetwork}
    (reachable :
      StepRun.Reachable (networkStep mode) (NetworkEnabled numNodes)
        (networkStart boot clock) network) :
    network.Grounded numNodes := by
  apply reachable.invariant (MeshNetwork.Grounded numNodes)
  · exact
      { listed := fun i => listed_matrixInit i (boot i)
        planted := fun i => planted_matrixStart i (boot i)
        inhabited := inhabited_networkStart numNodes boot clock }
  · intro network action grounded allowed
    exact
      { listed :=
          nodes_networkStep (fun i node => node.matrix.myMatrix.Listed i)
            (fun _ listed => listed_nodeStep listed) grounded.listed
        planted :=
          nodes_networkStep (fun _ node => node.matrix.Planted)
            (fun _ planted => planted_nodeStep planted) grounded.planted
        inhabited := grounded.inhabited.networkStep grounded.listed allowed }

/-!
## Forwarding on one tree
-/

/-- Tables with the same routes answer lookups alike. -/
theorem routingManagerLookup_congr
    {numNodes : Nat}
    {first second : Nat → RoutingEntry}
    (sameRoutes :
      ∀ i, i < numNodes → (first i).route = (second i).route)
    (destination : UInt8) :
    routingManagerLookup numNodes first destination =
      routingManagerLookup numNodes second destination := by
  have sameFields :
      ∀ i, i < numNodes →
        (first i).destination = (second i).destination ∧
          (first i).nextHop = (second i).nextHop ∧
          (first i).valid = (second i).valid := by
    intro i inBounds
    simpa [RoutingEntry.route] using sameRoutes i inBounds
  have sameSearch :
      ((List.range numNodes).find? fun i =>
          (first i).destination == destination && (first i).valid) =
        (List.range numNodes).find? fun i =>
          (second i).destination == destination && (second i).valid := by
    apply List.find?_congr
    intro i inRange
    obtain ⟨sameDestination, _, sameValid⟩ :=
      sameFields i (List.mem_range.mp inRange)
    rw [sameDestination, sameValid]
  unfold routingManagerLookup
  rw [sameSearch]
  cases found :
      (List.range numNodes).find? fun i =>
        (second i).destination == destination && (second i).valid with
  | none =>
      rfl
  | some i =>
      have inRange := List.mem_of_find?_eq_some found
      exact (sameFields i (List.mem_range.mp inRange)).2.1

/--
A hop is a neighbour on the tree of its node, and the rest of the way to the
destination avoids the node.
-/
theorem reaches_nextHop
    {numNodes : Nat}
    {network : MeshNetwork}
    (grounded : network.Grounded numNodes)
    {x hop destination : UInt8}
    (recomputed :
      ∀ i, i < numNodes →
        ((network.nodes x).routingTable i).route =
          snapshotRoute x (matrixGetSnapshot (network.nodes x).matrix) i)
    (isHop : network.nextHop numNodes destination x = some hop) :
    let ids := (network.nodes x).matrix.myMatrix.idOfActiveNodes
    let graph :=
      treeGraph (activeTree ids.length (network.nodes x).matrix.spanningTree)
    hop ∈ ids ∧ graph.Adj (ids.idxOf x) (ids.idxOf hop) ∧
      Forest.ReachesAvoiding graph (ids.idxOf x) (ids.idxOf hop)
        (ids.idxOf destination) := by
  intro ids graph
  have distinct : ids.Nodup := (grounded.listed x).distinct
  have posOf : ∀ {i id}, ids[i]? = some id → ids.idxOf id = i := by
    intro i id owner
    obtain ⟨inBounds, rfl⟩ := List.getElem?_eq_some_iff.mp owner
    exact distinct.idxOf_getElem i inBounds
  have self : x ∈ ids := (grounded.listed x).self
  have found : findNodeIndex ids x = some (ids.idxOf x) :=
    (KeyedCells.idxOf?_eq_some_iff_getElem? distinct).mpr
      (List.getElem?_eq_some_iff.mpr
        ⟨List.idxOf_lt_length_of_mem self, List.getElem_idxOf _⟩)
  have treeForest :
      IsForest _ (matrixGetSnapshot (network.nodes x).matrix).mst :=
    grounded.planted x
  simp only [MeshNetwork.nextHop] at isHop
  rw [routingManagerLookup_congr recomputed] at isHop
  split at isHop
  · cases isHop
  · rename_i routed
    obtain ⟨v, d, hopAt, destinationAt, adjacent, reaches⟩ :=
      hop_of_lookup treeForest found (List.idxOf_lt_length_of_mem self)
        routed
    rw [Option.some.inj isHop] at hopAt
    refine ⟨List.mem_of_getElem? hopAt, ?_⟩
    rw [posOf hopAt, posOf destinationAt]
    exact ⟨adjacent, reaches⟩

/-!
## A network that loops
-/

/-- What holds of each number up to `numNodes` holds of every node. -/
theorem forall_inNetwork
    {numNodes : Nat}
    {holds : UInt8 → Prop}
    (each : ∀ k, k < numNodes → holds (UInt8.ofNat (k + 1))) :
    ∀ a, InNetwork numNodes a → holds a := by
  intro a inside
  obtain ⟨positive, bounded⟩ := inside
  have isNumber : UInt8.ofNat (a.toNat - 1 + 1) = a := by
    rw [Nat.sub_add_cancel positive, UInt8.ofNat_toNat]
  rw [← isNumber]
  exact each _ (by omega)

/-- A node merges a beacon, and its threads compute the routing table anew. -/
def mergesAndFollows
    (message : Nat)
    (receiver : UInt8)
    (time : ℚ) : List NetworkAction :=
  .deliver message receiver time :: handleEvent.map (.thread receiver)

/--
Three nodes hear each other; nodes 1 and 2 both miss a slot of node 3, and
then hear each other again, which makes them compute their trees anew.
-/
def twoNodesMissThird : List NetworkAction :=
  List.flatten
    [[.transmit 1 1 1], mergesAndFollows 0 2 1, mergesAndFollows 0 3 1,
      [.transmit 2 (11 / 10) (11 / 10)], mergesAndFollows 1 1 (11 / 10),
      mergesAndFollows 1 3 (11 / 10),
      [.transmit 3 (12 / 10) (12 / 10)], mergesAndFollows 2 1 (12 / 10),
      mergesAndFollows 2 2 (12 / 10),
      [.thread 1 (.matrix (.updateLinkQuality 3 true)),
        .thread 2 (.matrix (.updateLinkQuality 3 true))],
      [.transmit 1 (13 / 10) (13 / 10)], mergesAndFollows 3 2 (13 / 10),
      mergesAndFollows 3 3 (13 / 10),
      [.transmit 2 (14 / 10) (14 / 10)], mergesAndFollows 4 1 (14 / 10),
      [.deliver 4 3 (14 / 10)]]

/-- Node 1 then sends packets for node 3 to node 2, and node 2 to node 1. -/
theorem forwarding_loops_twoNodesMissThird :
    ¬ ∀ network : MeshNetwork,
      StepRun.Reachable (networkStep .test)
        (fun network action =>
          NetworkEnabled 3 network action ∧
            CommonClock network.clock action)
        (networkStart (fun _ => 0) 0) network →
      network.Agreed 3 →
      ∀ source destination,
        InNetwork 3 source →
        InNetwork 3 destination →
        Forwarding.LoopFree (network.nextHop 3 destination) source := by
  intro always
  have loopFree :
      Forwarding.LoopFree
        (MeshNetwork.nextHop 3
          (twoNodesMissThird.foldl (networkStep .test)
            (networkStart (fun _ => 0) 0)) 3) 1 :=
    always
      (twoNodesMissThird.foldl (networkStep .test)
        (networkStart (fun _ => 0) 0))
      ⟨twoNodesMissThird, StepRun.Run.of_checkRun (by decide +kernel)⟩
      { sameIds :=
          forall_inNetwork fun _ _ =>
            forall_inNetwork (by decide +revert +kernel)
        sameLinks :=
          forall_inNetwork fun _ _ =>
            forall_inNetwork (by decide +revert +kernel)
        recomputed := forall_inNetwork (by decide +kernel) }
      1 3 (by decide) (by decide)
  have comesBack : 0 = 2 := loopFree (v := 1) rfl (by decide +kernel)
  exact absurd comesBack (by decide)

end RoutingMesh
