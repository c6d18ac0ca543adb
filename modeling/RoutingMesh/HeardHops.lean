import RoutingMesh.HeardLinks
import RoutingMesh.LoopFreeForwarding

/-!
# Next hops are neighbours that were heard

A tree is planted on links that were heard, and the event handler computes the
routes from a copy of it.  Between the two, removals can move the identifiers
under the edges.  As long as every copy is made while the edges are in place,
no node ever forwards to one with which it exchanged no beacon.
-/

namespace RoutingMesh

/-- One of two nodes received a beacon of the other. -/
def HeardBetween (delivered : List Delivery) (a b : UInt8) : Prop :=
  ∃ delivery ∈ delivered,
    (delivery.beacon.sender = a ∧ delivery.receiver = b) ∨
      (delivery.beacon.sender = b ∧ delivery.receiver = a)

/-- The edges of a tree over some identifiers join nodes that were heard. -/
def EdgesHeard
    (delivered : List Delivery)
    (ids : List UInt8)
    (tree : Nat → Nat → UInt8) : Prop :=
  ∀ i j a b, tree i j = 1 → ids[i]? = some a → ids[j]? = some b →
    HeardBetween delivered a b

/-- The ends of every edge are at the positions that it was planted for. -/
def MatrixState.EdgesInPlace (state : MatrixState) : Prop :=
  ∀ i, i < state.treeIds.length →
    ∀ j, j < state.treeIds.length →
      state.spanningTree i j = 1 →
        state.myMatrix.idOfActiveNodes[i]? = state.treeIds[i]? ∧
          state.myMatrix.idOfActiveNodes[j]? = state.treeIds[j]?

/-- The event handler copies a tree only while its edges are in place. -/
def CopiesInPlace (network : MeshNetwork) : NetworkAction → Prop
  | .thread node .takeSnapshot =>
      (network.nodes node).matrix.EdgesInPlace
  | _ => True

instance (state : MatrixState) : Decidable state.EdgesInPlace :=
  inferInstanceAs
    (Decidable
      (∀ i, i < state.treeIds.length →
        ∀ j, j < state.treeIds.length →
          state.spanningTree i j = 1 →
            state.myMatrix.idOfActiveNodes[i]? = state.treeIds[i]? ∧
              state.myMatrix.idOfActiveNodes[j]? = state.treeIds[j]?))

instance (network : MeshNetwork) : DecidablePred (CopiesInPlace network)
  | .transmit _ _ _ => .isTrue trivial
  | .deliver _ _ _ => .isTrue trivial
  | .thread _ (.matrix _) => .isTrue trivial
  | .thread _ .pushEvent => .isTrue trivial
  | .thread _ .popEvent => .isTrue trivial
  | .thread node .takeSnapshot =>
      inferInstanceAs (Decidable (network.nodes node).matrix.EdgesInPlace)
  | .thread _ .recompute => .isTrue trivial

section

variable {delivered : List Delivery}
variable {a b me : UInt8}

theorem HeardBetween.symm
    (heard : HeardBetween delivered a b) :
    HeardBetween delivered b a := by
  obtain ⟨delivery, arrived, between⟩ := heard
  exact ⟨delivery, arrived, between.symm⟩

theorem HeardBetween.mono
    (heard : HeardBetween delivered a b)
    (more : List Delivery) :
    HeardBetween (delivered ++ more) a b := by
  obtain ⟨delivery, arrived, between⟩ := heard
  exact ⟨delivery, List.mem_append_left _ arrived, between⟩

theorem EdgesHeard.mono
    {ids : List UInt8}
    {tree : Nat → Nat → UInt8}
    (heard : EdgesHeard delivered ids tree)
    (more : List Delivery) :
    EdgesHeard (delivered ++ more) ids tree := by
  intro i j a b edge ownerOfI ownerOfJ
  exact (heard i j a b edge ownerOfI ownerOfJ).mono more

/-- A link that a node holds was heard by its owner. -/
theorem heardBetween_of_link
    {clock : ℚ}
    {state : MatrixState}
    (heard : state.LinksHeard delivered clock me)
    (isSet : state.myMatrix.topology.link a b ≠ 0) :
    HeardBetween delivered a b := by
  by_cases isMe : a = me
  · subst isMe
    obtain ⟨_, last, arrived, isEnd, isOwner, _⟩ := heard.own b isSet
    exact ⟨last, arrived, .inr ⟨isEnd, isOwner⟩⟩
  · obtain ⟨last, arrived, _, isEnd, isOwner, _⟩ := heard.held a b isMe isSet
    exact ⟨last, arrived, .inr ⟨isEnd, isOwner⟩⟩

/-- The algorithm plants edges on links that were heard. -/
theorem edgesHeard_primAlgorithmWeighted
    (mode : LinkQualityMode)
    {clock : ℚ}
    {state : MatrixState}
    (heard : state.LinksHeard delivered clock me)
    (distinct : state.myMatrix.idOfActiveNodes.Nodup) :
    EdgesHeard delivered state.myMatrix.idOfActiveNodes
      (primAlgorithmWeighted mode state.myMatrix) := by
  intro i j a b edge ownerOfI ownerOfJ
  obtain ⟨iInBounds, jInBounds, isLinked⟩ := linked_of_tree edge
  obtain ⟨_, rfl⟩ := List.getElem?_eq_some_iff.mp ownerOfI
  obtain ⟨_, rfl⟩ := List.getElem?_eq_some_iff.mp ownerOfJ
  have cells :
      state.myMatrix.matrix i j ≠ 0 ∨ state.myMatrix.matrix j i ≠ 0 := by
    simpa [linked] using isLinked
  rcases cells with isSet | isSet
  · rw [← TdmaMatrix.link_getElem distinct iInBounds jInBounds] at isSet
    exact heardBetween_of_link heard isSet
  · rw [← TdmaMatrix.link_getElem distinct jInBounds iInBounds] at isSet
    exact (heardBetween_of_link heard isSet).symm

/-- A copy of the tree from which the routes of `me` can be computed. -/
structure MatrixSnapshot.Heard
    (delivered : List Delivery)
    (me : UInt8)
    (snap : MatrixSnapshot) : Prop where
  forest : ∃ planted, IsForest planted snap.mst
  distinct : snap.idOfActiveNodes.Nodup
  self : me ∈ snap.idOfActiveNodes
  edges : EdgesHeard delivered snap.idOfActiveNodes snap.mst

/-- Routes along heard edges lead to neighbours that were heard. -/
theorem MatrixSnapshot.Heard.hop
    {snap : MatrixSnapshot}
    (heard : snap.Heard delivered me)
    {numNodes : Nat}
    {destination : UInt8}
    (routed :
      routingManagerLookup numNodes (routingManagerRecompute me snap)
        destination ≠ 0) :
    HeardBetween delivered me
      (routingManagerLookup numNodes (routingManagerRecompute me snap)
        destination) := by
  obtain ⟨planted, forest⟩ := heard.forest
  have inBounds := List.idxOf_lt_length_of_mem heard.self
  have ownAt :
      snap.idOfActiveNodes[snap.idOfActiveNodes.idxOf me]? = some me :=
    List.getElem?_eq_some_iff.mpr ⟨inBounds, List.getElem_idxOf _⟩
  obtain ⟨v, d, hopAt, _, adjacent, _⟩ :=
    hop_of_lookup forest
      ((KeyedCells.idxOf?_eq_some_iff_getElem? heard.distinct).mpr ownAt)
      inBounds routed
  obtain ⟨_, edge⟩ := (SimpleGraph.fromRel_adj _ _ _).mp adjacent
  rcases edge with edge | edge
  · exact heard.edges _ _ _ _ (activeTree_eq_one.mp edge).1 ownAt hopAt
  · exact (heard.edges _ _ _ _ (activeTree_eq_one.mp edge).1 hopAt
      ownAt).symm

end

/-!
## The invariant
-/

/-- The tree, the copy in hand and the routes of a node follow heard links. -/
structure MeshNode.HopsHeard
    (delivered : List Delivery)
    (me : UInt8)
    (node : MeshNode) : Prop where
  planted : node.matrix.Planted
  tree :
    EdgesHeard delivered node.matrix.treeIds node.matrix.spanningTree
  copied :
    ∀ snap, node.handler = .computing snap → snap.Heard delivered me
  routed :
    ∀ numNodes destination,
      routingManagerLookup numNodes node.routingTable destination ≠ 0 →
        HeardBetween delivered me
          (routingManagerLookup numNodes node.routingTable destination)

namespace MeshNode.HopsHeard

variable {mode : LinkQualityMode}
variable {delivered : List Delivery}
variable {me : UInt8}
variable {node : MeshNode}

theorem mono
    (hops : node.HopsHeard delivered me)
    (more : List Delivery) :
    node.HopsHeard (delivered ++ more) me where
  planted := hops.planted
  tree := hops.tree.mono more
  copied snap computing :=
    { hops.copied snap computing with
      edges := (hops.copied snap computing).edges.mono more }
  routed numNodes destination isRouted :=
    (hops.routed numNodes destination isRouted).mono more

/-- A copy that is made while the edges are in place has heard edges. -/
theorem snapshot
    (hops : node.HopsHeard delivered me)
    (isListed : node.matrix.myMatrix.Listed me)
    (inPlace : node.matrix.EdgesInPlace) :
    (matrixGetSnapshot node.matrix).Heard delivered me where
  forest := ⟨_, hops.planted⟩
  distinct := isListed.distinct
  self := isListed.self
  edges i j a b edge ownerOfI ownerOfJ := by
    obtain ⟨iInBounds, jInBounds⟩ := hops.planted.inBounds edge
    obtain ⟨sameAtI, sameAtJ⟩ := inPlace i iInBounds j jInBounds edge
    exact hops.tree i j a b edge (sameAtI.symm.trans ownerOfI)
      (sameAtJ.symm.trans ownerOfJ)

/-- A matrix operation plants a new tree on heard links, or keeps the old one. -/
theorem matrix
    (hops : node.HopsHeard delivered me)
    (isListed : node.matrix.myMatrix.Listed me)
    {operation : MatrixAction}
    {clock : ℚ}
    (after :
      (matrixStep mode node.matrix operation).LinksHeard delivered clock me) :
    (nodeStep mode node (.matrix operation)).HopsHeard delivered me where
  planted := planted_nodeStep hops.planted
  tree := by
    cases operation with
    | update newMat otherIp time =>
        have stillListed :
            (matrixStep mode node.matrix
              (.update newMat otherIp time)).myMatrix.Listed me :=
          listed_matrixStep isListed
        exact edgesHeard_primAlgorithmWeighted mode after stillListed.distinct
    | serialize removalTime time =>
        exact hops.tree
    | removeDeadLinks time =>
        exact hops.tree
    | updateLinkQuality nodeId timeout =>
        exact hops.tree
    | setLinkQuality nodeId quality =>
        exact hops.tree
  copied := by
    cases operation <;> exact hops.copied
  routed := by
    cases operation <;> exact hops.routed

/-- Every step of a node keeps to heard links. -/
theorem nodeStep
    (hops : node.HopsHeard delivered me)
    (isListed : node.matrix.myMatrix.Listed me)
    {action : NodeAction}
    (inPlace : action = .takeSnapshot → node.matrix.EdgesInPlace)
    {clock : ℚ}
    (after :
      (nodeStep mode node action).matrix.LinksHeard delivered clock me) :
    (nodeStep mode node action).HopsHeard delivered me := by
  cases action with
  | matrix operation =>
      rw [matrix_nodeStep] at after
      exact hops.matrix isListed after
  | pushEvent =>
      simp only [RoutingMesh.nodeStep]
      split
      · exact ⟨hops.planted, hops.tree, hops.copied, hops.routed⟩
      · exact hops
  | popEvent =>
      simp only [RoutingMesh.nodeStep]
      split
      · exact ⟨hops.planted, hops.tree, by simp, hops.routed⟩
      · exact hops
  | takeSnapshot =>
      simp only [RoutingMesh.nodeStep]
      split
      · refine ⟨hops.planted, hops.tree, ?_, hops.routed⟩
        intro snap computing
        obtain rfl := HandlerPhase.computing.inj computing
        exact hops.snapshot isListed (inPlace rfl)
      · exact hops
  | recompute =>
      simp only [RoutingMesh.nodeStep]
      split
      · rename_i snap computing
        refine ⟨hops.planted, hops.tree, by simp, ?_⟩
        intro numNodes destination isRouted
        rw [isListed.own] at isRouted ⊢
        exact (hops.copied snap computing).hop isRouted
      · exact hops

end MeshNode.HopsHeard

/-- Before the threads run a node has no edges and no routes. -/
theorem hopsHeard_nodeStart (me : UInt8) (time : ℚ) :
    (nodeStart me time).HopsHeard [] me where
  planted := planted_matrixStart me time
  tree := by
    intro i j a b edge
    simp [nodeStart, matrixStart] at edge
  copied := by simp [nodeStart]
  routed := by
    intro numNodes destination isRouted
    simp only [routingManagerLookup] at isRouted
    split at isRouted
    · rename_i i found
      simpa [nodeStart, RoutingEntry.cleared] using List.find?_some found
    · exact (isRouted rfl).elim

/-- Every step of the network keeps its nodes to heard links. -/
theorem hopsHeard_networkStep
    {mode : LinkQualityMode}
    {numNodes : Nat}
    {network : MeshNetwork}
    {action : NetworkAction}
    (hops : ∀ i, (network.nodes i).HopsHeard network.delivered i)
    (traced : network.Traced)
    (after : (networkStep mode network action).LinksHeard)
    (allowed : NetworkEnabled numNodes network action)
    (inPlace : CopiesInPlace network action) :
    ∀ i,
      ((networkStep mode network action).nodes i).HopsHeard
        (networkStep mode network action).delivered i := by
  cases action with
  | transmit sender removalTime time =>
      have atSender := after.held sender
      simp only [networkStep, Function.update_self] at atSender
      exact (Function.forall_update_iff _ fun i (node : MeshNode) =>
        node.HopsHeard network.delivered i).mpr
          ⟨(hops sender).nodeStep (traced.listed sender) (by simp) atSender,
            fun i _ => hops i⟩
  | deliver message receiver time =>
      obtain ⟨_, _, beacon, found, _⟩ := allowed
      have isBeacon : network.sent[message]? = some beacon := found
      have atReceiver := after.held receiver
      simp only [networkStep, isBeacon, Function.update_self]
        at atReceiver ⊢
      exact (Function.forall_update_iff _ fun i (node : MeshNode) =>
        node.HopsHeard (network.delivered ++ [_]) i).mpr
          ⟨((hops receiver).mono _).nodeStep (traced.listed receiver)
              (by simp) atReceiver,
            fun i _ => (hops i).mono _⟩
  | thread node action =>
      have atNode := after.held node
      simp only [networkStep, Function.update_self] at atNode
      refine (Function.forall_update_iff _ fun i (node : MeshNode) =>
        node.HopsHeard network.delivered i).mpr
          ⟨(hops node).nodeStep (traced.listed node) ?_ atNode,
            fun i _ => hops i⟩
      rintro rfl
      exact inPlace

/--
In every run of a network with a common clock in which the event handlers copy
the tree only while its edges are in place, a next hop is a neighbour that was
heard: of the two nodes one received a beacon of the other.
-/
theorem nextHops_heard
    (mode : LinkQualityMode)
    (numNodes : Nat)
    (boot : UInt8 → ℚ)
    (clock : ℚ)
    {network : MeshNetwork}
    (reachable :
      StepRun.Reachable (networkStep mode)
        (fun network action =>
          NetworkEnabled numNodes network action ∧
            CommonClock network.clock action ∧
            CopiesInPlace network action)
        (networkStart boot clock) network)
    {destination x hop : UInt8}
    (isHop : network.nextHop numNodes destination x = some hop) :
    ∃ delivery ∈ network.delivered,
      (delivery.beacon.sender = x ∧ delivery.receiver = hop) ∨
        (delivery.beacon.sender = hop ∧ delivery.receiver = x) := by
  have invariant :
      network.Traced ∧ network.LinksHeard ∧
        ∀ i, (network.nodes i).HopsHeard network.delivered i :=
    reachable.invariant
      (fun network =>
        network.Traced ∧ network.LinksHeard ∧
          ∀ i, (network.nodes i).HopsHeard network.delivered i)
      ⟨traced_networkStart boot clock, linksHeard_networkStart boot clock,
        fun i => hopsHeard_nodeStart i (boot i)⟩
      (by
        rintro network action ⟨traced, heard, hops⟩
          ⟨allowed, inStep, inPlace⟩
        have after : (networkStep mode network action).LinksHeard :=
          heard.networkStep traced allowed inStep
        exact ⟨traced.networkStep allowed inStep, after,
          hopsHeard_networkStep hops traced after allowed inPlace⟩)
  simp only [MeshNetwork.nextHop] at isHop
  split at isHop
  · cases isHop
  · rename_i isRouted
    rw [← Option.some.inj isHop]
    exact (invariant.2.2 x).routed numNodes destination isRouted

/-- Node 3 hears of node 1 from node 2, and computes its routes. -/
def hearsThroughSecond : List NetworkAction :=
  relayedOnce ++ handleEvent.map (.thread 3)

/-- It sends packets for node 1 to node 2, whose beacon it received. -/
theorem nextHops_heard_hearsThroughSecond :
    ∃ delivery ∈ (hearsThroughSecond.foldl (networkStep .test)
        (networkStart (fun _ => 0) 0)).delivered,
      (delivery.beacon.sender = 3 ∧ delivery.receiver = 2) ∨
        (delivery.beacon.sender = 2 ∧ delivery.receiver = 3) :=
  nextHops_heard .test 3 (fun _ => 0) 0
    ⟨hearsThroughSecond, StepRun.Run.of_checkRun (by decide +kernel)⟩
    (show MeshNetwork.nextHop 3 _ 1 3 = some 2 by decide +kernel)

/--
Node 1 hears of node 4 from node 3.  Before its event handler copies the tree,
its own transmission removes node 2, which moves node 4 to the end of the edge
of node 3.
-/
def copiesAfterRemoval : List NetworkAction :=
  [.transmit 2 1 1,
    .deliver 0 1 1,
    .thread 1 .pushEvent,
    .transmit 4 (3 / 2) (3 / 2),
    .deliver 1 3 (3 / 2),
    .transmit 3 2 2,
    .deliver 2 1 2,
    .thread 1 .pushEvent,
    .thread 1 .popEvent,
    .transmit 1 3 3,
    .thread 1 .takeSnapshot,
    .thread 1 .recompute]

/-- It then forwards to node 4, although the two exchanged no beacon. -/
theorem nextHops_unheard_copiesAfterRemoval :
    ¬ ∀ network : MeshNetwork,
      StepRun.Reachable (networkStep .test)
        (fun network action =>
          NetworkEnabled 4 network action ∧
            CommonClock network.clock action)
        (networkStart (fun _ => 0) 0) network →
      ∀ destination x hop,
        network.nextHop 4 destination x = some hop →
          ∃ delivery ∈ network.delivered,
            (delivery.beacon.sender = x ∧ delivery.receiver = hop) ∨
              (delivery.beacon.sender = hop ∧ delivery.receiver = x) := by
  intro always
  have heard :=
    always
      (copiesAfterRemoval.foldl (networkStep .test)
        (networkStart (fun _ => 0) 0))
      ⟨copiesAfterRemoval, StepRun.Run.of_checkRun (by decide +kernel)⟩
      4 1 4 (by decide +kernel)
  revert heard
  decide +kernel

end RoutingMesh
