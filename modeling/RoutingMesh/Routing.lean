import RoutingMesh.GuardedSearch
import RoutingMesh.Matrix

/-!
# The routing manager

Model of the user-space part of `routing.c`: the neighbour lists built from
the spanning tree, the routing table filled from them, and the lookup.  The
lists are built by prepending, as the source links new nodes in front.
-/

namespace RoutingMesh

/-- `matrix_snapshot_t`, as filled by `MATRIX_get_snapshot`. -/
structure MatrixSnapshot where
  idOfActiveNodes : List UInt8
  linkQuality : Nat → Nat → UInt8
  mst : Nat → Nat → UInt8

namespace MatrixSnapshot

/-- The `numberOfActiveNodes` of a snapshot. -/
def numberOfActiveNodes (snap : MatrixSnapshot) : Nat :=
  snap.idOfActiveNodes.length

end MatrixSnapshot

/-- A secondary `route_node_t`: a node that is reachable through a neighbour. -/
structure SecondaryRoute where
  nodeId : UInt8
  quality : UInt8
  deriving Repr, DecidableEq

/-- A primary `route_node_t`: a neighbour with the list of nodes behind it. -/
structure PrimaryRoute where
  nodeId : UInt8
  quality : UInt8
  reachable : List SecondaryRoute
  deriving Repr, DecidableEq

/-- `find_node_index`; `none` stands for the result -1. -/
def findNodeIndex (activeNodes : List UInt8) (nodeId : UInt8) : Option Nat :=
  activeNodes.idxOf? nodeId

/--
`is_reachable_via_mst`, with the marks it leaves in `visited`.  Each call
marks one more position, so `numActive` calls can be nested.
-/
def isReachableViaMst
    (mst : Nat → Nat → UInt8)
    (numActive startIdx targetIdx : Nat)
    (visited : Nat → Bool) : Bool × (Nat → Bool) :=
  GuardedSearch.search (fun a b => mst a b != 0) (List.range numActive)
    targetIdx numActive startIdx visited

/-- The inner loop of `build_routing_structure`: the list behind neighbour `i`. -/
def secondaryList
    (snap : MatrixSnapshot)
    (myIdx i : Nat) : List SecondaryRoute :=
  (List.range snap.numberOfActiveNodes).foldl
    (fun reachable j =>
      if j = myIdx ∨ j = i then
        reachable
      else if (isReachableViaMst snap.mst snap.numberOfActiveNodes i j
          (fun query => query == myIdx)).1 then
        { nodeId := snap.idOfActiveNodes.getD j 0, quality := 0 } :: reachable
      else
        reachable)
    []

/-- `build_routing_structure`. -/
def buildRoutingStructure
    (myNodeId : UInt8)
    (snap : MatrixSnapshot) : List PrimaryRoute :=
  match findNodeIndex snap.idOfActiveNodes myNodeId with
  | none => []
  | some myIdx =>
      (List.range snap.numberOfActiveNodes).foldl
        (fun primaryList i =>
          if snap.mst myIdx i ≠ 1 then
            primaryList
          else
            { nodeId := snap.idOfActiveNodes.getD i 0
              quality := snap.linkQuality myIdx i
              reachable := secondaryList snap myIdx i } :: primaryList)
        []

/-- `lookup_next_hop`: every secondary list first, then the neighbours themselves. -/
def lookupNextHop
    (primaryList : List PrimaryRoute)
    (destination : UInt8) : UInt8 :=
  match primaryList.find? fun p =>
      p.reachable.any fun s => s.nodeId == destination with
  | some p => p.nodeId
  | none =>
      match primaryList.find? fun p => p.nodeId == destination with
      | some p => p.nodeId
      | none => 0

/-- `routing_entry_t`, without the field `hops` that nothing sets. -/
structure RoutingEntry where
  destination : UInt8
  nextHop : UInt8
  quality : UInt8
  valid : Bool
  deriving Repr, DecidableEq

/-- An entry cleared by `memset`. -/
def RoutingEntry.cleared : RoutingEntry where
  destination := 0
  nextHop := 0
  quality := 0
  valid := false

/-- The body of the loop of `routing_manager_recompute`, at position `i`. -/
def routingEntryAt
    (myNodeId : UInt8)
    (snap : MatrixSnapshot)
    (primaryList : List PrimaryRoute)
    (i : Nat) : RoutingEntry :=
  match snap.idOfActiveNodes[i]? with
  | none => .cleared
  | some destId =>
      if destId = myNodeId then
        .cleared
      else
        let nextHop := lookupNextHop primaryList destId
        if nextHop = 0 then
          .cleared
        else
          { destination := destId
            nextHop := nextHop
            quality :=
              match findNodeIndex snap.idOfActiveNodes myNodeId,
                  findNodeIndex snap.idOfActiveNodes nextHop with
              | some myIdx, some nhIdx => snap.linkQuality myIdx nhIdx
              | _, _ => 0
            valid := true }

/-- The routing table that `routing_manager_recompute` leaves. -/
def routingManagerRecompute
    (myNodeId : UInt8)
    (snap : MatrixSnapshot) : Nat → RoutingEntry :=
  let primaryList := buildRoutingStructure myNodeId snap
  fun i => routingEntryAt myNodeId snap primaryList i

/-- What stands in a valid entry. -/
structure FilledEntry
    (myNodeId : UInt8)
    (snap : MatrixSnapshot)
    (i : Nat)
    (entry : RoutingEntry) : Prop where
  owner : snap.idOfActiveNodes[i]? = some entry.destination
  notSelf : entry.destination ≠ myNodeId
  nextHop :
    entry.nextHop =
      lookupNextHop (buildRoutingStructure myNodeId snap) entry.destination
  routed : entry.nextHop ≠ 0

/-- A valid entry is that of an active node other than this one. -/
theorem filledEntry_of_valid
    {myNodeId : UInt8}
    {snap : MatrixSnapshot}
    {i : Nat}
    (isValid : (routingManagerRecompute myNodeId snap i).valid = true) :
    FilledEntry myNodeId snap i (routingManagerRecompute myNodeId snap i) := by
  unfold routingManagerRecompute routingEntryAt at isValid ⊢
  cases owner : snap.idOfActiveNodes[i]? with
  | none =>
      simp [owner, RoutingEntry.cleared] at isValid
  | some destId =>
      simp only [owner] at isValid ⊢
      by_cases isSelf : destId = myNodeId
      · simp [isSelf, RoutingEntry.cleared] at isValid
      · by_cases noHop :
            lookupNextHop (buildRoutingStructure myNodeId snap) destId = 0
        · simp [isSelf, noHop, RoutingEntry.cleared] at isValid
        · simp only [isSelf, noHop, if_false]
          exact ⟨owner, isSelf, rfl, noHop⟩

/-- `routing_manager_lookup`; 0 stands for no route. -/
def routingManagerLookup
    (numNodes : Nat)
    (routingTable : Nat → RoutingEntry)
    (destination : UInt8) : UInt8 :=
  match (List.range numNodes).find? fun i =>
      (routingTable i).destination == destination &&
        (routingTable i).valid with
  | some i => (routingTable i).nextHop
  | none => 0

end RoutingMesh
