import RoutingMesh.KeyedTable
import RoutingMesh.Routing

/-!
# The routes in the kernel

`routing_manager_recompute` removes the routes of every node from the main
table and all routes from table 200, and installs two routes for each entry
of the new routing table: one over the TUN and one over the physical network.
Whatever the topologies, both tables then hold the routes of the last routing
table and no others.
-/

namespace RoutingMesh

open KeyedTable

/-- The first three octets of an address. -/
structure Ipv4Prefix where
  first : UInt8
  second : UInt8
  third : UInt8
  deriving DecidableEq, Repr

/-- An address as `inet_pton` reads it. -/
structure Ipv4 where
  network : Ipv4Prefix
  host : UInt8
  deriving DecidableEq, Repr

/-- `MESH_NET_BASE`. -/
def meshNetBase : Ipv4Prefix :=
  ⟨10, 0, 0⟩

/-- The address of a node in the mesh. -/
def meshAddress (nodeId : UInt8) : Ipv4 :=
  ⟨meshNetBase, nodeId⟩

/-- The /32 routes of a table: the gateway for each destination. -/
abbrev RouteTable := Ipv4 → Option Ipv4

/-- `ip_route_add` and `ip_route_add_t`: a route that is there is replaced. -/
def ipRouteAdd
    (dest gateway : Ipv4)
    (table : RouteTable) : RouteTable :=
  Function.update table dest (some gateway)

/-- `ip_route_del`. -/
def ipRouteDel
    (dest : Ipv4)
    (table : RouteTable) : RouteTable :=
  Function.update table dest none

/-- `ip_route_flush_table`. -/
def ipRouteFlushTable : RouteTable :=
  fun _ => none

/-- The routing table of the manager, the main table and table 200. -/
structure KernelRouting where
  routingTable : Nat → RoutingEntry
  main : RouteTable
  table200 : RouteTable

/-- `routing_manager_create`, with the routes that are in the main table. -/
def routingManagerCreate (main : RouteTable) : KernelRouting where
  routingTable := fun _ => .cleared
  main := main
  table200 := ipRouteFlushTable

/-- `ip_route_flush_mesh`. -/
def ipRouteFlushMesh
    (numNodes : UInt8)
    (state : KernelRouting) : KernelRouting :=
  { state with
    main :=
      (nodeIds numNodes).foldl
        (fun table i => ipRouteDel (meshAddress i) table) state.main
    table200 := ipRouteFlushTable }

/-- The two routes of an entry; `phyPrefix` is MESH_NET_PREFIX. -/
def addRoutes
    (phyPrefix : Ipv4Prefix)
    (entry : RoutingEntry)
    (state : KernelRouting) : KernelRouting :=
  { state with
    main :=
      ipRouteAdd (meshAddress entry.destination) (meshAddress entry.nextHop)
        state.main
    table200 :=
      ipRouteAdd (meshAddress entry.destination) ⟨phyPrefix, entry.nextHop⟩
        state.table200 }

/-- One round of the loop of `routing_manager_recompute`. -/
def recomputeAt
    (myNodeId : UInt8)
    (phyPrefix : Ipv4Prefix)
    (snap : MatrixSnapshot)
    (primaryList : List PrimaryRoute)
    (state : KernelRouting)
    (i : Nat) : KernelRouting :=
  let entry := routingEntryAt myNodeId snap primaryList i
  let stored :=
    { state with
      routingTable := Function.update state.routingTable i entry }
  -- The loop goes on to the next node before it adds routes to none.
  if entry.valid then addRoutes phyPrefix entry stored else stored

/-- `routing_manager_recompute`. -/
def recomputeKernel
    (myNodeId numNodes : UInt8)
    (phyPrefix : Ipv4Prefix)
    (state : KernelRouting)
    (snap : MatrixSnapshot) : KernelRouting :=
  let flushed := ipRouteFlushMesh numNodes state
  let primaryList := buildRoutingStructure myNodeId snap
  (List.range snap.numberOfActiveNodes).foldl
    (recomputeAt myNodeId phyPrefix snap primaryList)
    { flushed with routingTable := fun _ => .cleared }

/-! ## The loop as a fill of the tables -/

/-- The route of a valid entry over a network. -/
def routeOf
    (network : Ipv4Prefix)
    (entry : RoutingEntry) : Option (Ipv4 × Ipv4) :=
  if entry.valid then
    some (meshAddress entry.destination, ⟨network, entry.nextHop⟩)
  else
    none

/-- The routes of the valid entries at the first positions of a table. -/
def routesOf
    (network : Ipv4Prefix)
    (table : Nat → RoutingEntry)
    (count : Nat) : List (Ipv4 × Ipv4) :=
  (List.range count).filterMap fun i => routeOf network (table i)

theorem routesOf_succ
    (network : Ipv4Prefix)
    (table : Nat → RoutingEntry)
    (count : Nat) :
    routesOf network table (count + 1) =
      routesOf network table count ++
        (routeOf network (table count)).toList := by
  rw [routesOf, List.range_succ, List.filterMap_append, ← routesOf]
  cases shape : routeOf network (table count) <;> simp [shape]

theorem meshAddress_injective : Function.Injective meshAddress :=
  fun _ _ same => congrArg Ipv4.host same

/-- A route comes from a valid entry. -/
theorem mem_routesOf
    {network : Ipv4Prefix}
    {table : Nat → RoutingEntry}
    {count : Nat}
    {dest gateway : Ipv4} :
    (dest, gateway) ∈ routesOf network table count ↔
      ∃ i < count,
        (table i).valid = true ∧
          dest = meshAddress (table i).destination ∧
          gateway = ⟨network, (table i).nextHop⟩ := by
  simp only [routesOf, List.mem_filterMap, List.mem_range, routeOf]
  constructor
  · rintro ⟨i, below, isRoute⟩
    split at isRoute
    · rename_i isValid
      obtain ⟨rfl, rfl⟩ := Prod.mk.inj (Option.some.inj isRoute)
      exact ⟨i, below, isValid, rfl, rfl⟩
    · simp at isRoute
  · rintro ⟨i, below, isValid, rfl, rfl⟩
    exact ⟨i, below, if_pos isValid⟩

section

variable {myNodeId : UInt8}
variable {phyPrefix : Ipv4Prefix}
variable {snap : MatrixSnapshot}

/-- What the tables are when their first positions are filled. -/
structure FilledUpTo
    (phyPrefix : Ipv4Prefix)
    (table : Nat → RoutingEntry)
    (count : Nat)
    (before after : KernelRouting) : Prop where
  routingTable :
    ∀ i,
      after.routingTable i =
        if i < count then table i else before.routingTable i
  main :
    after.main = storeAll (routesOf meshNetBase table count) before.main
  table200 :
    after.table200 = storeAll (routesOf phyPrefix table count) before.table200

/-- What a round of the loop does to the three tables. -/
structure FillsPosition
    (phyPrefix : Ipv4Prefix)
    (entry : RoutingEntry)
    (position : Nat)
    (before after : KernelRouting) : Prop where
  routingTable :
    after.routingTable = Function.update before.routingTable position entry
  main : after.main = storeAll (routeOf meshNetBase entry).toList before.main
  table200 :
    after.table200 = storeAll (routeOf phyPrefix entry).toList before.table200

/-- A round adds the routes of its entry, which are none for an invalid one. -/
theorem fillsPosition_recomputeAt
    (state : KernelRouting)
    (i : Nat) :
    FillsPosition phyPrefix (routingManagerRecompute myNodeId snap i) i state
      (recomputeAt myNodeId phyPrefix snap
        (buildRoutingStructure myNodeId snap) state i) := by
  by_cases isValid : (routingManagerRecompute myNodeId snap i).valid
  · have adds :
        recomputeAt myNodeId phyPrefix snap
            (buildRoutingStructure myNodeId snap) state i =
          addRoutes phyPrefix (routingManagerRecompute myNodeId snap i)
            { state with
              routingTable :=
                Function.update state.routingTable i
                  (routingManagerRecompute myNodeId snap i) } :=
      if_pos isValid
    rw [adds]
    constructor
    · rfl
    · rw [routeOf, if_pos isValid]
      rfl
    · rw [routeOf, if_pos isValid]
      rfl
  · have goesOn :
        recomputeAt myNodeId phyPrefix snap
            (buildRoutingStructure myNodeId snap) state i =
          { state with
            routingTable :=
              Function.update state.routingTable i
                (routingManagerRecompute myNodeId snap i) } :=
      if_neg isValid
    rw [goesOn]
    constructor
    · rfl
    · rw [routeOf, if_neg isValid]
      rfl
    · rw [routeOf, if_neg isValid]
      rfl

/-- Filling the next position extends what is filled. -/
theorem FilledUpTo.next
    {table : Nat → RoutingEntry}
    {count : Nat}
    {before state after : KernelRouting}
    (filled : FilledUpTo phyPrefix table count before state)
    (fills : FillsPosition phyPrefix (table count) count state after) :
    FilledUpTo phyPrefix table (count + 1) before after where
  routingTable i := by
    rw [fills.routingTable, Function.update_apply, filled.routingTable i]
    grind
  main := by
    rw [routesOf_succ, storeAll_append, ← filled.main]
    exact fills.main
  table200 := by
    rw [routesOf_succ, storeAll_append, ← filled.table200]
    exact fills.table200

/-- The loop fills the positions of the active nodes. -/
theorem filledUpTo_foldl
    (state : KernelRouting)
    (count : Nat) :
    FilledUpTo phyPrefix (routingManagerRecompute myNodeId snap) count state
      ((List.range count).foldl
        (recomputeAt myNodeId phyPrefix snap
          (buildRoutingStructure myNodeId snap))
        state) := by
  induction count with
  | zero =>
      exact ⟨fun i => rfl, rfl, rfl⟩
  | succ count inductionHypothesis =>
      rw [List.range_succ, List.foldl_append]
      exact inductionHypothesis.next (fillsPosition_recomputeAt _ count)

/-- The flush clears the mesh routes of all nodes. -/
theorem main_ipRouteFlushMesh
    (numNodes : UInt8)
    (state : KernelRouting) :
    (ipRouteFlushMesh numNodes state).main =
      clearAll ((nodeIds numNodes).map meshAddress) state.main := by
  rw [clearAll, List.foldl_map]
  rfl

/-- Different nodes are active, so different destinations get routes. -/
theorem nodup_routesOf
    (distinct : snap.idOfActiveNodes.Nodup)
    (network : Ipv4Prefix)
    (count : Nat) :
    ((routesOf network (routingManagerRecompute myNodeId snap) count).map
      Prod.fst).Nodup := by
  have owner
      {i : Nat}
      {dest : Ipv4}
      (isKey :
        (routeOf network (routingManagerRecompute myNodeId snap i)).map
          Prod.fst = some dest) :
      snap.idOfActiveNodes[i]? = some dest.host := by
    obtain ⟨route, isRoute, rfl⟩ := Option.map_eq_some_iff.mp isKey
    obtain ⟨isValid, isPair⟩ := Option.ite_none_right_eq_some.mp isRoute
    rw [← Option.some.inj isPair]
    exact (filledEntry_of_valid isValid).owner
  rw [routesOf, List.map_filterMap]
  apply List.nodup_range.filterMap
  intro i j dest first second
  have inBounds := (List.getElem?_eq_some_iff.mp (owner first)).1
  exact (List.getElem?_inj inBounds distinct).mp
    ((owner first).trans (owner second).symm)

end

/-! ## The mirror of the routing table -/

/-- The active ids of a snapshot are different nodes of the network. -/
structure KnowsNodes
    (numNodes : UInt8)
    (snap : MatrixSnapshot) : Prop where
  distinct : snap.idOfActiveNodes.Nodup
  known : ∀ id ∈ snap.idOfActiveNodes, 1 ≤ id ∧ id ≤ numNodes

theorem KnowsNodes.mem_nodeIds
    {numNodes : UInt8}
    {snap : MatrixSnapshot}
    (knows : KnowsNodes numNodes snap)
    {id : UInt8}
    (listed : id ∈ snap.idOfActiveNodes) :
    id ∈ nodeIds numNodes := by
  obtain ⟨positive, atMost⟩ := knows.known id listed
  refine RoutingMesh.mem_nodeIds.mpr ⟨?_, atMost⟩
  rw [UInt8.lt_iff_toNat_lt]
  rw [UInt8.le_iff_toNat_le] at positive
  exact positive

/-- There are at most as many active ids as nodes. -/
theorem KnowsNodes.numberOfActiveNodes_le
    {numNodes : UInt8}
    {snap : MatrixSnapshot}
    (knows : KnowsNodes numNodes snap) :
    snap.numberOfActiveNodes ≤ numNodes.toNat := by
  have within : snap.idOfActiveNodes ⊆ nodeIds numNodes :=
    fun id listed => knows.mem_nodeIds listed
  rw [← length_nodeIds numNodes]
  exact (knows.distinct.subperm within).length_le

/-- Both kernel tables hold the routes of the routing table and no others. -/
structure MirrorsTable
    (phyPrefix : Ipv4Prefix)
    (state : KernelRouting) : Prop where
  main :
    ∀ d gateway,
      state.main (meshAddress d) = some gateway ↔
        ∃ i < maxNodes,
          (state.routingTable i).valid = true ∧
            (state.routingTable i).destination = d ∧
            gateway = meshAddress (state.routingTable i).nextHop
  table200 :
    ∀ dest gateway,
      state.table200 dest = some gateway ↔
        ∃ i < maxNodes,
          (state.routingTable i).valid = true ∧
            dest = meshAddress (state.routingTable i).destination ∧
            gateway = ⟨phyPrefix, (state.routingTable i).nextHop⟩

/-- No route to a mesh address that is not one of a node. -/
def OnlyNodes
    (numNodes : UInt8)
    (state : KernelRouting) : Prop :=
  ∀ d, d ∉ nodeIds numNodes → state.main (meshAddress d) = none

section

variable {myNodeId numNodes : UInt8}
variable {phyPrefix : Ipv4Prefix}
variable {snap : MatrixSnapshot}
variable {state : KernelRouting}

/-- The valid entries are found below the number of active nodes. -/
theorem exists_valid_lt_iff
    (atMostMax : snap.numberOfActiveNodes ≤ maxNodes)
    (holds : RoutingEntry → Prop) :
    (∃ i < snap.numberOfActiveNodes,
        (routingManagerRecompute myNodeId snap i).valid = true ∧
          holds (routingManagerRecompute myNodeId snap i)) ↔
      ∃ i < maxNodes,
        (routingManagerRecompute myNodeId snap i).valid = true ∧
          holds (routingManagerRecompute myNodeId snap i) := by
  constructor
  · rintro ⟨i, below, isValid, rest⟩
    exact ⟨i, Nat.lt_of_lt_of_le below atMostMax, isValid, rest⟩
  · rintro ⟨i, -, isValid, rest⟩
    have owner := (filledEntry_of_valid isValid).owner
    exact ⟨i, (List.getElem?_eq_some_iff.mp owner).1, isValid, rest⟩

/-- The call fills the flushed tables. -/
theorem filledUpTo_recomputeKernel
    (state : KernelRouting) :
    FilledUpTo phyPrefix (routingManagerRecompute myNodeId snap)
      snap.numberOfActiveNodes
      { ipRouteFlushMesh numNodes state with
        routingTable := fun _ => .cleared }
      (recomputeKernel myNodeId numNodes phyPrefix state snap) :=
  filledUpTo_foldl _ _

/-- The call leaves the routing table of its snapshot. -/
theorem routingTable_recomputeKernel
    (state : KernelRouting) :
    (recomputeKernel myNodeId numNodes phyPrefix state snap).routingTable =
      routingManagerRecompute myNodeId snap := by
  funext i
  rw [(filledUpTo_recomputeKernel state).routingTable i]
  split
  · rfl
  · rename_i beyond
    have noOwner : snap.idOfActiveNodes[i]? = none :=
      List.getElem?_eq_none (Nat.not_lt.mp beyond)
    simp only [routingManagerRecompute, routingEntryAt, noOwner]

theorem main_recomputeKernel
    (state : KernelRouting) :
    (recomputeKernel myNodeId numNodes phyPrefix state snap).main =
      storeAll
        (routesOf meshNetBase (routingManagerRecompute myNodeId snap)
          snap.numberOfActiveNodes)
        (clearAll ((nodeIds numNodes).map meshAddress) state.main) := by
  rw [(filledUpTo_recomputeKernel state).main]
  exact congrArg _ (main_ipRouteFlushMesh numNodes state)

theorem table200_recomputeKernel
    (state : KernelRouting) :
    (recomputeKernel myNodeId numNodes phyPrefix state snap).table200 =
      storeAll
        (routesOf phyPrefix (routingManagerRecompute myNodeId snap)
          snap.numberOfActiveNodes)
        ipRouteFlushTable :=
  (filledUpTo_recomputeKernel state).table200

/-- The call leaves exactly the routes of its routing table. -/
theorem mirrorsTable_recomputeKernel
    (knows : KnowsNodes numNodes snap)
    (fits : numNodes.toNat ≤ maxNodes)
    (onlyNodes : OnlyNodes numNodes state) :
    MirrorsTable phyPrefix
      (recomputeKernel myNodeId numNodes phyPrefix state snap) := by
  have atMostMax := knows.numberOfActiveNodes_le.trans fits
  constructor
  · intro d gateway
    have cleared :
        clearAll ((nodeIds numNodes).map meshAddress) state.main
            (meshAddress d) =
          none := by
      rw [clearAll_apply]
      split
      · rfl
      · rename_i notNode
        apply onlyNodes d
        intro isNode
        exact notNode (List.mem_map_of_mem isNode)
    rw [main_recomputeKernel, routingTable_recomputeKernel,
      storeAll_eq_some_iff (nodup_routesOf knows.distinct _ _), cleared,
      mem_routesOf,
      ← exists_valid_lt_iff atMostMax fun entry =>
        entry.destination = d ∧ gateway = meshAddress entry.nextHop]
    simp only [reduceCtorEq, and_false, or_false,
      meshAddress_injective.eq_iff, @eq_comm _ d]
    rfl
  · intro dest gateway
    rw [table200_recomputeKernel, routingTable_recomputeKernel,
      storeAll_eq_some_iff (nodup_routesOf knows.distinct _ _),
      ipRouteFlushTable, mem_routesOf,
      ← exists_valid_lt_iff atMostMax fun entry =>
        dest = meshAddress entry.destination ∧
          gateway = ⟨phyPrefix, entry.nextHop⟩]
    simp only [reduceCtorEq, and_false, or_false]

/-- The routes to addresses outside the mesh stay. -/
theorem main_of_not_mesh
    (state : KernelRouting)
    {dest : Ipv4}
    (outside : dest.network ≠ meshNetBase) :
    (recomputeKernel myNodeId numNodes phyPrefix state snap).main dest =
      state.main dest := by
  have notMesh : ∀ d, dest ≠ meshAddress d := by
    rintro d rfl
    exact outside rfl
  rw [main_recomputeKernel, storeAll_of_not_mem, clearAll_apply, if_neg]
  · intro isNode
    obtain ⟨d, -, same⟩ := List.mem_map.mp isNode
    exact notMesh d same.symm
  · intro isKey
    obtain ⟨route, isRoute, rfl⟩ := List.mem_map.mp isKey
    obtain ⟨i, -, -, same, -⟩ := mem_routesOf.mp isRoute
    exact notMesh _ same

/-- Every entry that is valid is that of another node of the network. -/
def ListsOtherNodes
    (myNodeId numNodes : UInt8)
    (table : Nat → RoutingEntry) : Prop :=
  ∀ i, (table i).valid = true →
    (table i).destination ≠ myNodeId ∧
      (table i).destination ∈ nodeIds numNodes

theorem listsOtherNodes_recompute
    (knows : KnowsNodes numNodes snap) :
    ListsOtherNodes myNodeId numNodes
      (routingManagerRecompute myNodeId snap) := by
  intro i isValid
  have filled := filledEntry_of_valid isValid
  exact ⟨filled.notSelf,
    knows.mem_nodeIds (List.mem_of_getElem? filled.owner)⟩

theorem MirrorsTable.onlyNodes
    (mirrors : MirrorsTable phyPrefix state)
    (others : ListsOtherNodes myNodeId numNodes state.routingTable) :
    OnlyNodes numNodes state := by
  intro d notNode
  by_contra hasRoute
  obtain ⟨gateway, isRoute⟩ := Option.ne_none_iff_exists'.mp hasRoute
  obtain ⟨i, -, isValid, rfl, -⟩ := (mirrors.main d gateway).mp isRoute
  exact notNode (others i isValid).2

/-- No route leads to the node itself. -/
theorem MirrorsTable.local_eq_none
    (mirrors : MirrorsTable phyPrefix state)
    (others : ListsOtherNodes myNodeId numNodes state.routingTable) :
    state.main (meshAddress myNodeId) = none ∧
      state.table200 (meshAddress myNodeId) = none := by
  constructor
  · by_contra hasRoute
    obtain ⟨gateway, isRoute⟩ := Option.ne_none_iff_exists'.mp hasRoute
    obtain ⟨i, -, isValid, isSelf, -⟩ :=
      (mirrors.main myNodeId gateway).mp isRoute
    exact (others i isValid).1 isSelf
  · by_contra hasRoute
    obtain ⟨gateway, isRoute⟩ := Option.ne_none_iff_exists'.mp hasRoute
    obtain ⟨i, -, isValid, isSelf, -⟩ :=
      (mirrors.table200 _ gateway).mp isRoute
    exact (others i isValid).1 (meshAddress_injective isSelf).symm

end

/-! ## Every sequence of topologies -/

/-- What holds after every sequence of calls. -/
structure RoutesInvariant
    (myNodeId numNodes : UInt8)
    (phyPrefix : Ipv4Prefix)
    (main : RouteTable)
    (state : KernelRouting) : Prop where
  mirrors : MirrorsTable phyPrefix state
  others : ListsOtherNodes myNodeId numNodes state.routingTable
  outside :
    ∀ dest, dest.network ≠ meshNetBase → state.main dest = main dest

section

variable {myNodeId numNodes : UInt8}
variable {phyPrefix : Ipv4Prefix}
variable {main : RouteTable}

/-- Before the first call there is no entry and no route to the mesh. -/
theorem routesInvariant_create
    (noRoutes : ∀ d, main (meshAddress d) = none) :
    RoutesInvariant myNodeId numNodes phyPrefix main
      (routingManagerCreate main) where
  mirrors :=
    { main := by simp [routingManagerCreate, noRoutes, RoutingEntry.cleared]
      table200 := by
        simp [routingManagerCreate, ipRouteFlushTable, RoutingEntry.cleared] }
  others := by simp [ListsOtherNodes, routingManagerCreate, RoutingEntry.cleared]
  outside _ _ := rfl

/-- A call keeps it, whatever the topology. -/
theorem RoutesInvariant.recomputeKernel
    {state : KernelRouting}
    (invariant : RoutesInvariant myNodeId numNodes phyPrefix main state)
    (fits : numNodes.toNat ≤ maxNodes)
    {snap : MatrixSnapshot}
    (knows : KnowsNodes numNodes snap) :
    RoutesInvariant myNodeId numNodes phyPrefix main
      (RoutingMesh.recomputeKernel myNodeId numNodes phyPrefix state
        snap) where
  mirrors :=
    mirrorsTable_recomputeKernel knows fits
      (invariant.mirrors.onlyNodes invariant.others)
  others := by
    rw [routingTable_recomputeKernel]
    exact listsOtherNodes_recompute knows
  outside dest isOutside :=
    (main_of_not_mesh state isOutside).trans
      (invariant.outside dest isOutside)

/-- After every sequence of calls it holds. -/
theorem routesInvariant_foldl
    (noRoutes : ∀ d, main (meshAddress d) = none)
    (fits : numNodes.toNat ≤ maxNodes)
    {snaps : List MatrixSnapshot}
    (knows : ∀ snap ∈ snaps, KnowsNodes numNodes snap) :
    RoutesInvariant myNodeId numNodes phyPrefix main
      (snaps.foldl
        (RoutingMesh.recomputeKernel myNodeId numNodes phyPrefix)
        (routingManagerCreate main)) := by
  induction snaps using List.reverseRecOn with
  | nil =>
      exact routesInvariant_create noRoutes
  | append_singleton earlier snap inductionHypothesis =>
      rw [List.foldl_append]
      have before := inductionHypothesis fun other listed =>
        knows other (List.mem_append_left _ listed)
      exact before.recomputeKernel fits
        (knows snap (List.mem_append_right _ (List.mem_singleton_self snap)))

end

/--
After every sequence of calls of `routing_manager_recompute` with any trees
and any lists of different active ids in 1..num_nodes, the routes to the mesh
in the main table and all routes in table 200 are exactly those of the valid
entries of the routing table, which is that of the last topology; none leads
to the node itself, and the other routes of the main table are as before.
-/
theorem kernelRoutes_mirrorTable
    (myNodeId numNodes : UInt8)
    (phyPrefix : Ipv4Prefix)
    (main : RouteTable)
    (noRoutes : ∀ d, main (meshAddress d) = none)
    (fits : numNodes.toNat ≤ maxNodes)
    (snaps : List MatrixSnapshot)
    (knows : ∀ snap ∈ snaps, KnowsNodes numNodes snap) :
    let state :=
      snaps.foldl (recomputeKernel myNodeId numNodes phyPrefix)
        (routingManagerCreate main)
    (∀ d gateway,
        state.main (meshAddress d) = some gateway ↔
          ∃ i < maxNodes,
            (state.routingTable i).valid = true ∧
              (state.routingTable i).destination = d ∧
              gateway = meshAddress (state.routingTable i).nextHop) ∧
      (∀ dest gateway,
        state.table200 dest = some gateway ↔
          ∃ i < maxNodes,
            (state.routingTable i).valid = true ∧
              dest = meshAddress (state.routingTable i).destination ∧
              gateway = ⟨phyPrefix, (state.routingTable i).nextHop⟩) ∧
      (∀ snap ∈ snaps.getLast?,
        state.routingTable = routingManagerRecompute myNodeId snap) ∧
      state.main (meshAddress myNodeId) = none ∧
      state.table200 (meshAddress myNodeId) = none ∧
      ∀ dest, dest.network ≠ meshNetBase → state.main dest = main dest := by
  intro state
  have invariant :
      RoutesInvariant myNodeId numNodes phyPrefix main state :=
    routesInvariant_foldl noRoutes fits knows
  obtain ⟨localMain, localTable200⟩ :=
    invariant.mirrors.local_eq_none invariant.others
  refine ⟨invariant.mirrors.main, invariant.mirrors.table200, ?_, localMain,
    localTable200, invariant.outside⟩
  intro snap isLast
  obtain ⟨earlier, rfl⟩ := List.getLast?_eq_some_iff.mp isLast
  simp only [state, List.foldl_append, List.foldl_cons, List.foldl_nil]
  exact routingTable_recomputeKernel _

/-- Nodes 1, 2 and 3 in a line, seen from node 1. -/
def lineOfThree : MatrixSnapshot where
  idOfActiveNodes := [1, 2, 3]
  linkQuality := fun _ _ => 100
  mst := fun a b => if a + 1 = b ∨ b + 1 = a then 1 else 0

/-- Node 2 is gone. -/
def withoutNode2 : MatrixSnapshot where
  idOfActiveNodes := [1, 3]
  linkQuality := fun _ _ => 100
  mst := fun a b => if a + 1 = b ∨ b + 1 = a then 1 else 0

/-- Node 3 gets a direct route, and the route to node 2 is removed. -/
theorem kernelRoutes_mirrorTable_withoutNode2 :
    let state :=
      [lineOfThree, withoutNode2].foldl (recomputeKernel 1 3 ⟨172, 20, 10⟩)
        (routingManagerCreate fun _ => none)
    state.main (meshAddress 3) = some (meshAddress 3) ∧
      state.table200 (meshAddress 3) = some ⟨⟨172, 20, 10⟩, 3⟩ ∧
      state.main (meshAddress 1) = none := by
  intro state
  have knows :
      ∀ snap ∈ [lineOfThree, withoutNode2], KnowsNodes 3 snap := by
    simp only [List.mem_cons, List.not_mem_nil, or_false]
    rintro snap (rfl | rfl)
    · exact ⟨by decide, by simp [lineOfThree]⟩
    · exact ⟨by decide, by simp [withoutNode2]⟩
  obtain ⟨inMain, inTable200, table, noLocal, -⟩ :=
    kernelRoutes_mirrorTable 1 3 ⟨172, 20, 10⟩ (fun _ => none)
      (fun _ => rfl) (by decide) [lineOfThree, withoutNode2] knows
  have isLast := table withoutNode2 rfl
  refine ⟨(inMain 3 _).mpr ⟨1, by decide, ?_⟩,
    (inTable200 _ _).mpr ⟨1, by decide, ?_⟩, noLocal⟩
  · rw [isLast]
    decide
  · rw [isLast]
    decide

end RoutingMesh
