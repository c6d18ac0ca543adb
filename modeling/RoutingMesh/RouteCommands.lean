import RoutingMesh.RouteRequests
import RoutingMesh.RoutingLookup

/-!
# What the requests leave in the kernel

The kernel gets the requests of `routing_manager_recompute` one after the
other.  It is a parameter, of which only what `rtnetlink` documents is
assumed: it puts a route in place of another one when it can reach the
gateway, and removes a route only over the interface that the request names.
So the flush works because the routes to the mesh in the main table go over
the TUN.  After any topologies the tables are those of the calls that the
requests stand for.
-/

namespace RoutingMesh

/-! ## The kernel -/

/-- A route to one address, by a gateway. -/
structure KernelRoute where
  gateway : Ipv4
  ifindex : UInt32
  deriving DecidableEq, Repr

/-- The routes of each table. -/
abbrev KernelTables := UInt32 → Ipv4 → Option KernelRoute

/-- What the kernel is told to do. -/
inductive KernelCommand where
  | send (message : List UInt8)
  | flushTable (tableId : UInt32)
  deriving DecidableEq, Repr

/-- Put a route in a table, or take it out. -/
def KernelTables.setRoute
    (tables : KernelTables)
    (tableId : UInt32)
    (dest : Ipv4)
    (route : Option KernelRoute) : KernelTables :=
  Function.update tables tableId
    (Function.update (tables tableId) dest route)

/-- The interface of a route is the one that is asked for; 0 is any. -/
def MatchesInterface (ifindex : UInt32) (route : Option KernelRoute) : Prop :=
  ∀ found ∈ route, ifindex = 0 ∨ found.ifindex = ifindex

instance (ifindex : UInt32) (route : Option KernelRoute) :
    Decidable (MatchesInterface ifindex route) :=
  inferInstanceAs (Decidable (∀ found ∈ route, _))

/--
The routes of the kernel, which is not in the repository: the tables of a
state, the gateways that it reaches over an interface, and what a message and
`ip route flush table` make of a state.
-/
structure Rtnetlink (σ : Type) where
  tables : σ → KernelTables
  reaches : Ipv4 → UInt32 → Prop
  receive : σ → List UInt8 → σ
  flush : σ → UInt32 → σ

section

variable {σ : Type}

/--
What is documented: NLM_F_CREATE with NLM_F_REPLACE puts the route there,
whatever was there, if the gateway can be reached; RTM_DELROUTE removes the
route over the interface that it names; a flush empties the table.
-/
structure Rtnetlink.Documented (kernel : Rtnetlink σ) : Prop where
  replaces :
    ∀ state message tableId dest gateway ifindex,
      requestedChange message = some (.replace tableId dest gateway ifindex) →
        kernel.reaches gateway ifindex →
        kernel.tables (kernel.receive state message) =
          (kernel.tables state).setRoute tableId dest
            (some ⟨gateway, ifindex⟩)
  deletes :
    ∀ state message tableId dest ifindex,
      requestedChange message = some (.delete tableId dest ifindex) →
        MatchesInterface ifindex (kernel.tables state tableId dest) →
        kernel.tables (kernel.receive state message) =
          (kernel.tables state).setRoute tableId dest none
  flushes :
    ∀ state tableId,
      kernel.tables (kernel.flush state tableId) =
        Function.update (kernel.tables state) tableId fun _ => none

/-- The kernel gets a command. -/
def Rtnetlink.run
    (kernel : Rtnetlink σ)
    (state : σ) : KernelCommand → σ
  | .send message => kernel.receive state message
  | .flushTable tableId => kernel.flush state tableId

/-- The commands one after the other. -/
def Rtnetlink.runAll
    (kernel : Rtnetlink σ)
    (commands : List KernelCommand)
    (state : σ) : σ :=
  commands.foldl kernel.run state

end

/-! ## The commands of a call -/

/-- The indices of `mesh_iface` and of MESH_PHY_IFACE, 0 for a missing one. -/
structure Interfaces where
  mesh : UInt32
  phy : UInt32

/-- `nl_send`, unless an error came before it. -/
def nlSend (request : Option RouteRequest) : List KernelCommand :=
  (request.map fun built => .send built.bytes).toList

/-- `ip_route_flush_mesh`. -/
def flushMeshCommands
    (numNodes : UInt8)
    (ifindex : UInt32) : List KernelCommand :=
  ((nodeIds numNodes).flatMap fun i =>
      nlSend (ipRouteDelRequest (addressText meshNetBase.text i) ifindex)) ++
    [.flushTable 200]

/-- The two routes of an entry. -/
def addCommands
    (phyPrefix : Ipv4Prefix)
    (interfaces : Interfaces)
    (entry : RoutingEntry) : List KernelCommand :=
  if entry.valid then
    let destIp := addressText meshNetBase.text entry.destination
    let tunGw := addressText meshNetBase.text entry.nextHop
    let phyGw := addressText phyPrefix.text entry.nextHop
    nlSend (ipRouteAddRequest destIp tunGw interfaces.mesh) ++
      nlSend (ipRouteAddTRequest destIp phyGw interfaces.phy 200)
  else
    []

/-- `routing_manager_recompute`, as the kernel sees it. -/
def recomputeCommands
    (myNodeId numNodes : UInt8)
    (phyPrefix : Ipv4Prefix)
    (interfaces : Interfaces)
    (snap : MatrixSnapshot) : List KernelCommand :=
  let primaryList := buildRoutingStructure myNodeId snap
  flushMeshCommands numNodes interfaces.mesh ++
    (List.range snap.numberOfActiveNodes).flatMap fun i =>
      addCommands phyPrefix interfaces
        (routingEntryAt myNodeId snap primaryList i)

/-! ## What the tables show -/

/-- A table has these routes, those to the mesh over one interface. -/
structure ShowsTable
    (ifindex : UInt32)
    (table : Ipv4 → Option KernelRoute)
    (shown : RouteTable) : Prop where
  gateways : ∀ dest, (table dest).map KernelRoute.gateway = shown dest
  interface :
    ∀ d, ∀ route ∈ table (meshAddress d), route.ifindex = ifindex

/-- The tables are those of the routing manager, and the others are as before. -/
structure Shows
    (interfaces : Interfaces)
    (before tables : KernelTables)
    (state : KernelRouting) : Prop where
  main : ShowsTable interfaces.mesh (tables rtTableMain.toUInt32) state.main
  relayed :
    ShowsTable interfaces.phy (tables 200)
      (if interfaces.phy = 0 then ipRouteFlushTable else state.table200)
  others :
    ∀ tableId, tableId ≠ rtTableMain.toUInt32 → tableId ≠ 200 →
      tables tableId = before tableId

section

variable {ifindex : UInt32}
variable {table : Ipv4 → Option KernelRoute}
variable {shown : RouteTable}

theorem showsTable_empty :
    ShowsTable ifindex (fun _ => none) ipRouteFlushTable where
  gateways _ := rfl
  interface := by simp

/-- A route that is added over the interface is shown. -/
theorem ShowsTable.replace
    (shows : ShowsTable ifindex table shown)
    (dest gateway : Ipv4) :
    ShowsTable ifindex
      (Function.update table dest (some ⟨gateway, ifindex⟩))
      (ipRouteAdd dest gateway shown) where
  gateways other := by
    unfold ipRouteAdd
    by_cases same : other = dest
    · subst same
      simp
    · simp only [Function.update_of_ne same]
      exact shows.gateways other
  interface d route isRoute := by
    by_cases same : meshAddress d = dest
    · subst same
      rw [Function.update_self] at isRoute
      rw [← Option.some.inj isRoute]
    · rw [Function.update_of_ne same] at isRoute
      exact shows.interface d route isRoute

/-- A route to the mesh is found over the interface and removed. -/
theorem ShowsTable.delete
    (shows : ShowsTable ifindex table shown)
    (dest : Ipv4) :
    ShowsTable ifindex (Function.update table dest none)
      (ipRouteDel dest shown) where
  gateways other := by
    unfold ipRouteDel
    by_cases same : other = dest
    · subst same
      simp
    · simp only [Function.update_of_ne same]
      exact shows.gateways other
  interface d route isRoute := by
    by_cases same : meshAddress d = dest
    · subst same
      simp at isRoute
    · rw [Function.update_of_ne same] at isRoute
      exact shows.interface d route isRoute

end

/-! ## Running the commands -/

/--
The kernel reaches the nodes of a topology as gateways over the TUN, and over
the physical interface, if that is there.
-/
def Rtnetlink.ReachesNodes
    {σ : Type}
    (kernel : Rtnetlink σ)
    (phyPrefix : Ipv4Prefix)
    (interfaces : Interfaces)
    (snap : MatrixSnapshot) : Prop :=
  ∀ hop ∈ snap.idOfActiveNodes,
    kernel.reaches (meshAddress hop) interfaces.mesh ∧
      (interfaces.phy ≠ 0 → kernel.reaches ⟨phyPrefix, hop⟩ interfaces.phy)

section

variable {σ : Type}
variable {kernel : Rtnetlink σ}

@[simp]
theorem runAll_append
    (first second : List KernelCommand)
    (state : σ) :
    kernel.runAll (first ++ second) state =
      kernel.runAll second (kernel.runAll first state) :=
  List.foldl_append

/-- A request that is accepted puts its route in the table. -/
theorem AsksFor.tables_replace
    (documented : kernel.Documented)
    {request : RouteRequest}
    {tableId ifindex : UInt32}
    {dest gateway : Ipv4}
    (asks : AsksFor request (.replace tableId dest gateway ifindex))
    (reached : kernel.reaches gateway ifindex)
    (state : σ) :
    kernel.tables (kernel.runAll (nlSend (some request)) state) =
      (kernel.tables state).setRoute tableId dest (some ⟨gateway, ifindex⟩) :=
  documented.replaces state request.bytes tableId dest gateway ifindex
    asks.read reached

/-- A request finds the route that it removes, or none. -/
theorem AsksFor.tables_delete
    (documented : kernel.Documented)
    {request : RouteRequest}
    {tableId ifindex : UInt32}
    {dest : Ipv4}
    (asks : AsksFor request (.delete tableId dest ifindex))
    {state : σ}
    (sameInterface :
      MatchesInterface ifindex (kernel.tables state tableId dest)) :
    kernel.tables (kernel.runAll (nlSend (some request)) state) =
      (kernel.tables state).setRoute tableId dest none :=
  documented.deletes state request.bytes tableId dest ifindex asks.read
    sameInterface

end

section

variable {σ : Type}
variable {kernel : Rtnetlink σ}
variable {interfaces : Interfaces}
variable {phyPrefix : Ipv4Prefix}

/-- The removals of `ip_route_flush_mesh`, for any nodes. -/
theorem shows_deletes
    (documented : kernel.Documented)
    (found : interfaces.mesh ≠ 0)
    (ids : List UInt8) :
    ∀ {state : σ} {shown : RouteTable},
      ShowsTable interfaces.mesh
          (kernel.tables state rtTableMain.toUInt32) shown →
        let after :=
          kernel.tables
            (kernel.runAll
              (ids.flatMap fun i =>
                nlSend
                  (ipRouteDelRequest (addressText meshNetBase.text i)
                    interfaces.mesh))
              state)
        ShowsTable interfaces.mesh (after rtTableMain.toUInt32)
            (ids.foldl (fun table i => ipRouteDel (meshAddress i) table)
              shown) ∧
          ∀ tableId, tableId ≠ rtTableMain.toUInt32 →
            after tableId = kernel.tables state tableId := by
  induction ids with
  | nil =>
      intro state shown shows
      exact ⟨shows, fun _ _ => rfl⟩
  | cons i rest inductionHypothesis =>
      intro state shown shows
      obtain ⟨asked, builds, asks⟩ :=
        @asksFor_ipRouteDel meshNetBase i interfaces.mesh found
      have removes :
          kernel.tables (kernel.runAll (nlSend (some asked)) state) =
            (kernel.tables state).setRoute rtTableMain.toUInt32
              (meshAddress i) none :=
        asks.tables_delete documented fun route isRoute =>
          .inr (shows.interface i route isRoute)
      have showsNext :
          ShowsTable interfaces.mesh
            (kernel.tables (kernel.runAll (nlSend (some asked)) state)
              rtTableMain.toUInt32)
            (ipRouteDel (meshAddress i) shown) := by
        rw [removes, KernelTables.setRoute, Function.update_self]
        exact shows.delete (meshAddress i)
      obtain ⟨showsRest, frame⟩ := inductionHypothesis showsNext
      rw [List.flatMap_cons, runAll_append, builds, List.foldl_cons]
      refine ⟨showsRest, fun tableId other => ?_⟩
      rw [frame tableId other, removes, KernelTables.setRoute,
        Function.update_of_ne other]

/-- The flush, whatever table 200 holds. -/
theorem shows_flushMesh
    (documented : kernel.Documented)
    (found : interfaces.mesh ≠ 0)
    (numNodes : UInt8)
    {state : σ}
    {manager : KernelRouting}
    (main :
      ShowsTable interfaces.mesh (kernel.tables state rtTableMain.toUInt32)
        manager.main) :
    Shows interfaces (kernel.tables state)
      (kernel.tables
        (kernel.runAll (flushMeshCommands numNodes interfaces.mesh) state))
      (ipRouteFlushMesh numNodes manager) := by
  obtain ⟨showsMain, frame⟩ :=
    shows_deletes documented found (nodeIds numNodes) main
  have flushed :
      ∀ state : σ,
        kernel.tables (kernel.runAll [.flushTable 200] state) =
          Function.update (kernel.tables state) 200 fun _ => none :=
    fun state => documented.flushes state 200
  rw [flushMeshCommands, runAll_append, flushed]
  constructor
  · exact showsMain
  · have relayed :
        (if interfaces.phy = 0 then ipRouteFlushTable
          else (ipRouteFlushMesh numNodes manager).table200) =
          ipRouteFlushTable :=
      ite_self _
    rw [relayed]
    exact showsTable_empty
  · intro tableId notMain not200
    exact (Function.update_of_ne not200 _ _).trans (frame tableId notMain)

/-- Both routes of an entry that is valid. -/
theorem Shows.addRoutes
    (documented : kernel.Documented)
    (found : interfaces.mesh ≠ 0)
    {before : KernelTables}
    {state : σ}
    {manager : KernelRouting}
    (shows : Shows interfaces before (kernel.tables state) manager)
    {entry : RoutingEntry}
    (isValid : entry.valid = true)
    (overTun :
      kernel.reaches (meshAddress entry.nextHop) interfaces.mesh)
    (overPhy :
      interfaces.phy ≠ 0 →
        kernel.reaches ⟨phyPrefix, entry.nextHop⟩ interfaces.phy) :
    Shows interfaces before
      (kernel.tables
        (kernel.runAll (addCommands phyPrefix interfaces entry) state))
      (RoutingMesh.addRoutes phyPrefix entry manager) := by
  obtain ⟨asked, builds, asks⟩ :=
    @asksFor_ipRouteAdd meshNetBase meshNetBase entry.destination
      entry.nextHop interfaces.mesh found
  have addsMain := asks.tables_replace documented overTun state
  rw [addCommands, if_pos isValid, runAll_append, builds]
  have showsMain :=
    shows.main.replace (meshAddress entry.destination)
      (meshAddress entry.nextHop)
  by_cases missing : interfaces.phy = 0
  · -- Only the route over the TUN is added.
    have nothing :
        nlSend
            (ipRouteAddTRequest
              (addressText meshNetBase.text entry.destination)
              (addressText phyPrefix.text entry.nextHop) interfaces.phy 200) =
          [] := by
      rw [missing, ipRouteAddTRequest_of_notFound]
      rfl
    have showsEmpty := shows.relayed
    rw [if_pos missing] at showsEmpty
    rw [nothing]
    change Shows interfaces before (kernel.tables (kernel.runAll _ state)) _
    rw [addsMain]
    constructor
    · exact showsMain
    · rw [if_pos missing]
      exact showsEmpty
    · intro tableId notMain not200
      exact (Function.update_of_ne notMain _ _).trans
        (shows.others tableId notMain not200)
  · obtain ⟨askedT, buildsT, asksT⟩ :=
      @asksFor_ipRouteAddT meshNetBase phyPrefix entry.destination
        entry.nextHop interfaces.phy missing 200
    have showsRelayed := shows.relayed
    rw [if_neg missing] at showsRelayed
    have showsBoth :=
      showsRelayed.replace (meshAddress entry.destination)
        ⟨phyPrefix, entry.nextHop⟩
    rw [buildsT, asksT.tables_replace documented (overPhy missing), addsMain]
    constructor
    · exact showsMain
    · rw [if_neg missing]
      exact showsBoth
    · intro tableId notMain not200
      exact (Function.update_of_ne not200 _ _).trans
        ((Function.update_of_ne notMain _ _).trans
          (shows.others tableId notMain not200))

/-- A round of the loop. -/
theorem Shows.recomputeAt
    (documented : kernel.Documented)
    (found : interfaces.mesh ≠ 0)
    {myNodeId : UInt8}
    {snap : MatrixSnapshot}
    (reaches : kernel.ReachesNodes phyPrefix interfaces snap)
    {before : KernelTables}
    {state : σ}
    {manager : KernelRouting}
    (shows : Shows interfaces before (kernel.tables state) manager)
    (i : Nat) :
    let primaryList := buildRoutingStructure myNodeId snap
    Shows interfaces before
      (kernel.tables
        (kernel.runAll
          (addCommands phyPrefix interfaces
            (routingEntryAt myNodeId snap primaryList i))
          state))
      (RoutingMesh.recomputeAt myNodeId phyPrefix snap primaryList manager
        i) := by
  intro primaryList
  have stored :
      Shows interfaces before (kernel.tables state)
        { manager with
          routingTable :=
            Function.update manager.routingTable i
              (routingEntryAt myNodeId snap primaryList i) } :=
    ⟨shows.main, shows.relayed, shows.others⟩
  unfold RoutingMesh.recomputeAt
  by_cases isValid : (routingEntryAt myNodeId snap primaryList i).valid = true
  · obtain ⟨overTun, overPhy⟩ := reaches _ (nextHop_mem_of_valid isValid)
    rw [if_pos isValid]
    exact stored.addRoutes documented found isValid overTun overPhy
  · rw [if_neg isValid, addCommands, if_neg isValid]
    exact stored

/-- The rounds of the loop, for any positions. -/
theorem Shows.foldl_recomputeAt
    (documented : kernel.Documented)
    (found : interfaces.mesh ≠ 0)
    {myNodeId : UInt8}
    {snap : MatrixSnapshot}
    (reaches : kernel.ReachesNodes phyPrefix interfaces snap)
    {before : KernelTables}
    (positions : List Nat) :
    let primaryList := buildRoutingStructure myNodeId snap
    ∀ {state : σ} {manager : KernelRouting},
      Shows interfaces before (kernel.tables state) manager →
        Shows interfaces before
          (kernel.tables
            (kernel.runAll
              (positions.flatMap fun i =>
                addCommands phyPrefix interfaces
                  (routingEntryAt myNodeId snap primaryList i))
              state))
          (positions.foldl
            (RoutingMesh.recomputeAt myNodeId phyPrefix snap primaryList)
            manager) := by
  intro primaryList
  induction positions with
  | nil =>
      intro state manager shows
      exact shows
  | cons i rest inductionHypothesis =>
      intro state manager shows
      rw [List.flatMap_cons, runAll_append, List.foldl_cons]
      exact inductionHypothesis
        (shows.recomputeAt documented found reaches i)

/-- A call, whatever table 200 holds. -/
theorem shows_recompute
    (documented : kernel.Documented)
    (found : interfaces.mesh ≠ 0)
    (myNodeId numNodes : UInt8)
    {snap : MatrixSnapshot}
    (reaches : kernel.ReachesNodes phyPrefix interfaces snap)
    {state : σ}
    {manager : KernelRouting}
    (main :
      ShowsTable interfaces.mesh (kernel.tables state rtTableMain.toUInt32)
        manager.main) :
    Shows interfaces (kernel.tables state)
      (kernel.tables
        (kernel.runAll
          (recomputeCommands myNodeId numNodes phyPrefix interfaces snap)
          state))
      (recomputeKernel myNodeId numNodes phyPrefix manager snap) := by
  have flushed := shows_flushMesh documented found numNodes main
  have cleared :
      Shows interfaces (kernel.tables state)
        (kernel.tables
          (kernel.runAll (flushMeshCommands numNodes interfaces.mesh) state))
        { ipRouteFlushMesh numNodes manager with
          routingTable := fun _ => .cleared } :=
    ⟨flushed.main, flushed.relayed, flushed.others⟩
  rw [recomputeCommands, runAll_append]
  exact Shows.foldl_recomputeAt documented found reaches
    (List.range snap.numberOfActiveNodes) cleared

end

/-! ## What is sent -/

/-- A message that fits in its buffer and asks for a change by the format. -/
def WellFormedCommand : KernelCommand → Prop
  | .send message =>
      message.length ≤ requestSize ∧ (requestedChange message).isSome
  | .flushTable tableId => tableId = 200

theorem AsksFor.wellFormed
    {request : RouteRequest}
    {change : RouteChange}
    (asks : AsksFor request change) :
    ∀ command ∈ nlSend (some request), WellFormedCommand command := by
  intro command listed
  obtain rfl : command = .send request.bytes := by
    simpa [nlSend] using listed
  refine ⟨?_, by rw [asks.read]; rfl⟩
  have length : request.bytes.length = request.nlmsgLen := by
    simp [RouteRequest.bytes, RouteRequest.nlmsgLen, requestHeaderSize]
    omega
  rw [length]
  exact asks.size

section

variable {phyPrefix : Ipv4Prefix}
variable {interfaces : Interfaces}
variable {command : KernelCommand}

end

/-! ## Every sequence of topologies -/

section

variable {σ : Type}

/-- The kernel after the commands of some calls. -/
def Rtnetlink.after
    (kernel : Rtnetlink σ)
    (myNodeId numNodes : UInt8)
    (phyPrefix : Ipv4Prefix)
    (interfaces : Interfaces)
    (state : σ)
    (snaps : List MatrixSnapshot) : σ :=
  snaps.foldl
    (fun state snap =>
      kernel.runAll
        (recomputeCommands myNodeId numNodes phyPrefix interfaces snap) state)
    state

variable {kernel : Rtnetlink σ}
variable {interfaces : Interfaces}
variable {myNodeId numNodes : UInt8}
variable {phyPrefix : Ipv4Prefix}

/-- More calls keep it. -/
theorem Shows.after
    (documented : kernel.Documented)
    (found : interfaces.mesh ≠ 0)
    {before : KernelTables}
    (snaps : List MatrixSnapshot) :
    ∀ {state : σ} {manager : KernelRouting},
      (∀ snap ∈ snaps, kernel.ReachesNodes phyPrefix interfaces snap) →
      Shows interfaces before (kernel.tables state) manager →
        Shows interfaces before
          (kernel.tables
            (kernel.after myNodeId numNodes phyPrefix interfaces state snaps))
          (snaps.foldl (recomputeKernel myNodeId numNodes phyPrefix)
            manager) := by
  induction snaps with
  | nil =>
      intro state manager _ shows
      exact shows
  | cons snap rest inductionHypothesis =>
      intro state manager reaches shows
      obtain ⟨reachesHere, reachesLater⟩ := List.forall_mem_cons.mp reaches
      have next :
          Shows interfaces (kernel.tables state)
            (kernel.tables
              (kernel.runAll
                (recomputeCommands myNodeId numNodes phyPrefix interfaces
                  snap)
                state))
            (recomputeKernel myNodeId numNodes phyPrefix manager snap) :=
        shows_recompute documented found myNodeId numNodes reachesHere
          shows.main
      apply inductionHypothesis reachesLater
      refine ⟨next.main, next.relayed, fun tableId notMain not200 => ?_⟩
      exact (next.others tableId notMain not200).trans
        (shows.others tableId notMain not200)

end

end RoutingMesh
