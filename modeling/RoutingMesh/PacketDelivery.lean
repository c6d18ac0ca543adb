import RoutingMesh.PacketPath
import RoutingMesh.TreeRouting

/-!
# Delivery along the tree

When the nodes share one spanning tree and the kernel of each has the routes
of it, a packet goes along the only path of the tree to its destination.  Its
hops are made in slots and over the radio in turn, beginning with a slot, so
it waits for a slot at every second node only.
-/

namespace RoutingMesh

/-- The medium of the hop after this one. -/
def Medium.other : Medium → Medium
  | .slot => .radio
  | .radio => .slot

/-- Where a hop leads a packet to. -/
def Medium.arrival : Medium → UInt8 → PacketPlace
  | .slot, node => .stream node
  | .radio, node => .air node

/-- The hops along a route, the first over `medium` and the others in turn. -/
def alternatingHops : Medium → List UInt8 → List Hop
  | _, [] => []
  | medium, node :: rest => ⟨medium, node⟩ :: alternatingHops medium.other rest

/-- The next hop that the routing table of a node gives; 0 stands for none. -/
def MeshEnvironment.nextHop
    (numNodes : Nat)
    (env : MeshEnvironment)
    (destination x : UInt8) : UInt8 :=
  routingManagerLookup numNodes (env.kernel x).routingTable destination

/--
The kernel goes by the rules of `tun_open`: the addresses of the node come
first, what the TUN brings in looks into table 200, and what the radio brings
in for the mesh finds the routes over the TUN in the main table.
-/
structure IpLayer.FollowsRules
    (ip : IpLayer)
    (phyPrefix : Ipv4Prefix) : Prop where
  own :
    ∀ me kernel entry destination ttl,
      OwnAddress phyPrefix me destination →
        ip.verdict me kernel entry destination ttl = .toSelf
  table200 :
    ∀ me (kernel : KernelRouting) destination gateway left,
      ¬ OwnAddress phyPrefix me destination →
        1 ≤ left →
        kernel.table200 destination = some gateway →
        ip.verdict me kernel .tun destination (left + 1) =
          .out (.radio gateway) left
  mesh :
    ∀ me kernel destination left,
      ¬ OwnAddress phyPrefix me destination →
        1 ≤ left →
        destination.network = meshNetBase →
        ip.verdict me kernel .radio destination (left + 1) = .out .tun left

/-- A node that is not the destination makes this hop, over either medium. -/
structure CarriesHop
    (numNodes : Nat)
    (phyPrefix : Ipv4Prefix)
    (env : MeshEnvironment)
    (destination x v : UInt8) : Prop where
  notLast : x ≠ destination
  isHop : env.nextHop numNodes destination x = v
  routed : v ≠ 0
  inNetwork : InNetwork numNodes v
  table200 :
    (env.kernel x).table200 (meshAddress destination) = some ⟨phyPrefix, v⟩
  ready : env.ready x = true
  connected : env.connected x v = true
  reached : env.radio x ⟨phyPrefix, v⟩ = some v

section

variable {numNodes : Nat}
variable {phyPrefix : Ipv4Prefix}
variable {ip : IpLayer}
variable {env : MeshEnvironment}
variable {destination : UInt8}
variable {packet : MeshPacket}

/-- A packet for another node is not for one of the addresses of a node. -/
theorem not_own_address
    {x : UInt8}
    (notLast : x ≠ destination) :
    ¬ OwnAddress phyPrefix x (meshAddress destination) := by
  rintro (same | same)
  · exact notLast (congrArg Ipv4.host same).symm
  · exact notLast (congrArg Ipv4.host same).symm

/-- The step of a packet that has reached its destination. -/
theorem packetStep_of_arrival
    (followsRules : ip.FollowsRules phyPrefix)
    (isFor : packet.destination = meshAddress destination)
    {medium : Medium}
    (isPlace : packet.place = medium.arrival destination) :
    packetStep numNodes ip env packet =
      { packet with place := .delivered destination } := by
  have own :
      ∀ entry,
        ip.verdict destination (env.kernel destination) entry
            packet.destination packet.ttl =
          .toSelf :=
    fun entry => followsRules.own _ _ _ _ _ (.inl isFor)
  cases medium <;>
    simp only [packetStep, isPlace, Medium.arrival, routePacket, own]

/-- A relay forwards what came in a slot over the radio. -/
theorem packetStep_of_stream
    (followsRules : ip.FollowsRules phyPrefix)
    {x v : UInt8}
    (carries : CarriesHop numNodes phyPrefix env destination x v)
    (isFor : packet.destination = meshAddress destination)
    (isPlace : packet.place = .stream x)
    (lives : 1 < packet.ttl) :
    packetStep numNodes ip env packet =
      { packet with
        place := .air v
        ttl := packet.ttl - 1
        hops := packet.hops ++ [⟨.radio, v⟩] } := by
  have verdict :
      ip.verdict x (env.kernel x) .tun packet.destination packet.ttl =
        .out (.radio ⟨phyPrefix, v⟩) (packet.ttl - 1) := by
    have routed :=
      followsRules.table200 x (env.kernel x) packet.destination ⟨phyPrefix, v⟩
        (packet.ttl - 1)
        (by rw [isFor]; exact not_own_address carries.notLast)
        (by omega)
        (by rw [isFor]; exact carries.table200)
    rwa [Nat.sub_add_cancel lives.le] at routed
  simp only [packetStep, isPlace, routePacket, verdict, carries.reached]

/-- A relay takes what came over the radio to its TUN. -/
theorem packetStep_of_air
    (followsRules : ip.FollowsRules phyPrefix)
    {x : UInt8}
    (notLast : x ≠ destination)
    (isFor : packet.destination = meshAddress destination)
    (isPlace : packet.place = .air x)
    (lives : 1 < packet.ttl) :
    packetStep numNodes ip env packet =
      { packet with
        place := .tun x
        ttl := packet.ttl - 1 } := by
  have verdict :
      ip.verdict x (env.kernel x) .radio packet.destination packet.ttl =
        .out .tun (packet.ttl - 1) := by
    have routed :=
      followsRules.mesh x (env.kernel x) packet.destination (packet.ttl - 1)
        (by rw [isFor]; exact not_own_address notLast)
        (by omega)
        (by rw [isFor]; rfl)
    rwa [Nat.sub_add_cancel lives.le] at routed
  simp only [packetStep, isPlace, routePacket, verdict]

/-- From the TUN of a node a packet goes through the queue to the next one. -/
theorem packetStep_of_tun
    {x v : UInt8}
    (carries : CarriesHop numNodes phyPrefix env destination x v)
    (inside : InNetwork numNodes destination)
    (isFor : packet.destination = meshAddress destination)
    (isPlace : packet.place = .tun x) :
    (packetStep numNodes ip env)^[2] packet =
      { packet with
        place := .stream v
        hops := packet.hops ++ [⟨.slot, v⟩] } := by
  have notZero : destination ≠ 0 := by
    rintro rfl
    exact absurd inside.1 (by decide)
  have host : packet.destination.host = destination := by
    rw [isFor]
    rfl
  have read :
      packetStep numNodes ip env packet =
        { packet with place := .queue x } := by
    simp only [packetStep, isPlace, readTun, host]
    exact if_pos ⟨notZero, carries.notLast.symm, carries.ready⟩
  rw [Function.iterate_succ_apply, Function.iterate_one, read]
  simp only [packetStep, transmitPacket, host]
  have looked :
      routingManagerLookup numNodes (env.kernel x).routingTable destination =
        v :=
    carries.isHop
  rw [looked]
  exact if_pos ⟨carries.routed, carries.inNetwork, carries.connected⟩

/--
A packet with enough lives that has come to the first node of a route is
delivered at its end, over the two media in turn.
-/
theorem delivered_of_arrival
    (followsRules : ip.FollowsRules phyPrefix)
    (inside : InNetwork numNodes destination)
    {rest : List UInt8} :
    ∀ {x : UInt8} {medium : Medium} {packet : MeshPacket},
      (x :: rest).IsChain
          (CarriesHop numNodes phyPrefix env destination) →
        (x :: rest).getLast (List.cons_ne_nil x rest) = destination →
        packet.destination = meshAddress destination →
        packet.place = medium.arrival x →
        rest.length < packet.ttl →
        ∃ steps,
          (packetStep numNodes ip env)^[steps] packet =
            { packet with
              place := .delivered destination
              ttl := packet.ttl - rest.length
              hops := packet.hops ++ alternatingHops medium.other rest } := by
  induction rest with
  | nil =>
      intro x medium packet _ isLast isFor isPlace _
      obtain rfl : x = destination := isLast
      refine ⟨1, ?_⟩
      rw [Function.iterate_one, packetStep_of_arrival followsRules isFor isPlace]
      simp [alternatingHops]
  | cons v rest inductionHypothesis =>
      intro x medium packet chain isLast isFor isPlace lives
      obtain ⟨carries, chainRest⟩ := List.isChain_cons_cons.mp chain
      rw [List.getLast_cons_cons] at isLast
      rw [List.length_cons] at lives
      have livesOn : 1 < packet.ttl := by omega
      have livesRest : rest.length < packet.ttl - 1 := by omega
      have livesLeft : packet.ttl - 1 - rest.length =
          packet.ttl - (v :: rest).length := by
        rw [List.length_cons]
        omega
      cases medium with
      | slot =>
          obtain ⟨steps, arrives⟩ :=
            @inductionHypothesis v .radio
              { packet with
                place := .air v
                ttl := packet.ttl - 1
                hops := packet.hops ++ [⟨.radio, v⟩] }
              chainRest isLast isFor rfl livesRest
          refine ⟨steps + 1, ?_⟩
          rw [Function.iterate_succ_apply,
            packetStep_of_stream followsRules carries isFor isPlace livesOn,
            arrives]
          simp only [livesLeft, alternatingHops, Medium.other,
            List.append_assoc, List.singleton_append]
      | radio =>
          -- The kernel brings the packet to the TUN, and the node sends it.
          obtain ⟨steps, arrives⟩ :=
            @inductionHypothesis v .slot
              { packet with
                place := .stream v
                ttl := packet.ttl - 1
                hops := packet.hops ++ [⟨.slot, v⟩] }
              chainRest isLast isFor rfl livesRest
          have sent :
              (packetStep numNodes ip env)^[2]
                  { packet with
                    place := .tun x
                    ttl := packet.ttl - 1 } =
                { packet with
                  place := .stream v
                  ttl := packet.ttl - 1
                  hops := packet.hops ++ [⟨.slot, v⟩] } :=
            packetStep_of_tun carries inside isFor rfl
          refine ⟨steps + 2 + 1, ?_⟩
          rw [Function.iterate_succ_apply,
            packetStep_of_air followsRules carries.notLast isFor isPlace
              livesOn,
            Function.iterate_add_apply, sent, arrives]
          simp only [livesLeft, alternatingHops, Medium.other,
            List.append_assoc, List.singleton_append]

/-- A packet that its source sends is delivered at the end of a route. -/
theorem delivered_of_route
    (followsRules : ip.FollowsRules phyPrefix)
    (inside : InNetwork numNodes destination)
    {source : UInt8}
    {route : List UInt8}
    (chain :
      (source :: route).IsChain
        (CarriesHop numNodes phyPrefix env destination))
    (isLast :
      (source :: route).getLast (List.cons_ne_nil source route) =
        destination)
    (elsewhere : source ≠ destination)
    {ttl : Nat}
    (enough : route.length ≤ ttl) :
    ∃ steps,
      (packetStep numNodes ip env)^[steps]
          (sentPacket source (meshAddress destination) ttl) =
        { destination := meshAddress destination
          place := .delivered destination
          ttl := ttl - (route.length - 1)
          hops := alternatingHops .slot route } := by
  cases route with
  | nil =>
      exact (elsewhere isLast).elim
  | cons v rest =>
      obtain ⟨carries, chainRest⟩ := List.isChain_cons_cons.mp chain
      rw [List.getLast_cons_cons] at isLast
      obtain ⟨steps, arrives⟩ :=
        @delivered_of_arrival numNodes phyPrefix ip env destination
          followsRules inside rest v .slot
          { sentPacket source (meshAddress destination) ttl with
            place := .stream v
            hops := [⟨.slot, v⟩] }
          chainRest isLast rfl rfl enough
      refine ⟨steps + 2, ?_⟩
      rw [Function.iterate_add_apply,
        packetStep_of_tun carries inside rfl rfl]
      exact arrives

end

/-! ## Networks that share a tree -/

/-- The tree that a node holds, over the positions of its identifiers. -/
def MeshNetwork.tree (network : MeshNetwork) (node : UInt8) : SimpleGraph Nat :=
  treeGraph (network.nodes node).matrix.spanningTree

/-- The position of an identifier at a node. -/
def MeshNetwork.position
    (network : MeshNetwork)
    (node id : UInt8) : Nat :=
  (network.nodes node).matrix.myMatrix.idOfActiveNodes.idxOf id

/--
All nodes list the same identifiers and hold the same tree, and no node has
removed one since it computed its tree.
-/
structure MeshNetwork.SharesTree
    (numNodes : Nat)
    (network : MeshNetwork) : Prop where
  sameIds :
    ∀ a, InNetwork numNodes a →
      ∀ b, InNetwork numNodes b →
        (network.nodes a).matrix.myMatrix.idOfActiveNodes =
          (network.nodes b).matrix.myMatrix.idOfActiveNodes
  sameTrees : network.SameTrees numNodes
  fresh :
    ∀ a, InNetwork numNodes a →
      (network.nodes a).matrix.treeIds =
        (network.nodes a).matrix.myMatrix.idOfActiveNodes

/--
The tables of a node whose event handler has called
`routing_manager_recompute` any number of times, the last time for `snap`.
-/
def FollowsCalls
    (me numNodes : UInt8)
    (phyPrefix : Ipv4Prefix)
    (snap : MatrixSnapshot)
    (kernel : KernelRouting) : Prop :=
  ∃ (main : RouteTable) (calls : List MatrixSnapshot),
    (∀ d, main (meshAddress d) = none) ∧
      (∀ call ∈ calls, KnowsNodes numNodes call) ∧
      calls.getLast? = some snap ∧
      kernel =
        calls.foldl (recomputeKernel me numNodes phyPrefix)
          (routingManagerCreate main)

/-- Every node admits data, and the links that its routes take carry it. -/
structure MeshEnvironment.Up
    (numNodes : Nat)
    (phyPrefix : Ipv4Prefix)
    (destination : UInt8)
    (env : MeshEnvironment) : Prop where
  ready : ∀ x, InNetwork numNodes x → env.ready x = true
  links :
    ∀ x, InNetwork numNodes x →
      ∀ v, env.nextHop numNodes destination x = v →
        v ≠ 0 →
        env.connected x v = true ∧ env.radio x ⟨phyPrefix, v⟩ = some v

/-- The routes of the last call, in the routing table and in table 200. -/
theorem FollowsCalls.routes
    {me numNodes : UInt8}
    (fits : numNodes.toNat ≤ maxNodes)
    {phyPrefix : Ipv4Prefix}
    {snap : MatrixSnapshot}
    {kernel : KernelRouting}
    (follows : FollowsCalls me numNodes phyPrefix snap kernel) :
    kernel.routingTable = routingManagerRecompute me snap ∧
      MirrorsTable phyPrefix kernel := by
  obtain ⟨main, calls, noRoutes, knows, isLast, rfl⟩ := follows
  refine ⟨?_, (routesInvariant_foldl noRoutes fits knows).mirrors⟩
  obtain ⟨earlier, rfl⟩ := List.getLast?_eq_some_iff.mp isLast
  rw [List.foldl_append]
  exact routingTable_recomputeKernel _

/-- What a lookup finds stands in table 200. -/
theorem MirrorsTable.table200_of_lookup
    {numNodes : Nat}
    (fits : numNodes ≤ maxNodes)
    {phyPrefix : Ipv4Prefix}
    {kernel : KernelRouting}
    (mirrors : MirrorsTable phyPrefix kernel)
    {destination : UInt8}
    (routed :
      routingManagerLookup numNodes kernel.routingTable destination ≠ 0) :
    kernel.table200 (meshAddress destination) =
      some
        ⟨phyPrefix,
          routingManagerLookup numNodes kernel.routingTable destination⟩ := by
  unfold routingManagerLookup at routed ⊢
  split
  · rename_i i isFound
    have matched := List.find?_some isFound
    simp only [Bool.and_eq_true, beq_iff_eq] at matched
    obtain ⟨rfl, isValid⟩ := matched
    have inRange := List.mem_range.mp (List.mem_of_find?_eq_some isFound)
    exact
      (mirrors.table200 _ _).mpr
        ⟨i, inRange.trans_le fits, isValid, rfl, rfl⟩
  · rename_i notFound
    simp [notFound] at routed

/-- The next hop towards `destination` is a neighbour on the tree, one closer. -/
structure HopOnTree
    (snap : MatrixSnapshot)
    (me destination hop : UInt8) : Prop where
  routed : hop ≠ 0
  listed : hop ∈ snap.idOfActiveNodes
  adjacent :
    (treeGraph snap.mst).Adj (snap.idOfActiveNodes.idxOf me)
      (snap.idOfActiveNodes.idxOf hop)
  closer :
    (treeGraph snap.mst).dist (snap.idOfActiveNodes.idxOf hop)
        (snap.idOfActiveNodes.idxOf destination) + 1 =
      (treeGraph snap.mst).dist (snap.idOfActiveNodes.idxOf me)
        (snap.idOfActiveNodes.idxOf destination)

theorem hopOnTree_of_reachable
    {numNodes : Nat}
    {me destination : UInt8}
    {snap : MatrixSnapshot}
    (inNetwork : ∀ id ∈ snap.idOfActiveNodes, InNetwork numNodes id)
    (distinct : snap.idOfActiveNodes.Nodup)
    (forest : IsForest snap.numberOfActiveNodes snap.mst)
    (self : me ∈ snap.idOfActiveNodes)
    (listed : destination ∈ snap.idOfActiveNodes)
    (notSelf : destination ≠ me)
    (connected :
      (treeGraph snap.mst).Reachable (snap.idOfActiveNodes.idxOf me)
        (snap.idOfActiveNodes.idxOf destination)) :
    HopOnTree snap me destination
      (routingManagerLookup numNodes (routingManagerRecompute me snap)
        destination) := by
  have positionOf :
      ∀ {i id}, snap.idOfActiveNodes[i]? = some id →
        snap.idOfActiveNodes.idxOf id = i := by
    intro i id owner
    obtain ⟨inBounds, rfl⟩ := List.getElem?_eq_some_iff.mp owner
    exact distinct.idxOf_getElem i inBounds
  have ownerOf :
      ∀ {id}, id ∈ snap.idOfActiveNodes →
        snap.idOfActiveNodes[snap.idOfActiveNodes.idxOf id]? = some id :=
    fun member =>
      List.getElem?_eq_some_iff.mpr
        ⟨List.idxOf_lt_length_of_mem member, List.getElem_idxOf _⟩
  have found :
      findNodeIndex snap.idOfActiveNodes me =
        some (snap.idOfActiveNodes.idxOf me) :=
    (KeyedCells.idxOf?_eq_some_iff_getElem? distinct).mpr (ownerOf self)
  obtain ⟨path, isPath⟩ := connected.exists_isPath
  have routed :=
    routed_of_path inNetwork forest found distinct (ownerOf listed) notSelf
      isPath
  obtain ⟨v, d, hopAt, destinationAt, adjacent, reaches⟩ :=
    hop_of_lookup forest found (List.idxOf_lt_length_of_mem self) routed
  rw [activeTree_eq_self forest] at adjacent reaches
  have closer := Forest.dist_of_hop forest.acyclic adjacent reaches
  rw [← positionOf hopAt] at adjacent closer
  rw [← positionOf destinationAt] at closer
  exact
    { routed := routed
      listed := List.mem_of_getElem? hopAt
      adjacent := adjacent
      closer := closer }

section

variable {numNodes : UInt8}
variable {network : MeshNetwork}

/-- The tree of a node is a forest over the identifiers that it lists. -/
theorem MeshNetwork.SharesTree.forest
    (grounded : network.Grounded numNodes.toNat)
    (shares : network.SharesTree numNodes.toNat)
    {a : UInt8}
    (inside : InNetwork numNodes.toNat a) :
    IsForest (network.nodes a).matrix.myMatrix.numberOfActiveNodes
      (network.nodes a).matrix.spanningTree := by
  have planted := grounded.planted a
  rw [MatrixState.Planted, shares.fresh a inside] at planted
  exact planted

/-- Two nodes hold one tree. -/
theorem MeshNetwork.SharesTree.tree_eq
    (grounded : network.Grounded numNodes.toNat)
    (shares : network.SharesTree numNodes.toNat)
    {a b : UInt8}
    (aInside : InNetwork numNodes.toNat a)
    (bInside : InNetwork numNodes.toNat b) :
    network.tree a = network.tree b := by
  have sameNumber :
      (network.nodes a).matrix.myMatrix.numberOfActiveNodes =
        (network.nodes b).matrix.myMatrix.numberOfActiveNodes :=
    congrArg List.length (shares.sameIds a aInside b bInside)
  have same :
      (network.nodes a).matrix.spanningTree =
        (network.nodes b).matrix.spanningTree := by
    rw [← activeTree_eq_self (shares.forest grounded aInside),
      ← activeTree_eq_self (shares.forest grounded bInside), ← sameNumber]
    funext i j
    unfold activeTree
    split
    · rename_i inBounds
      exact shares.sameTrees a aInside b bInside i inBounds.1 j inBounds.2
    · rfl
  rw [MeshNetwork.tree, MeshNetwork.tree, same]

/-- The hop of a node on the tree comes one closer to the destination. -/
theorem exists_hop_of_tree
    (fits : numNodes.toNat ≤ maxNodes)
    {phyPrefix : Ipv4Prefix}
    (grounded : network.Grounded numNodes.toNat)
    (shares : network.SharesTree numNodes.toNat)
    {env : MeshEnvironment}
    (follows :
      ∀ a, InNetwork numNodes.toNat a →
        FollowsCalls a numNodes phyPrefix
          (matrixGetSnapshot (network.nodes a).matrix) (env.kernel a))
    {destination : UInt8}
    (up : env.Up numNodes.toNat phyPrefix destination)
    {x : UInt8}
    (inside : InNetwork numNodes.toNat x)
    (listed :
      destination ∈ (network.nodes x).matrix.myMatrix.idOfActiveNodes)
    (notLast : x ≠ destination)
    (connected :
      (network.tree x).Reachable (network.position x x)
        (network.position x destination)) :
    ∃ v,
      CarriesHop numNodes.toNat phyPrefix env destination x v ∧
        (network.tree x).Adj (network.position x x) (network.position x v) ∧
        (network.tree x).dist (network.position x v)
            (network.position x destination) + 1 =
          (network.tree x).dist (network.position x x)
            (network.position x destination) := by
  have inNetwork := grounded.inhabited.nodes x inside
  obtain ⟨sameTable, mirrors⟩ := (follows x inside).routes fits
  have onTree :
      HopOnTree (matrixGetSnapshot (network.nodes x).matrix) x destination
        (env.nextHop numNodes.toNat destination x) := by
    unfold MeshEnvironment.nextHop
    rw [sameTable]
    exact hopOnTree_of_reachable inNetwork (grounded.listed x).distinct
      (shares.forest grounded inside) (grounded.listed x).self listed
      notLast.symm connected
  obtain ⟨isConnected, isReached⟩ :=
    up.links x inside _ rfl onTree.routed
  exact
    ⟨env.nextHop numNodes.toNat destination x,
      { notLast := notLast
        isHop := rfl
        routed := onTree.routed
        inNetwork := inNetwork _ onTree.listed
        table200 := mirrors.table200_of_lookup fits onTree.routed
        ready := up.ready x inside
        connected := isConnected
        reached := isReached },
      onTree.adjacent, onTree.closer⟩

end

/--
With kernels that go by the rules of `tun_open`, a packet for a node in the
tree of its source, with as many lives as the tree has hops between them, is
delivered there along the only path of the tree: it goes from neighbour to
neighbour, every other hop is made in a slot and the ones between by the
kernel, and each relay takes one life.
-/
theorem packet_delivered_along_tree
    {mode : LinkQualityMode}
    {numNodes : UInt8}
    (fits : numNodes.toNat ≤ maxNodes)
    {boot : UInt8 → ℚ}
    {clock : ℚ}
    {network : MeshNetwork}
    (reachable :
      StepRun.Reachable (networkStep mode) (NetworkEnabled numNodes.toNat)
        (networkStart boot clock) network)
    (shares : network.SharesTree numNodes.toNat)
    {phyPrefix : Ipv4Prefix}
    {ip : IpLayer}
    (followsRules : ip.FollowsRules phyPrefix)
    {env : MeshEnvironment}
    (follows :
      ∀ a, InNetwork numNodes.toNat a →
        FollowsCalls a numNodes phyPrefix
          (matrixGetSnapshot (network.nodes a).matrix) (env.kernel a))
    {source destination : UInt8}
    (up : env.Up numNodes.toNat phyPrefix destination)
    (inside : InNetwork numNodes.toNat source)
    (listed :
      destination ∈ (network.nodes source).matrix.myMatrix.idOfActiveNodes)
    (elsewhere : source ≠ destination)
    (connected :
      (network.tree source).Reachable (network.position source source)
        (network.position source destination))
    {ttl : Nat}
    (enough :
      (network.tree source).dist (network.position source source)
          (network.position source destination) ≤
        ttl) :
    ∃ route steps,
      route.length =
          (network.tree source).dist (network.position source source)
            (network.position source destination) ∧
        (source :: route).IsChain (fun x v =>
          (network.tree source).Adj (network.position source x)
            (network.position source v)) ∧
        (source :: route).getLast (List.cons_ne_nil source route) =
          destination ∧
        (packetStep numNodes.toNat ip env)^[steps]
            (sentPacket source (meshAddress destination) ttl) =
          { destination := meshAddress destination
            place := .delivered destination
            ttl := ttl - (route.length - 1)
            hops := alternatingHops .slot route } := by
  have grounded := grounded_of_reachable reachable
  have samePosition :
      ∀ {x}, InNetwork numNodes.toNat x → ∀ id,
        network.position x id = network.position source id := by
    intro x xInside id
    unfold MeshNetwork.position
    rw [shares.sameIds x xInside source inside]
  have sameTree :
      ∀ {x}, InNetwork numNodes.toNat x →
        network.tree x = network.tree source :=
    fun xInside => shares.tree_eq grounded xInside inside
  obtain ⟨route, length, chain, isLast⟩ :=
    @Forwarding.exists_route_of_measure UInt8
      (fun x v =>
        CarriesHop numNodes.toNat phyPrefix env destination x v ∧
          (network.tree source).Adj (network.position source x)
            (network.position source v))
      (fun x =>
        InNetwork numNodes.toNat x ∧
          (network.tree source).Reachable (network.position source x)
            (network.position source destination))
      (fun x =>
        (network.tree source).dist (network.position source x)
          (network.position source destination))
      destination
      (by
        rintro x ⟨xInside, xConnected⟩ notLast
        have xListed :
            destination ∈
              (network.nodes x).matrix.myMatrix.idOfActiveNodes := by
          rw [shares.sameIds x xInside source inside]
          exact listed
        obtain ⟨v, carries, adjacent, closer⟩ :=
          exists_hop_of_tree fits grounded shares follows up xInside xListed
            notLast
            (by
              rw [sameTree xInside, samePosition xInside,
                samePosition xInside]
              exact xConnected)
        simp only [sameTree xInside, samePosition xInside] at adjacent closer
        exact
          ⟨v, ⟨carries, adjacent⟩,
            ⟨carries.inNetwork, adjacent.reachable.symm.trans xConnected⟩,
            closer⟩)
      SimpleGraph.dist_self source ⟨inside, connected⟩
  obtain ⟨steps, delivered⟩ :=
    delivered_of_route followsRules
      (grounded.inhabited.nodes source inside destination listed)
      (chain.imp fun _ _ both => both.1) isLast elsewhere
      (length.trans_le enough)
  exact
    ⟨route, steps, length, chain.imp fun _ _ both => both.2, isLast,
      delivered⟩

/-- Nodes 1 and 3 hear node 2 only, and node 2 hears both. -/
def lineForms : List NetworkAction :=
  List.flatten
    [[.transmit 2 1 1], mergesAndFollows 0 1 1, mergesAndFollows 0 3 1,
      [.transmit 1 (11 / 10) (11 / 10)], mergesAndFollows 1 2 (11 / 10),
      [.transmit 3 (12 / 10) (12 / 10)], mergesAndFollows 2 2 (12 / 10),
      [.transmit 2 (13 / 10) (13 / 10)], mergesAndFollows 3 1 (13 / 10),
      mergesAndFollows 3 3 (13 / 10)]

/-- The network that it leaves. -/
def line : MeshNetwork :=
  lineForms.foldl (networkStep .test) (networkStart (fun _ => 0) 0)

/-- Every node has followed its topology once, and all links work. -/
def lineEnvironment : MeshEnvironment where
  kernel := fun node =>
    recomputeKernel node 3 ⟨172, 20, 10⟩
      (routingManagerCreate fun _ => none)
      (matrixGetSnapshot (line.nodes node).matrix)
  ready := fun _ => true
  connected := fun _ _ => true
  radio := fun _ => radioOf ⟨172, 20, 10⟩

theorem followsRules_ruledKernel (phyPrefix : Ipv4Prefix) :
    (ruledKernel phyPrefix).FollowsRules phyPrefix where
  own me kernel entry destination ttl isOwn := if_pos isOwn
  table200 me kernel destination gateway left notOwn alive routed := by
    simp only [ruledKernel, if_neg notOwn, routed, Nat.add_sub_cancel]
    exact if_neg (by omega)
  mesh me kernel destination left notOwn alive inMesh := by
    simp only [ruledKernel, if_neg notOwn, Nat.add_sub_cancel]
    rw [if_neg (by omega), if_pos inMesh]

/-- A packet of node 1 for node 3 goes through node 2. -/
theorem packet_delivered_along_tree_line :
    ∃ route steps,
      (1 :: route).getLast (List.cons_ne_nil 1 route) = 3 ∧
        (packetStep 3 (ruledKernel ⟨172, 20, 10⟩) lineEnvironment)^[steps]
            (sentPacket 1 (meshAddress 3) 64) =
          { destination := meshAddress 3
            place := .delivered 3
            ttl := 64 - (route.length - 1)
            hops := alternatingHops .slot route } := by
  have shares : line.SharesTree 3 :=
    { sameIds :=
        forall_inNetwork fun _ _ =>
          forall_inNetwork (by decide +revert +kernel)
      sameTrees :=
        forall_inNetwork fun _ _ =>
          forall_inNetwork (by decide +revert +kernel)
      fresh := forall_inNetwork (by decide +kernel) }
  have knows :
      ∀ a, InNetwork 3 a →
        KnowsNodes 3 (matrixGetSnapshot (line.nodes a).matrix) :=
    forall_inNetwork fun k below =>
      { distinct := by decide +revert +kernel
        known := by decide +revert +kernel }
  have edge :
      ∀ {i j}, i ≠ j → (line.nodes 1).matrix.spanningTree i j = 1 →
        (line.tree 1).Adj i j :=
    fun different isEdge =>
      (SimpleGraph.fromRel_adj _ _ _).mpr ⟨different, .inl isEdge⟩
  have first : (line.tree 1).Adj 0 1 := edge (by decide) (by decide +kernel)
  have second : (line.tree 1).Adj 1 2 := edge (by decide) (by decide +kernel)
  let path : (line.tree 1).Walk 0 2 := .cons first (.cons second .nil)
  have atOne : line.position 1 1 = 0 := by decide +kernel
  have atThree : line.position 1 3 = 2 := by decide +kernel
  have connected :
      (line.tree 1).Reachable (line.position 1 1) (line.position 1 3) := by
    rw [atOne, atThree]
    exact ⟨path⟩
  have enough :
      (line.tree 1).dist (line.position 1 1) (line.position 1 3) ≤ 64 := by
    rw [atOne, atThree]
    exact (SimpleGraph.dist_le path).trans (by simp [path])
  have reachable :
      StepRun.Reachable (networkStep .test) (NetworkEnabled 3)
        (networkStart (fun _ => 0) 0) line :=
    ⟨lineForms, StepRun.Run.of_checkRun (by decide +kernel)⟩
  have up : lineEnvironment.Up 3 ⟨172, 20, 10⟩ 3 :=
    { ready := fun _ _ => rfl
      links := fun _ _ v _ _ => ⟨rfl, by simp [lineEnvironment, radioOf]⟩ }
  obtain ⟨route, steps, -, -, isLast, delivered⟩ :=
    packet_delivered_along_tree (by decide : (3 : UInt8).toNat ≤ maxNodes)
      reachable shares (followsRules_ruledKernel _)
      (fun a inside =>
        ⟨fun _ => none, [matrixGetSnapshot (line.nodes a).matrix],
          fun _ => rfl, by simpa using knows a inside, rfl, rfl⟩)
      up (by decide) (by decide +kernel) (by decide : (1 : UInt8) ≠ 3)
      connected enough
  exact ⟨route, steps, isLast, delivered⟩

end RoutingMesh
