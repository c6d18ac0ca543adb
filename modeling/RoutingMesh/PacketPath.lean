import RoutingMesh.KernelRoutes
import RoutingMesh.LoopFreeForwarding

/-!
# The way of a packet

A packet for a node of the mesh leaves its source over the TUN and the
transmit queue.  The node that gets the frame writes the packet into its own
TUN, and there the kernel takes over.  The kernel is a parameter: of its IP
layer only what it documents is assumed, by name.  It takes a life from each
packet that it forwards, and keeps none but those for its own addresses.
-/

namespace RoutingMesh

/-- How a hop is made: in a slot of its sender, or by the kernel of a relay. -/
inductive Medium where
  | slot
  | radio
  deriving DecidableEq, Repr

/-- A hop, with the node that it leads to. -/
structure Hop where
  medium : Medium
  node : UInt8
  deriving DecidableEq, Repr

/--
Where a packet is: in the TUN of a node, where `tun_reader_loop` reads it, in
its transmit queue, in a frame on a connection to it, or on the air to it.
-/
inductive PacketPlace where
  | tun (node : UInt8)
  | queue (node : UInt8)
  | stream (node : UInt8)
  | air (node : UInt8)
  | delivered (node : UInt8)
  | lost
  deriving DecidableEq, Repr

/-- A packet, its time to live, and the hops that it has made. -/
structure MeshPacket where
  destination : Ipv4
  place : PacketPlace
  ttl : Nat
  hops : List Hop
  deriving DecidableEq, Repr

/--
What a packet meets: the tables of the nodes, the verdicts of
`sync_data_plane_ready`, the connections on which `send` succeeds, and the
node at which what a node sends to an address over the radio arrives, if any.
-/
structure MeshEnvironment where
  kernel : UInt8 → KernelRouting
  ready : UInt8 → Bool
  connected : UInt8 → UInt8 → Bool
  radio : UInt8 → Ipv4 → Option UInt8

/-- How a packet came into the kernel of a node. -/
inductive EntryPoint where
  | tun
  | radio
  deriving DecidableEq, Repr

/-- Where the kernel sends a packet that it forwards. -/
inductive ExitPoint where
  | tun
  | radio (gateway : Ipv4)
  deriving DecidableEq, Repr

/-- What the kernel makes of a packet; one that it forwards gets a new TTL. -/
inductive KernelVerdict where
  | toSelf
  | out (exit : ExitPoint) (ttl : Nat)
  | dropped
  deriving DecidableEq, Repr

/--
The IP layer of the kernel, which is not in the repository: its verdict at a
node with these routes, on a packet with this address and TTL.
-/
structure IpLayer where
  verdict : UInt8 → KernelRouting → EntryPoint → Ipv4 → Nat → KernelVerdict

/-- The addresses that `tun_open` gives the TUN and the physical interface. -/
def OwnAddress
    (phyPrefix : Ipv4Prefix)
    (me : UInt8)
    (address : Ipv4) : Prop :=
  address = meshAddress me ∨ address = ⟨phyPrefix, me⟩

instance (phyPrefix : Ipv4Prefix) (me : UInt8) (address : Ipv4) :
    Decidable (OwnAddress phyPrefix me address) :=
  inferInstanceAs (Decidable (_ ∨ _))

/-- Only packets for an address of the node are delivered in it. -/
def IpLayer.KeepsOwnOnly
    (ip : IpLayer)
    (phyPrefix : Ipv4Prefix) : Prop :=
  ∀ me kernel entry destination ttl,
    ip.verdict me kernel entry destination ttl = .toSelf →
      OwnAddress phyPrefix me destination

/-- Forwarding takes one from the TTL, and needs something to be left of it. -/
def IpLayer.LowersTtl (ip : IpLayer) : Prop :=
  ∀ me kernel entry destination ttl exit left,
    ip.verdict me kernel entry destination ttl = .out exit left →
      1 ≤ left ∧ left + 1 = ttl

/-- The packet goes no further. -/
def MeshPacket.drop (packet : MeshPacket) : MeshPacket :=
  { packet with place := .lost }

section

variable (numNodes : Nat)
variable (ip : IpLayer)
variable (env : MeshEnvironment)

/-- `tun_reader_loop`, for one packet. -/
def readTun (packet : MeshPacket) (node : UInt8) : MeshPacket :=
  let dstId := packet.destination.host
  if dstId ≠ 0 ∧ dstId ≠ node ∧ env.ready node = true then
    { packet with place := .queue node }
  else
    packet.drop

/--
The drain loop of `tx_loop`, for a packet that fits in the slot.  The address
of a peer is known for the configured nodes.
-/
def transmitPacket (packet : MeshPacket) (node : UInt8) : MeshPacket :=
  let nextHop :=
    routingManagerLookup numNodes (env.kernel node).routingTable
      packet.destination.host
  if nextHop ≠ 0 ∧ InNetwork numNodes nextHop ∧
      env.connected node nextHop = true then
    { packet with
      place := .stream nextHop
      hops := packet.hops ++ [⟨.slot, nextHop⟩] }
  else
    packet.drop

/--
The kernel of a node is handed a packet, which `tcp_rx_peer_loop` wrote into
the TUN or which came in by the radio.
-/
def routePacket
    (packet : MeshPacket)
    (node : UInt8)
    (entry : EntryPoint) : MeshPacket :=
  match ip.verdict node (env.kernel node) entry packet.destination
      packet.ttl with
  | .toSelf => { packet with place := .delivered node }
  | .out .tun ttl => { packet with place := .tun node, ttl := ttl }
  | .out (.radio gateway) ttl =>
      match env.radio node gateway with
      | some next =>
          { packet with
            place := .air next
            ttl := ttl
            hops := packet.hops ++ [⟨.radio, next⟩] }
      | none => packet.drop
  | .dropped => packet.drop

/-- The next step of a packet; one that has arrived or is lost stays. -/
def packetStep (packet : MeshPacket) : MeshPacket :=
  match packet.place with
  | .tun node => readTun env packet node
  | .queue node => transmitPacket numNodes env packet node
  | .stream node => routePacket ip env packet node .tun
  | .air node => routePacket ip env packet node .radio
  | .delivered _ => packet
  | .lost => packet

end

/-- A packet that an application of a node sends, in the TUN of the node. -/
def sentPacket
    (source : UInt8)
    (destination : Ipv4)
    (ttl : Nat) : MeshPacket where
  destination := destination
  place := .tun source
  ttl := ttl
  hops := []

/-!
## Every run
-/

/-- What surrounds the packet changes, or the packet makes its next step. -/
inductive PacketAction where
  | change (env : MeshEnvironment)
  | move

/-- A packet and what surrounds it. -/
structure PacketFlight where
  env : MeshEnvironment
  packet : MeshPacket

/-- One step of the packet or of what surrounds it. -/
def flightStep
    (numNodes : Nat)
    (ip : IpLayer)
    (flight : PacketFlight) : PacketAction → PacketFlight
  | .change env => { flight with env := env }
  | .move =>
      { flight with
        packet := packetStep numNodes ip flight.env flight.packet }

/-- The number of steps of the packet in a run. -/
def moves (actions : List PacketAction) : Nat :=
  actions.countP fun
    | .move => true
    | .change _ => false

/-- The packet is under way. -/
def MeshPacket.UnderWay (packet : MeshPacket) : Prop :=
  match packet.place with
  | .delivered _ => False
  | .lost => False
  | _ => True

/-- The steps that a packet can still make: three for each of its lives. -/
def MeshPacket.stepsLeft (packet : MeshPacket) : Nat :=
  match packet.place with
  | .tun _ => 3 * packet.ttl
  | .queue _ => 3 * packet.ttl - 1
  | .stream _ => 3 * packet.ttl - 2
  | .air _ => 3 * packet.ttl - 2
  | .delivered _ => 0
  | .lost => 0

/-- The hops that a packet can still make: one for each life that is left. -/
def MeshPacket.hopsLeft (packet : MeshPacket) : Nat :=
  match packet.place with
  | .tun _ => packet.ttl
  | .queue _ => packet.ttl
  | .stream _ => packet.ttl - 1
  | .air _ => packet.ttl - 1
  | .delivered _ => 0
  | .lost => 0

/-- A packet at its destination, if it has arrived anywhere. -/
def MeshPacket.ArrivedRight
    (phyPrefix : Ipv4Prefix)
    (packet : MeshPacket) : Prop :=
  ∀ node, packet.place = .delivered node →
    OwnAddress phyPrefix node packet.destination

/-- What a step of a packet uses up. -/
structure Progress
    (phyPrefix : Ipv4Prefix)
    (before after : MeshPacket) : Prop where
  alive : after.UnderWay → 1 ≤ after.ttl
  steps : after.UnderWay → after.stepsLeft < before.stepsLeft
  hops :
    after.hops.length + after.hopsLeft ≤ before.hops.length + before.hopsLeft
  arrived : after.ArrivedRight phyPrefix

section

variable {numNodes : Nat}
variable {phyPrefix : Ipv4Prefix}
variable {ip : IpLayer}
variable {env : MeshEnvironment}
variable {packet : MeshPacket}

theorem progress_drop : Progress phyPrefix packet packet.drop where
  alive := by simp [MeshPacket.drop, MeshPacket.UnderWay]
  steps := by simp [MeshPacket.drop, MeshPacket.UnderWay]
  hops := Nat.add_le_add_left (Nat.zero_le _) _
  arrived := by simp [MeshPacket.drop, MeshPacket.ArrivedRight]

theorem progress_readTun
    (alive : 1 ≤ packet.ttl)
    {node : UInt8}
    (isPlace : packet.place = .tun node) :
    Progress phyPrefix packet (readTun env packet node) := by
  unfold readTun
  dsimp only
  split
  · constructor
    · exact fun _ => alive
    · simp only [MeshPacket.stepsLeft, isPlace]
      omega
    · simp only [MeshPacket.hopsLeft, isPlace]
      exact le_rfl
    · simp [MeshPacket.ArrivedRight]
  · exact progress_drop

theorem progress_transmitPacket
    (alive : 1 ≤ packet.ttl)
    {node : UInt8}
    (isPlace : packet.place = .queue node) :
    Progress phyPrefix packet (transmitPacket numNodes env packet node) := by
  unfold transmitPacket
  dsimp only
  split
  · constructor
    · exact fun _ => alive
    · simp only [MeshPacket.stepsLeft, isPlace]
      omega
    · simp only [MeshPacket.hopsLeft, isPlace, List.length_append,
        List.length_singleton]
      omega
    · simp [MeshPacket.ArrivedRight]
  · exact progress_drop

/-- A relay takes a life for at most one hop. -/
theorem progress_relay
    {place : PacketPlace}
    {left : Nat}
    {made : List Hop}
    (alive : 1 ≤ left)
    (notDelivered : ∀ node, place ≠ .delivered node)
    (steps :
      { packet with place := place, ttl := left }.stepsLeft <
        packet.stepsLeft)
    (hops :
      made.length + { packet with place := place, ttl := left }.hopsLeft ≤
        packet.hopsLeft) :
    Progress phyPrefix packet
      { packet with
        place := place
        ttl := left
        hops := packet.hops ++ made } where
  alive := fun _ => alive
  steps := fun _ => steps
  hops := by
    rw [List.length_append, Nat.add_assoc]
    exact Nat.add_le_add_left hops _
  arrived := fun node arrived => (notDelivered node arrived).elim

theorem progress_routePacket
    (keepsOwnOnly : ip.KeepsOwnOnly phyPrefix)
    (lowersTtl : ip.LowersTtl)
    {node : UInt8}
    {entry : EntryPoint}
    (isPlace : packet.place = .stream node ∨ packet.place = .air node) :
    Progress phyPrefix packet (routePacket ip env packet node entry) := by
  have stepsLeft : packet.stepsLeft = 3 * packet.ttl - 2 := by
    rcases isPlace with same | same <;> simp [MeshPacket.stepsLeft, same]
  have hopsLeft : packet.hopsLeft = packet.ttl - 1 := by
    rcases isPlace with same | same <;> simp [MeshPacket.hopsLeft, same]
  unfold routePacket
  split
  · rename_i isSelf
    constructor
    · simp [MeshPacket.UnderWay]
    · simp [MeshPacket.UnderWay]
    · exact Nat.add_le_add_left (Nat.zero_le _) _
    · intro other same
      obtain rfl : node = other := by simpa using same
      exact keepsOwnOnly _ _ _ _ _ isSelf
  · rename_i left isOut
    obtain ⟨alive, lowered⟩ := lowersTtl _ _ _ _ _ _ _ isOut
    have relayed :
        Progress phyPrefix packet
          { packet with
            place := .tun node
            ttl := left
            hops := packet.hops ++ [] } := by
      refine progress_relay alive (by simp) ?_ ?_
      · rw [stepsLeft]
        simp only [MeshPacket.stepsLeft]
        omega
      · rw [hopsLeft]
        simp only [MeshPacket.hopsLeft, List.length_nil]
        omega
    simpa only [List.append_nil] using relayed
  · rename_i gateway left isOut
    obtain ⟨alive, lowered⟩ := lowersTtl _ _ _ _ _ _ _ isOut
    split
    · refine progress_relay alive (by simp) ?_ ?_
      · rw [stepsLeft]
        simp only [MeshPacket.stepsLeft]
        omega
      · rw [hopsLeft]
        simp only [MeshPacket.hopsLeft, List.length_singleton]
        omega
    · exact progress_drop
  · exact progress_drop

/-- A step of a packet that is under way uses up one of its steps. -/
theorem progress_packetStep
    (keepsOwnOnly : ip.KeepsOwnOnly phyPrefix)
    (lowersTtl : ip.LowersTtl)
    (underWay : packet.UnderWay)
    (alive : 1 ≤ packet.ttl) :
    Progress phyPrefix packet (packetStep numNodes ip env packet) := by
  unfold MeshPacket.UnderWay at underWay
  unfold packetStep
  cases isPlace : packet.place with
  | tun node => exact progress_readTun alive isPlace
  | queue node => exact progress_transmitPacket alive isPlace
  | stream node =>
      exact progress_routePacket keepsOwnOnly lowersTtl (.inl isPlace)
  | air node =>
      exact progress_routePacket keepsOwnOnly lowersTtl (.inr isPlace)
  | delivered node => simp [isPlace] at underWay
  | lost => simp [isPlace] at underWay

theorem packetStep_of_not_underWay (atRest : ¬ packet.UnderWay) :
    packetStep numNodes ip env packet = packet := by
  unfold MeshPacket.UnderWay at atRest
  unfold packetStep
  cases isPlace : packet.place <;> simp [isPlace] at atRest ⊢

theorem stepsLeft_pos
    (underWay : packet.UnderWay)
    (alive : 1 ≤ packet.ttl) :
    0 < packet.stepsLeft := by
  unfold MeshPacket.UnderWay at underWay
  unfold MeshPacket.stepsLeft
  cases isPlace : packet.place <;> simp [isPlace] at underWay ⊢ <;> omega

/-- What holds of a packet with `ttl` lives after `taken` steps. -/
structure WithinLives
    (phyPrefix : Ipv4Prefix)
    (ttl taken : Nat)
    (packet : MeshPacket) : Prop where
  alive : packet.UnderWay → 1 ≤ packet.ttl
  steps : packet.UnderWay → taken + packet.stepsLeft ≤ 3 * ttl
  hops : packet.hops.length + packet.hopsLeft ≤ ttl
  arrived : packet.ArrivedRight phyPrefix

theorem WithinLives.packetStep
    (keepsOwnOnly : ip.KeepsOwnOnly phyPrefix)
    (lowersTtl : ip.LowersTtl)
    {ttl taken : Nat}
    (within : WithinLives phyPrefix ttl taken packet) :
    WithinLives phyPrefix ttl (taken + 1)
      (RoutingMesh.packetStep numNodes ip env packet) := by
  by_cases underWay : packet.UnderWay
  · have progress : Progress phyPrefix packet
        (RoutingMesh.packetStep numNodes ip env packet) :=
      progress_packetStep keepsOwnOnly lowersTtl underWay
        (within.alive underWay)
    have before := within.steps underWay
    exact
      { alive := progress.alive
        steps := fun still => by
          have fewer := progress.steps still
          omega
        hops := progress.hops.trans within.hops
        arrived := progress.arrived }
  · rw [packetStep_of_not_underWay underWay]
    exact
      { alive := within.alive
        steps := fun still => (underWay still).elim
        hops := within.hops
        arrived := within.arrived }

end

/--
Whatever the tables, the gates and the links are, and however they change
under the packet: with kernels that lower the TTL and keep only what is for
their node, a packet makes at most as many hops as it has lives, is at rest
after three steps for each of them, and is delivered to no other node than
the one it is for.  A loop between disagreeing tables uses it up.
-/
theorem packet_comes_to_rest
    (numNodes : Nat)
    (phyPrefix : Ipv4Prefix)
    {ip : IpLayer}
    (keepsOwnOnly : ip.KeepsOwnOnly phyPrefix)
    (lowersTtl : ip.LowersTtl)
    (env : MeshEnvironment)
    (source : UInt8)
    (destination : Ipv4)
    {ttl : Nat}
    (alive : 1 ≤ ttl)
    (actions : List PacketAction) :
    let packet :=
      (actions.foldl (flightStep numNodes ip)
        { env := env
          packet := sentPacket source destination ttl }).packet
    packet.hops.length ≤ ttl ∧
      (3 * ttl ≤ moves actions → ¬ packet.UnderWay) ∧
      packet.ArrivedRight phyPrefix := by
  intro packet
  have within : WithinLives phyPrefix ttl (moves actions) packet := by
    induction actions using List.reverseRecOn with
    | nil =>
        exact
          { alive := fun _ => alive
            steps := fun _ => (Nat.zero_add _).le
            hops := (Nat.zero_add _).le
            arrived := by
              simp [packet, sentPacket, MeshPacket.ArrivedRight] }
    | append_singleton earlier action inductionHypothesis =>
        have counted :
            moves (earlier ++ [action]) = moves earlier + moves [action] :=
          List.countP_append
        simp only [packet, List.foldl_append, List.foldl_cons, List.foldl_nil,
          counted]
        cases action with
        | change env => exact inductionHypothesis
        | move => exact inductionHypothesis.packetStep keepsOwnOnly lowersTtl
  refine ⟨Nat.le_of_add_right_le within.hops, fun enough underWay => ?_,
    within.arrived⟩
  have positive := stepsLeft_pos underWay (within.alive underWay)
  have bounded := within.steps underWay
  omega

/--
A kernel with the rules of `tun_open`: its own addresses, table 200 for what
comes in by the TUN, and the main table, whose routes for the mesh lead to the
TUN; what is not for the mesh is not followed.
-/
def ruledKernel (phyPrefix : Ipv4Prefix) : IpLayer where
  verdict me kernel entry destination ttl :=
    if OwnAddress phyPrefix me destination then
      .toSelf
    else if ttl ≤ 1 then
      .dropped
    else
      match entry, kernel.table200 destination with
      | .tun, some gateway => .out (.radio gateway) (ttl - 1)
      | _, _ =>
          if destination.network = meshNetBase then
            .out .tun (ttl - 1)
          else
            .dropped

theorem keepsOwnOnly_ruledKernel (phyPrefix : Ipv4Prefix) :
    (ruledKernel phyPrefix).KeepsOwnOnly phyPrefix := by
  intro me kernel entry destination ttl isSelf
  by_contra notOwn
  simp only [ruledKernel, if_neg notOwn] at isSelf
  grind

theorem lowersTtl_ruledKernel (phyPrefix : Ipv4Prefix) :
    (ruledKernel phyPrefix).LowersTtl := by
  intro me kernel entry destination ttl exit left isOut
  simp only [ruledKernel] at isOut
  grind

/-- What is sent to a physical address arrives at the node that has it. -/
def radioOf
    (phyPrefix : Ipv4Prefix)
    (gateway : Ipv4) : Option UInt8 :=
  if gateway.network = phyPrefix then some gateway.host else none

/-- Nodes 1, 2 and 3 with node 1 in the middle. -/
def nodeOneBetween : MatrixSnapshot where
  idOfActiveNodes := [1, 2, 3]
  linkQuality := fun _ _ => 100
  mst := fun a b => if a ≠ b ∧ (a = 0 ∨ b = 0) then 1 else 0

/-- Node 1 takes node 2 for a relay to node 3, and node 2 takes node 1. -/
def disagreeingRelays : MeshEnvironment where
  kernel := fun node =>
    recomputeKernel node 3 ⟨172, 20, 10⟩
      (routingManagerCreate fun _ => none)
      (if node = 1 then lineOfThree else nodeOneBetween)
  ready := fun _ => true
  connected := fun _ _ => true
  radio := fun _ => radioOf ⟨172, 20, 10⟩

/-- A packet with four lives goes to and fro between them until it is lost. -/
theorem packet_comes_to_rest_disagreeingRelays :
    let packet :=
      ((List.replicate 12 PacketAction.move).foldl
        (flightStep 3 (ruledKernel ⟨172, 20, 10⟩))
        { env := disagreeingRelays
          packet := sentPacket 1 (meshAddress 3) 4 }).packet
    packet.hops.map Hop.node = [2, 1, 2, 1] ∧ ¬ packet.UnderWay :=
  ⟨by decide +kernel,
    (packet_comes_to_rest 3 ⟨172, 20, 10⟩ (keepsOwnOnly_ruledKernel _)
      (lowersTtl_ruledKernel _) disagreeingRelays 1 (meshAddress 3)
      (by decide : 1 ≤ 4) (List.replicate 12 .move)).2.1 (by decide)⟩

end RoutingMesh
