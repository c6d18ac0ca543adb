import RoutingMesh.RouteRequests

/-!
# Peers and their addresses

`node_init` writes the addresses of the peers as text.  The keepalive thread
reads such a text to connect to a peer, and the accept thread compares it with
the text of the address that a connection comes from.  So the two sides of a
connection agree on which nodes it is between, and no other address is taken
for a peer.
-/

namespace RoutingMesh

open DottedQuad

/-- `BASE_TCP_PORT`. -/
def baseTcpPort : Nat := 8000

/-- `struct sockaddr_in`. -/
structure SocketAddress where
  address : Ipv4
  port : UInt16
  deriving DecidableEq, Repr

/-- The numbers 1 to `num_nodes`, in the order of the loops. -/
def peerNumbers (numNodes : Nat) : List Nat :=
  List.range' 1 numNodes

/-- The `peer_ips` that `node_init` fills; `calloc` leaves the others empty. -/
def peerIps (phyPrefix : Ipv4Prefix) (numNodes : Nat) : Nat → List Char :=
  (peerNumbers numNodes).foldl
    (fun table i =>
      Function.update table i (addressText phyPrefix.text (UInt8.ofNat i)))
    fun _ => []

/-- `inet_ntop`. -/
def inetNtop (address : Ipv4) : List Char :=
  DottedQuad.text address.octets

/-- The search of `tcp_accept_loop` for where a connection comes from. -/
def acceptedPeer
    (peerIps : Nat → List Char)
    (numNodes : Nat)
    (source : Ipv4) : Option Nat :=
  (peerNumbers numNodes).find? fun i => peerIps i == inetNtop source

/-- The peers to which `tcp_keepalive_loop` connects. -/
def keepalivePeers
    (peerIps : Nat → List Char)
    (nodeId numNodes : Nat) : List Nat :=
  (peerNumbers numNodes).filter fun i => i != nodeId && peerIps i != []

/-- Where `tcp_connect_peer` connects to. -/
def connectTarget
    (peerIps : Nat → List Char)
    (peer : Nat) : Option SocketAddress :=
  (inetPton (peerIps peer)).map fun address =>
    { address := address
      port := UInt16.ofNat (baseTcpPort + peer) }

/-- Where a node listens, with the address that `tun_open` gives it. -/
def serverAddress (phyPrefix : Ipv4Prefix) (nodeId : Nat) : SocketAddress where
  address := ⟨phyPrefix, UInt8.ofNat nodeId⟩
  port := UInt16.ofNat (baseTcpPort + nodeId)

theorem mem_peerNumbers {numNodes peer : Nat} :
    peer ∈ peerNumbers numNodes ↔ 1 ≤ peer ∧ peer ≤ numNodes := by
  rw [peerNumbers, List.mem_range'_1]
  omega

/-- A loop that stores the text of each number leaves the empty text elsewhere. -/
theorem foldl_update_apply
    (textOf : Nat → List Char)
    (numbers : List Nat)
    (table : Nat → List Char)
    (i : Nat) :
    numbers.foldl (fun table i => Function.update table i (textOf i)) table i =
      if i ∈ numbers then textOf i else table i := by
  induction numbers generalizing table with
  | nil =>
      rfl
  | cons first rest inductionHypothesis =>
      rw [List.foldl_cons, inductionHypothesis, Function.update_apply]
      simp only [List.mem_cons]
      grind

/-- The text of a peer is that of its address. -/
theorem peerIps_eq
    (phyPrefix : Ipv4Prefix)
    {numNodes peer : Nat}
    (isPeer : 1 ≤ peer ∧ peer ≤ numNodes) :
    peerIps phyPrefix numNodes peer =
      inetNtop ⟨phyPrefix, UInt8.ofNat peer⟩ := by
  unfold peerIps
  rw [foldl_update_apply fun i => addressText phyPrefix.text (UInt8.ofNat i),
    if_pos (mem_peerNumbers.mpr isPeer), addressText_eq]
  rfl

/-- The text of a peer is read as its address. -/
theorem inetPton_peerIps
    (phyPrefix : Ipv4Prefix)
    {numNodes peer : Nat}
    (isPeer : 1 ≤ peer ∧ peer ≤ numNodes) :
    inetPton (peerIps phyPrefix numNodes peer) =
      some ⟨phyPrefix, UInt8.ofNat peer⟩ := by
  rw [peerIps_eq phyPrefix isPeer, inetNtop, ← addressText_eq]
  exact inetPton_addressText phyPrefix (UInt8.ofNat peer)

/-- Different addresses have different texts. -/
theorem inetNtop_inj {first second : Ipv4} :
    inetNtop first = inetNtop second ↔ first = second := by
  have notEmpty : ∀ address : Ipv4, address.octets ≠ [] :=
    fun _ => List.cons_ne_nil _ _
  unfold inetNtop
  rw [text_inj (notEmpty first) (notEmpty second)]
  constructor
  · intro same
    obtain ⟨⟨a, b, c⟩, d⟩ := first
    obtain ⟨⟨a', b', c'⟩, d'⟩ := second
    simp only [Ipv4.octets, List.cons.injEq, and_true] at same
    obtain ⟨rfl, rfl, rfl, rfl⟩ := same
    rfl
  · rintro rfl
    rfl

/-- The accept thread finds a peer exactly for its address. -/
theorem acceptedPeer_eq_some_iff
    {phyPrefix : Ipv4Prefix}
    {numNodes : Nat}
    (fits : numNodes ≤ maxNodes)
    {source : Ipv4}
    {peer : Nat} :
    acceptedPeer (peerIps phyPrefix numNodes) numNodes source = some peer ↔
      (1 ≤ peer ∧ peer ≤ numNodes) ∧
        source = ⟨phyPrefix, UInt8.ofNat peer⟩ := by
  have matches_iff
      {i : Nat}
      (isPeer : 1 ≤ i ∧ i ≤ numNodes) :
      (peerIps phyPrefix numNodes i == inetNtop source) = true ↔
        source = ⟨phyPrefix, UInt8.ofNat i⟩ := by
    rw [peerIps_eq phyPrefix isPeer, beq_iff_eq, inetNtop_inj, eq_comm]
  have sound
      {i : Nat}
      (finds :
        acceptedPeer (peerIps phyPrefix numNodes) numNodes source = some i) :
      (1 ≤ i ∧ i ≤ numNodes) ∧ source = ⟨phyPrefix, UInt8.ofNat i⟩ := by
    unfold acceptedPeer at finds
    have isPeer := mem_peerNumbers.mp (List.mem_of_find?_eq_some finds)
    have same := List.find?_some finds
    exact ⟨isPeer, (matches_iff isPeer).mp same⟩
  constructor
  · exact sound
  · rintro ⟨isPeer, isSource⟩
    have found :
        (acceptedPeer (peerIps phyPrefix numNodes) numNodes
          source).isSome := by
      rw [acceptedPeer, List.find?_isSome]
      exact ⟨peer, mem_peerNumbers.mpr isPeer,
        (matches_iff isPeer).mpr isSource⟩
    obtain ⟨other, finds⟩ := Option.isSome_iff_exists.mp found
    obtain ⟨isOther, sameSource⟩ := sound finds
    have sameByte : UInt8.ofNat peer = UInt8.ofNat other :=
      congrArg Ipv4.host (isSource.symm.trans sameSource)
    have sameNumber := congrArg UInt8.toNat sameByte
    unfold maxNodes at fits
    simp only [UInt8.toNat_ofNat'] at sameNumber
    obtain rfl : peer = other := by omega
    exact finds

/--
In a network of up to MAX_NODES nodes, with any prefix: the keepalive thread of
a node connects to all other nodes and to no one else; it connects to the
address and the port where the peer listens; and the accept thread there finds
the node that connects, and finds a peer for no address but that of the peer.
-/
theorem peers_findEachOther
    (phyPrefix : Ipv4Prefix)
    {numNodes : Nat}
    (fits : numNodes ≤ maxNodes) :
    let ips := peerIps phyPrefix numNodes
    (∀ nodeId peer,
        peer ∈ keepalivePeers ips nodeId numNodes ↔
          (1 ≤ peer ∧ peer ≤ numNodes) ∧ peer ≠ nodeId) ∧
      (∀ peer, 1 ≤ peer ∧ peer ≤ numNodes →
        connectTarget ips peer = some (serverAddress phyPrefix peer)) ∧
      ∀ source peer,
        acceptedPeer ips numNodes source = some peer ↔
          (1 ≤ peer ∧ peer ≤ numNodes) ∧
            source = (serverAddress phyPrefix peer).address := by
  intro ips
  refine ⟨fun nodeId peer => ?_, fun peer isPeer => ?_,
    fun source peer => acceptedPeer_eq_some_iff fits⟩
  · rw [keepalivePeers, List.mem_filter, mem_peerNumbers]
    constructor
    · rintro ⟨isPeer, notSelf⟩
      rw [Bool.and_eq_true, bne_iff_ne] at notSelf
      exact ⟨isPeer, notSelf.1⟩
    · rintro ⟨isPeer, notSelf⟩
      refine ⟨isPeer, ?_⟩
      have written : ips peer ≠ [] := by
        intro isEmpty
        have read := inetPton_peerIps phyPrefix isPeer
        have empty : peerIps phyPrefix numNodes peer = [] := isEmpty
        rw [empty] at read
        simp [inetPton, octetsOf, octetValue] at read
      simp [notSelf, written]
  · rw [connectTarget, inetPton_peerIps phyPrefix isPeer]
    rfl

/-- The third of three nodes takes 172.20.10.1 for the first, 172.20.10.11 for none. -/
theorem peers_findEachOther_ofThree :
    let ips := peerIps ⟨172, 20, 10⟩ 3
    connectTarget ips 3 = some (serverAddress ⟨172, 20, 10⟩ 3) ∧
      acceptedPeer ips 3 ⟨⟨172, 20, 10⟩, 1⟩ = some 1 ∧
      acceptedPeer ips 3 ⟨⟨172, 20, 10⟩, 11⟩ = none := by
  intro ips
  obtain ⟨-, connects, accepts⟩ :=
    @peers_findEachOther ⟨172, 20, 10⟩ 3 (by decide)
  refine ⟨connects 3 (by decide), (accepts _ 1).mpr ⟨by decide, rfl⟩, ?_⟩
  rw [Option.eq_none_iff_forall_ne_some]
  intro peer finds
  obtain ⟨isPeer, isSource⟩ := (accepts _ peer).mp finds
  have isHost := congrArg (fun address => address.host.toNat) isSource
  simp [serverAddress] at isHost
  omega

end RoutingMesh
