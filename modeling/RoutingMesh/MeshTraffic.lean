import RoutingMesh.HopDelivery

/-!
# The packets of the whole mesh

All nodes with their transmitters and connections, and the kernels between
them.  A kernel takes what an application sends, what a receive thread writes
into the TUN and what comes in by the radio.  It gives a packet once, to the
TUN, to the radio or to an application, or it drops the packet; on the way it
changes the time to live and the checksum.  Which of these it does is left
open here, so what follows holds for any tables.
-/

namespace RoutingMesh

open ChannelLog

/-- An IPv4 packet without its time to live and its header checksum. -/
def unchangedPart (packet : List UInt8) : List UInt8 :=
  packet.take 8 ++ (packet.drop 9).take 1 ++ packet.drop 12

/--
The nodes, the packets in their kernels, and for the record what applications
sent and got, what was read from the TUNs, and what was written to the TUNs,
each with the node that sent it and its connection.
-/
structure MeshTraffic where
  nodes : UInt8 → HopState
  inKernels : List (UInt8 × List UInt8)
  sent : List (UInt8 × List UInt8)
  delivered : List (UInt8 × List UInt8)
  reads : List (UInt8 × List UInt8)
  writes : List (UInt8 × Nat × List UInt8)

/-- Before the threads run. -/
def trafficStart : MeshTraffic where
  nodes := fun _ => hopStart
  inKernels := []
  sent := []
  delivered := []
  reads := []
  writes := []

/--
The steps: an application sends; `tun_reader_loop` reads what the kernel made
of a packet; a packet goes over the radio; an application gets a packet; a
packet is dropped; and every other step of a node and its connections.
-/
inductive TrafficAction where
  | send (node : UInt8) (packet : List UInt8)
  | readTun (node : UInt8) (packet given : List UInt8) (ready : Bool)
  | radio (node other : UInt8) (packet given : List UInt8)
  | deliver (node : UInt8) (packet : List UInt8)
  | drop (node : UInt8) (packet : List UInt8)
  | hop (node : UInt8) (action : HopAction)

/-- What a step on a connection writes to a TUN. -/
def newlyWritten
    (before after : HopState) : HopAction → List (Nat × List UInt8)
  | .receive id _ _ =>
      ((after.writtenOn id).drop (before.writtenOn id).length).map (Prod.mk id)
  | _ => []

/-- The step reads from a TUN. -/
def ReadsTun : HopAction → Prop
  | .transmit (.tunRead _ _) => True
  | _ => False

section

variable (peer : UInt8 → Nat → UInt8)
variable (tunFd : UInt8 → Nat → Int)

/--
One step of the mesh; the connection `id` of a node leads to its neighbour
`peer node id`, whose TUN is `tunFd node id`.
-/
def trafficStep (traffic : MeshTraffic) : TrafficAction → MeshTraffic
  | .send node packet =>
      { traffic with
        inKernels := (node, packet) :: traffic.inKernels
        sent := (node, packet) :: traffic.sent }
  | .readTun node packet given ready =>
      { traffic with
        nodes :=
          Function.update traffic.nodes node
            (hopStep node (tunFd node) (traffic.nodes node)
              (.transmit (.tunRead given ready)))
        inKernels := traffic.inKernels.erase (node, packet)
        reads := traffic.reads ++ [(node, given)] }
  | .radio node other packet given =>
      { traffic with
        inKernels := (other, given) :: traffic.inKernels.erase (node, packet) }
  | .deliver node packet =>
      { traffic with
        inKernels := traffic.inKernels.erase (node, packet)
        delivered := (node, packet) :: traffic.delivered }
  | .drop node packet =>
      { traffic with
        inKernels := traffic.inKernels.erase (node, packet) }
  | .hop node action =>
      let after := hopStep node (tunFd node) (traffic.nodes node) action
      let written := newlyWritten (traffic.nodes node) after action
      { traffic with
        nodes := Function.update traffic.nodes node after
        inKernels :=
          written.map (fun entry => (peer node entry.1, entry.2)) ++
            traffic.inKernels
        writes := traffic.writes ++ written.map (Prod.mk node) }

end

/--
A kernel gives on what it has, with the rest of the packet unchanged, and the
nodes take their steps with the framing of each connection kept.
-/
def TrafficEnabled (traffic : MeshTraffic) : TrafficAction → Prop
  | .send _ _ => True
  | .readTun node packet given _ =>
      (node, packet) ∈ traffic.inKernels ∧
        unchangedPart given = unchangedPart packet
  | .radio node _ packet given =>
      (node, packet) ∈ traffic.inKernels ∧
        unchangedPart given = unchangedPart packet
  | .deliver node packet => (node, packet) ∈ traffic.inKernels
  | .drop node packet => (node, packet) ∈ traffic.inKernels
  | .hop node action =>
      HopEnabled node (traffic.nodes node) action ∧ ¬ ReadsTun action

instance : DecidablePred ReadsTun
  | .transmit (.tunRead _ _) => .isTrue trivial
  | .transmit .beginSlot => .isFalse id
  | .transmit .pop => .isFalse id
  | .transmit (.handle _ _ _) => .isFalse id
  | .connect _ _ _ => .isFalse id
  | .hand _ _ _ _ => .isFalse id
  | .sendFails _ => .isFalse id
  | .receive _ _ _ => .isFalse id

instance (traffic : MeshTraffic) : DecidablePred (TrafficEnabled traffic)
  | .send _ _ => .isTrue trivial
  | .readTun _ _ _ _ => inferInstanceAs (Decidable (_ ∧ _ = _))
  | .radio _ _ _ _ => inferInstanceAs (Decidable (_ ∧ _ = _))
  | .deliver _ _ => inferInstanceAs (Decidable (_ ∈ traffic.inKernels))
  | .drop _ _ => inferInstanceAs (Decidable (_ ∈ traffic.inKernels))
  | .hop node action =>
      inferInstanceAs
        (Decidable
          (HopEnabled node (traffic.nodes node) action ∧ ¬ ReadsTun action))

/-- How often a packet is in a list, whatever its time to live. -/
def timesListed
    (part : List UInt8)
    (located : List (UInt8 × List UInt8)) : Nat :=
  (located.map fun entry => unchangedPart entry.2).count part

@[simp]
theorem timesListed_nil (part : List UInt8) : timesListed part [] = 0 :=
  rfl

@[simp]
theorem timesListed_cons
    (part : List UInt8)
    (entry : UInt8 × List UInt8)
    (located : List (UInt8 × List UInt8)) :
    timesListed part (entry :: located) =
      timesListed part located +
        if unchangedPart entry.2 = part then 1 else 0 := by
  simp [timesListed, List.count_cons]

@[simp]
theorem timesListed_append
    (part : List UInt8)
    (first second : List (UInt8 × List UInt8)) :
    timesListed part (first ++ second) =
      timesListed part first + timesListed part second := by
  simp [timesListed]

/-- A packet that is taken out was there once more. -/
theorem timesListed_erase
    {node : UInt8}
    {packet : List UInt8}
    {located : List (UInt8 × List UInt8)}
    (listed : (node, packet) ∈ located)
    (part : List UInt8) :
    timesListed part located =
      timesListed part (located.erase (node, packet)) +
        if unchangedPart packet = part then 1 else 0 := by
  calc
    timesListed part located
        = timesListed part
            ((node, packet) :: located.erase (node, packet)) :=
      ((List.perm_cons_erase listed).map _).count_eq part
    _ = _ := timesListed_cons part (node, packet) _

theorem timesListed_le
    (part : List UInt8)
    {some whole : List (UInt8 × List UInt8)}
    (isPart : some.Subperm whole) :
    timesListed part some ≤ timesListed part whole :=
  (subperm_map isPart _).count_le part

/-! ## What a step of a node writes and reads -/

theorem written_readLength
    (state : RxState)
    (result : RecvResult) :
    (readLength state result).written = state.written := by
  cases result with
  | failed again => rfl
  | returned bytes =>
      simp only [readLength]
      split
      · rfl
      · split <;> rfl

theorem exists_written_handleBody
    (tunFd : Int)
    (tunError : Option Bool)
    (state : RxState) :
    ∃ more, (handleBody tunFd tunError state).written =
      state.written ++ more := by
  unfold handleBody
  split
  · exact ⟨[], (List.append_nil _).symm⟩
  · split
    · exact ⟨[], (List.append_nil _).symm⟩
    · split
      · exact ⟨[], (List.append_nil _).symm⟩
      · exact ⟨[state.ipPkt], rfl⟩

/-- The receiver only adds to what it wrote. -/
theorem exists_written_rxStep
    (tunFd : Int)
    (tunError : Option Bool)
    (state : RxState)
    (result : RecvResult) :
    ∃ more, (rxStep tunFd tunError state result).written =
      state.written ++ more := by
  have same : ∃ more, state.written = state.written ++ more :=
    ⟨[], (List.append_nil _).symm⟩
  unfold rxStep
  split
  · rw [written_readLength]
    exact same
  · cases result with
    | failed again => exact same
    | returned bytes =>
        simp only [readBody]
        split
        · exact same
        · exact exists_written_handleBody tunFd tunError _
  · exact same

section

variable {nodeId : UInt8}
variable {tunFd : Nat → Int}
variable {state : HopState}

/-- A step on a connection without a read writes nothing. -/
theorem writtenOn_onConnection
    {id : Nat}
    {action : ConnAction}
    (same :
      ∀ conn : Connection,
        (connStep nodeId (tunFd id) conn action).rx.written =
          conn.rx.written)
    (other : Nat) :
    (state.onConnection nodeId tunFd id action).writtenOn other =
      state.writtenOn other := by
  by_cases isSame : other = id
  · subst isSame
    simp only [HopState.writtenOn, HopState.onConnection, Function.update_self]
    cases state.connections other with
    | none => rfl
    | some conn => exact same conn
  · simp only [HopState.writtenOn, HopState.onConnection,
      Function.update_of_ne isSame]

/-- A read on a connection adds to what was written on this one. -/
theorem writtenOn_receive
    (id : Nat)
    (result : RecvResult)
    (tunError : Option Bool)
    (other : Nat) :
    (hopStep nodeId tunFd state (.receive id result tunError)).writtenOn
        other =
      state.writtenOn other ++
        onChannel
          (newlyWritten state
            (hopStep nodeId tunFd state (.receive id result tunError))
            (.receive id result tunError))
          other := by
  rw [newlyWritten, onChannel_map_mk]
  by_cases isSame : id = other
  · subst isSame
    rw [if_pos rfl]
    simp only [hopStep, HopState.writtenOn, HopState.onConnection,
      Function.update_self]
    cases state.connections id with
    | none => rfl
    | some conn =>
        obtain ⟨more, grows⟩ :=
          exists_written_rxStep (tunFd id) tunError conn.rx result
        simp only [Option.map_some, connStep, grows, List.drop_left]
  · rw [if_neg isSame, List.append_nil]
    simp only [hopStep, HopState.writtenOn, HopState.onConnection,
      Function.update_of_ne (Ne.symm isSame)]

/-- Every step writes on the connections what it is recorded to write. -/
theorem writtenOn_hopStep
    {action : HopAction}
    (allowed : HopEnabled nodeId state action)
    (other : Nat) :
    (hopStep nodeId tunFd state action).writtenOn other =
      state.writtenOn other ++
        onChannel
          (newlyWritten state (hopStep nodeId tunFd state action) action)
          other := by
  cases action with
  | connect id buffer errnoAgain =>
      have isNew : state.connections id = none := allowed
      by_cases isSame : other = id
      · subst isSame
        simp [hopStep, HopState.writtenOn, newlyWritten, onChannel, isNew,
          connectionStart, rxStart]
      · simp [hopStep, HopState.writtenOn, newlyWritten, onChannel,
          Function.update_of_ne isSame]
  | transmit action => simp [hopStep, HopState.writtenOn, newlyWritten, onChannel]
  | hand id nextHop timestamp count =>
      simp only [hopStep]
      split
      · exact (writtenOn_onConnection (fun _ => rfl) other).trans
          (List.append_nil _).symm
      · exact (List.append_nil _).symm
  | sendFails id =>
      exact (writtenOn_onConnection (fun _ => rfl) other).trans
        (List.append_nil _).symm
  | receive id result tunError => exact writtenOn_receive id result tunError other

/-- A step that does not read from the TUN leaves what was read. -/
theorem readPackets_hopStep
    {action : HopAction}
    (readsNothing : ¬ ReadsTun action) :
    (hopStep nodeId tunFd state action).tx.readPackets =
      state.tx.readPackets := by
  have handled
      (tx : TxState)
      (slotEnded : Bool)
      (nextHop : UInt8)
      (outcome : SendOutcome) :
      (txStep nodeId tx (.handle slotEnded nextHop outcome)).readPackets =
        tx.readPackets := by
    simp only [txStep]
    split
    · unfold handlePacket
      split
      · rfl
      · split
        · rfl
        · dsimp only
          split
          · rfl
          · cases outcome <;> rfl
    · rfl
  cases action with
  | connect id buffer errnoAgain => rfl
  | transmit action =>
      cases action with
      | tunRead data ready => exact (readsNothing trivial).elim
      | beginSlot =>
          simp only [hopStep, txStep]
          split <;> rfl
      | pop =>
          simp only [hopStep, txStep]
          split <;> rfl
      | handle slotEnded nextHop outcome =>
          exact handled state.tx slotEnded nextHop outcome
  | hand id nextHop timestamp count =>
      simp only [hopStep]
      split
      · exact handled state.tx false nextHop (.sent count)
      · rfl
  | sendFails id => rfl
  | receive id result tunError => rfl

end

/-! ## The account of the mesh -/

/-- The packets that some nodes have in hand or in their queues. -/
def MeshTraffic.waiting
    (traffic : MeshTraffic)
    (nodes : List UInt8) : List (UInt8 × List UInt8) :=
  nodes.flatMap fun node =>
    (((traffic.nodes node).tx.phase.inHand ++
      (traffic.nodes node).tx.queue).map TxPacket.data).map (Prod.mk node)

/--
The nodes are consistent, the records are those of the nodes, and what left
the kernels and what is in them came in.
-/
structure MeshTraffic.Accounted (traffic : MeshTraffic) : Prop where
  consistent : ∀ node, (traffic.nodes node).Consistent node
  reads :
    ∀ node,
      (traffic.nodes node).tx.readPackets.map TxPacket.data =
        onChannel traffic.reads node
  writes :
    ∀ node id,
      (traffic.nodes node).writtenOn id =
        onChannel (onChannel traffic.writes node) id
  balance :
    ∀ part,
      timesListed part traffic.delivered + timesListed part traffic.inKernels +
          timesListed part traffic.reads ≤
        timesListed part traffic.sent +
          timesListed part
            (traffic.writes.map fun entry => (entry.1, entry.2.2))

section

variable {traffic : MeshTraffic}

/--
What the neighbours wrote and what waits in different nodes was read from the
TUNs, each packet once.
-/
theorem MeshTraffic.Accounted.writes_subperm
    (accounted : traffic.Accounted)
    {nodes : List UInt8}
    (distinct : nodes.Nodup) :
    ((traffic.writes.map fun entry => (entry.1, entry.2.2)) ++
        traffic.waiting nodes).Subperm
      traffic.reads := by
  apply subperm_of_onChannel
  intro node
  have onNode :
      onChannel (traffic.writes.map fun entry => (entry.1, entry.2.2)) node =
        (onChannel traffic.writes node).map Prod.snd :=
    onChannel_map traffic.writes Prod.snd node
  have carried :
      (onChannel traffic.writes node).Subperm
        ((traffic.nodes node).carried.map fun entry =>
          (entry.1, entry.2.packet.data)) := by
    apply subperm_of_onChannel
    intro id
    rw [← accounted.writes node id,
      onChannel_map _ (fun stamped : StampedFrame => stamped.packet.data)]
    exact ((accounted.consistent node).writtenOn id).subperm
  have written :
      ((onChannel traffic.writes node).map Prod.snd).Subperm
        (packetsOf ((traffic.nodes node).carried.map Prod.snd)) := by
    have inAll := subperm_map carried Prod.snd
    rw [List.map_map] at inAll
    rw [packetsOf, List.map_map]
    exact inAll
  have waits :
      (onChannel (traffic.waiting nodes) node).Subperm
        (((traffic.nodes node).tx.phase.inHand ++
          (traffic.nodes node).tx.queue).map TxPacket.data) := by
    rw [MeshTraffic.waiting, onChannel_flatMap_mk distinct]
    split
    · exact List.Subperm.refl _
    · exact List.nil_subperm
  rw [onChannel_append, onNode, ← accounted.reads node]
  exact (written.append waits).trans (accounted.consistent node).inNode_subperm

theorem accounted_trafficStart : trafficStart.Accounted where
  consistent _ := consistent_hopStart
  reads _ := rfl
  writes _ _ := rfl
  balance _ := Nat.le_refl _

variable {peer : UInt8 → Nat → UInt8}
variable {tunFd : UInt8 → Nat → Int}

/-- A packet that `tun_reader_loop` reads leaves the kernel. -/
theorem MeshTraffic.Accounted.readTun
    (accounted : traffic.Accounted)
    {node : UInt8}
    {packet given : List UInt8}
    (listed : (node, packet) ∈ traffic.inKernels)
    (same : unchangedPart given = unchangedPart packet)
    (ready : Bool) :
    (trafficStep peer tunFd traffic
      (.readTun node packet given ready)).Accounted where
  consistent other := by
    simp only [trafficStep, Function.update_apply]
    split
    · rename_i isNode
      rw [isNode]
      exact (accounted.consistent node).step ⟨trivial, trivial⟩
    · exact accounted.consistent other
  reads other := by
    simp only [trafficStep, Function.update_apply, onChannel_concat]
    split
    · rename_i isNode
      rw [if_pos isNode.symm, isNode, ← accounted.reads node]
      simp [hopStep, txStep, TxPacket.ofTun]
    · rename_i notNode
      rw [if_neg (Ne.symm notNode)]
      exact accounted.reads other
  writes other id := by
    simp only [trafficStep, Function.update_apply]
    split
    · rename_i isNode
      rw [isNode]
      exact accounted.writes node id
    · exact accounted.writes other id
  balance part := by
    have before := accounted.balance part
    have taken := timesListed_erase listed part
    simp only [trafficStep, timesListed_append, timesListed_cons,
      timesListed_nil, same]
    omega

/-- What a node writes to a neighbour comes into the kernel there. -/
theorem MeshTraffic.Accounted.hop
    (accounted : traffic.Accounted)
    {node : UInt8}
    {action : HopAction}
    (allowed : HopEnabled node (traffic.nodes node) action)
    (readsNothing : ¬ ReadsTun action) :
    (trafficStep peer tunFd traffic (.hop node action)).Accounted where
  consistent other := by
    simp only [trafficStep, Function.update_apply]
    split
    · rename_i isNode
      rw [isNode]
      exact (accounted.consistent node).step allowed
    · exact accounted.consistent other
  reads other := by
    simp only [trafficStep, Function.update_apply]
    split
    · rename_i isNode
      rw [isNode, readPackets_hopStep readsNothing]
      exact accounted.reads node
    · exact accounted.reads other
  writes other id := by
    simp only [trafficStep, Function.update_apply, onChannel_append,
      onChannel_map_mk]
    split
    · rename_i isNode
      rw [if_pos isNode.symm, isNode, writtenOn_hopStep allowed,
        accounted.writes node id]
    · rename_i notNode
      rw [if_neg (Ne.symm notNode), accounted.writes other id]
      simp [onChannel]
  balance part := by
    have before := accounted.balance part
    have written
        (entries : List (Nat × List UInt8))
        (first : Nat × List UInt8 → UInt8) :
        timesListed part (entries.map fun entry => (first entry, entry.2)) =
          (entries.map fun entry => unchangedPart entry.2).count part := by
      rw [timesListed, List.map_map]
      rfl
    simp only [trafficStep, timesListed_append, List.map_append, List.map_map]
    have arrived := written (newlyWritten (traffic.nodes node)
      (hopStep node (tunFd node) (traffic.nodes node) action) action)
    have inKernel := arrived fun entry => peer node entry.1
    have recorded := arrived fun _ => node
    simp only [Function.comp_def] at *
    omega

/-- Every step keeps the account. -/
theorem MeshTraffic.Accounted.step
    (accounted : traffic.Accounted)
    {action : TrafficAction}
    (allowed : TrafficEnabled traffic action) :
    (trafficStep peer tunFd traffic action).Accounted := by
  cases action with
  | send node packet =>
      refine { accounted with balance := fun part => ?_ }
      have before := accounted.balance part
      simp only [trafficStep, timesListed_cons]
      omega
  | readTun node packet given ready =>
      exact accounted.readTun allowed.1 allowed.2 ready
  | radio node other packet given =>
      refine { accounted with balance := fun part => ?_ }
      have before := accounted.balance part
      have taken := timesListed_erase allowed.1 part
      simp only [trafficStep, timesListed_cons, allowed.2]
      omega
  | deliver node packet =>
      refine { accounted with balance := fun part => ?_ }
      have before := accounted.balance part
      have taken := timesListed_erase allowed part
      simp only [trafficStep, timesListed_cons]
      omega
  | drop node packet =>
      refine { accounted with balance := fun part => ?_ }
      have before := accounted.balance part
      have taken := timesListed_erase allowed part
      simp only [trafficStep]
      omega
  | hop node action => exact accounted.hop allowed.1 allowed.2

end

/--
In every interleaving of all nodes, their connections and their kernels, with
any tables and any losses, as long as the framing of each connection is kept:
the packets that applications got, those in the kernels and those that wait in
any different nodes are, each counted, no more than those that applications
sent.
-/
theorem mesh_delivers_atMostOnce
    (peer : UInt8 → Nat → UInt8)
    (tunFd : UInt8 → Nat → Int)
    {traffic : MeshTraffic}
    (reachable :
      StepRun.Reachable (trafficStep peer tunFd) TrafficEnabled trafficStart
        traffic)
    {nodes : List UInt8}
    (distinct : nodes.Nodup) :
    ∀ part,
      timesListed part traffic.delivered +
            timesListed part traffic.inKernels +
          timesListed part (traffic.waiting nodes) ≤
        timesListed part traffic.sent := by
  intro part
  have accounted : traffic.Accounted :=
    reachable.invariant MeshTraffic.Accounted accounted_trafficStart
      fun accounted allowed => accounted.step allowed
  have balance := accounted.balance part
  have isRead := timesListed_le part (accounted.writes_subperm distinct)
  rw [timesListed_append] at isRead
  omega

/--
A packet of node 1 for node 3 goes to node 2 on a connection, and from there
over the radio with a life less.
-/
def relaysOverRadio : List TrafficAction :=
  let packet := ipPacket 1 3
  let frame : StampedFrame :=
    { frame := { seqNum := 1, msgId := 0, packet := .ofTun packet }
      timestamp := 0 }
  let bytes := frame.bytes 1
  [.send 1 packet,
    .readTun 1 packet packet true,
    .hop 1 (.connect 0 (fun _ => 0) false),
    .hop 1 (.transmit .beginSlot),
    .hop 1 (.transmit .pop),
    .hop 1 (.hand 0 2 0 48),
    .hop 1 (.receive 0 (.returned (bytes.take 4)) none),
    .hop 1 (.receive 0 (.returned (bytes.drop 4)) none),
    .radio 2 3 packet (packet.set 8 63),
    .deliver 3 (packet.set 8 63)]

/-- It is delivered, and is nowhere else any more. -/
theorem mesh_delivers_atMostOnce_relaysOverRadio :
    let traffic :=
      relaysOverRadio.foldl (trafficStep (fun _ _ => 2) fun _ _ => 5)
        trafficStart
    traffic.delivered = [(3, (ipPacket 1 3).set 8 63)] ∧
      timesListed (unchangedPart (ipPacket 1 3)) traffic.delivered +
            timesListed (unchangedPart (ipPacket 1 3)) traffic.inKernels +
          timesListed (unchangedPart (ipPacket 1 3))
            (traffic.waiting [1, 2, 3]) ≤
        1 := by
  intro traffic
  have reachable :
      StepRun.Reachable (trafficStep (fun _ _ => 2) fun _ _ => 5)
        TrafficEnabled trafficStart traffic :=
    ⟨relaysOverRadio, StepRun.Run.of_checkRun (by decide +kernel)⟩
  exact ⟨by decide +kernel,
    mesh_delivers_atMostOnce (fun _ _ => 2) (fun _ _ => 5) reachable
      (by decide) (unchangedPart (ipPacket 1 3))⟩

end RoutingMesh
