import RoutingMesh.AdmittedNodes
import RoutingMesh.BeaconCodec
import RoutingMesh.ByteStream
import RoutingMesh.LoopFreeForwarding

/-!
# The network on the wire

The nodes of the network exchange datagrams instead of matrices: a
transmission writes the header and the serialised matrix, and a receiver reads
whatever `recvfrom` left in its buffer, over the bytes of the packet before.
Up to 15 nodes every run of this network is a run of the network that passes
matrices, with the same nodes at every step, so what holds of that network
holds of the bytes.
-/

namespace RoutingMesh

open ByteStream KeyedCells

/--
The fields of a beacon header that its sender fills in besides the type and
its identifier; the time stamp is the 64 bits of a double.
-/
structure BeaconStamp where
  seqNum : UInt32
  timestamp : UInt64
  slotBeginMs : UInt16
  slotEndMs : UInt16

/-- The `tdma_header_t` of a beacon. -/
def beaconHeader (sender : UInt8) (stamp : BeaconStamp) : List UInt8 :=
  [matrixType, sender] ++
    hostOrder 4 stamp.seqNum.toUInt64 ++
    hostOrder 8 stamp.timestamp ++
    hostOrder 2 stamp.slotBeginMs.toUInt64 ++
    hostOrder 2 stamp.slotEndMs.toUInt64

/-- What `tx_loop` gives to `sendto`: the header and the serialised matrix. -/
def beaconDatagram
    (sender : UInt8)
    (stamp : BeaconStamp)
    (mat : TdmaMatrix)
    (age : Nat → UInt64) : List UInt8 :=
  beaconHeader sender stamp ++
    (List.range (payloadLength mat.nodeCount).toNat).map
      (serializeMatrix mat age)

/-- The nodes, the buffers of their receivers, and the datagrams in flight. -/
structure WireNetwork where
  nodes : UInt8 → MeshNode
  buffers : UInt8 → Nat → UInt8
  datagrams : List (List UInt8)
  clock : ℚ

/-- The nodes before their threads run; a buffer may hold anything. -/
def wireStart
    (boot : UInt8 → ℚ)
    (buffers : UInt8 → Nat → UInt8)
    (clock : ℚ) : WireNetwork where
  nodes := fun i => nodeStart i (boot i)
  buffers := buffers
  datagrams := []
  clock := clock

/--
A transmission, with the doubles that its ages are stored as, the arrival of a
datagram, or a step inside one node.
-/
inductive WireAction where
  | transmit
      (sender : UInt8)
      (removalTime time : ℚ)
      (stamp : BeaconStamp)
      (age : Nat → UInt64)
  | deliver (message : Nat) (receiver : UInt8) (time : ℚ)
  | thread (node : UInt8) (action : NodeAction)

/-- The node of a sender after `serializeMatrix`. -/
def WireNetwork.serialised
    (mode : LinkQualityMode)
    (network : WireNetwork)
    (sender : UInt8)
    (removalTime time : ℚ) : MeshNode :=
  nodeStep mode (network.nodes sender) (.matrix (.serialize removalTime time))

/-- What `receiver_loop` makes of the bytes in its buffer. -/
def receivePacket
    (mode : LinkQualityMode)
    (value : UInt64 → ℚ)
    (node : MeshNode)
    (buffer : Nat → UInt8)
    (time : ℚ) : MeshNode :=
  if buffer 0 = matrixType then
    nodeStep mode node
      (.matrix
        (.update ((deserializeMatrix buffer).toTdmaMatrix value)
          (buffer 1) time))
  else
    node

/-- One step of the network; `value` is the number that a double stands for. -/
def wireStep
    (mode : LinkQualityMode)
    (value : UInt64 → ℚ)
    (network : WireNetwork) : WireAction → WireNetwork
  | .transmit sender removalTime time stamp age =>
      let node := network.serialised mode sender removalTime time
      { network with
        nodes := Function.update network.nodes sender node
        datagrams :=
          network.datagrams ++
            [beaconDatagram sender stamp node.matrix.myMatrix age]
        clock := time }
  | .deliver message receiver time =>
      match network.datagrams[message]? with
      | none => network
      | some datagram =>
          let buffer := receiverBuffer datagram (network.buffers receiver)
          { network with
            nodes :=
              Function.update network.nodes receiver
                (receivePacket mode value (network.nodes receiver) buffer time)
            buffers := Function.update network.buffers receiver buffer
            clock := time }
  | .thread node action =>
      { network with
        nodes :=
          Function.update network.nodes node
            (nodeStep mode (network.nodes node) action)
        clock := action.reading network.clock }

/--
A step is allowed as in the network of matrices; a sender stores its ages as
the doubles that stand for them.
-/
def WireEnabled
    (mode : LinkQualityMode)
    (value : UInt64 → ℚ)
    (numNodes : Nat)
    (network : WireNetwork) : WireAction → Prop
  | .transmit sender removalTime time _ age =>
      let mat :=
        (network.serialised mode sender removalTime time).matrix.myMatrix
      InNetwork numNodes sender ∧
        ∀ i, i < mat.numberOfActiveNodes → value (age i) = mat.age i
  | .deliver message receiver _ =>
      InNetwork numNodes receiver ∧
        (network.nodes receiver).pushPending = false ∧
        ∃ datagram ∈ network.datagrams[message]?,
          datagram.getD 1 0 ≠ receiver
  | .thread node action =>
      InNetwork numNodes node ∧
        action.StaysInside ∧ PhaseAllows (network.nodes node) action

instance
    (mode : LinkQualityMode)
    (value : UInt64 → ℚ)
    (numNodes : Nat)
    (network : WireNetwork) :
    DecidablePred (WireEnabled mode value numNodes network)
  | .transmit _ _ _ _ _ => inferInstanceAs (Decidable (_ ∧ ∀ _, _ → _))
  | .deliver message receiver _ =>
      inferInstanceAs
        (Decidable
          (InNetwork numNodes receiver ∧
            (network.nodes receiver).pushPending = false ∧
            ∃ datagram ∈ network.datagrams[message]?,
              datagram.getD 1 0 ≠ receiver))
  | .thread _ _ => inferInstanceAs (Decidable (_ ∧ _ ∧ _))

/-- The step of the network of matrices that a step makes. -/
def WireAction.toNetworkAction : WireAction → NetworkAction
  | transmit sender removalTime time _ _ =>
      .transmit sender removalTime time
  | deliver message receiver time => .deliver message receiver time
  | thread node action => .thread node action

/-!
## What a merge reads of the received matrix
-/

/-- Two matrices with the same content, as far as they list nodes. -/
structure TdmaMatrix.SameContent (first second : TdmaMatrix) : Prop where
  ids : first.idOfActiveNodes = second.idOfActiveNodes
  cells :
    ∀ i, i < second.numberOfActiveNodes →
      ∀ j, j < second.numberOfActiveNodes →
        first.matrix i j = second.matrix i j
  ages : ∀ i, i < second.numberOfActiveNodes → first.age i = second.age i

namespace TdmaMatrix.SameContent

variable {first second : TdmaMatrix} (same : first.SameContent second)
include same

theorem copyLine_eq
    (final : TdmaMatrix)
    {i : Nat}
    (listed : i < second.numberOfActiveNodes)
    (newLinePos : Nat) :
    copyLine final first i newLinePos = copyLine final second i newLinePos := by
  unfold copyLine
  rw [same.ids,
    copyUntilMissing_congr (fun j below =>
      same.cells i listed j (by simpa [numberOfActiveNodes] using below))]

theorem acceptReport_eq
    (localMat final : TdmaMatrix)
    (otherIp : UInt8)
    (time : ℚ)
    (id : UInt8)
    {i : Nat}
    (listed : i < second.numberOfActiveNodes) :
    acceptReport localMat first final otherIp time id i =
      acceptReport localMat second final otherIp time id i := by
  unfold acceptReport
  simp only [same.ages i listed, same.copyLine_eq _ listed]

/-- The merge reads no more of a received matrix than its content. -/
theorem mergedMatrix_eq
    (mode : LinkQualityMode)
    (mine : TdmaMatrix)
    (otherIp : UInt8)
    (time : ℚ) :
    mergedMatrix mode mine first otherIp time =
      mergedMatrix mode mine second otherIp time := by
  unfold mergedMatrix acceptReports discoverIds
  simp only [same.ids]
  rw [forEachFrom_congr (fun final id i below =>
    same.acceptReport_eq _ final otherIp time id
      (by simpa [numberOfActiveNodes] using below))]

end TdmaMatrix.SameContent

/-!
## The bytes of a beacon
-/

@[simp]
theorem length_beaconHeader (sender : UInt8) (stamp : BeaconStamp) :
    (beaconHeader sender stamp).length = headerSize := by
  simp [beaconHeader, headerSize]

section Small

variable {mat : TdmaMatrix} (small : mat.numberOfActiveNodes ≤ 15)
include small

/-- A beacon of at most 15 nodes fits the buffer of the receiver. -/
theorem receivedBytes_beaconDatagram
    (sender : UInt8)
    (stamp : BeaconStamp)
    (age : Nat → UInt64) :
    receivedBytes (beaconDatagram sender stamp mat age) =
      beaconDatagram sender stamp mat age := by
  apply List.take_of_length_le
  have square : mat.numberOfActiveNodes * mat.numberOfActiveNodes ≤ 15 * 15 :=
    Nat.mul_le_mul small small
  simp only [beaconDatagram, List.length_append, length_beaconHeader,
    List.length_map, List.length_range, toNat_payloadLength small, headerSize,
    receiverBufferSize]
  omega

/-- What the receiver finds in its buffer. -/
theorem receiverBuffer_beaconDatagram
    (sender : UInt8)
    (stamp : BeaconStamp)
    (age : Nat → UInt64)
    (rest : Nat → UInt8) :
    receiverBuffer (beaconDatagram sender stamp mat age) rest =
      receivedPacket (fun p => (beaconHeader sender stamp).getD p 0)
        (serializeMatrix mat age) (payloadLength mat.nodeCount).toNat rest := by
  funext p
  unfold receiverBuffer receivedPacket
  rw [receivedBytes_beaconDatagram small, beaconDatagram]
  by_cases inHeader : p < headerSize
  · have below : p < (beaconHeader sender stamp).length := by
      rwa [length_beaconHeader]
    rw [if_pos inHeader]
    simp only [List.getD_eq_getElem?_getD, List.getElem?_append_left below,
      List.getElem?_eq_getElem below, Option.getD_some]
  · have past : (beaconHeader sender stamp).length ≤ p := by
      rw [length_beaconHeader]
      omega
    rw [if_neg inHeader, List.getD_eq_getElem?_getD,
      List.getElem?_append_right past, length_beaconHeader]
    by_cases inPayload : p < headerSize + (payloadLength mat.nodeCount).toNat
    · rw [if_pos inPayload, List.getElem?_map,
        List.getElem?_range (by omega)]
      rfl
    · rw [if_neg inPayload, List.getElem?_eq_none]
      · rfl
      · rw [List.length_map, List.length_range]
        omega

/-- The receiver takes a beacon for one of its sender. -/
theorem header_beaconDatagram
    (sender : UInt8)
    (stamp : BeaconStamp)
    (age : Nat → UInt64)
    (rest : Nat → UInt8) :
    receiverBuffer (beaconDatagram sender stamp mat age) rest 0 = matrixType ∧
      receiverBuffer (beaconDatagram sender stamp mat age) rest 1 = sender := by
  rw [receiverBuffer_beaconDatagram small]
  exact ⟨rfl, rfl⟩

/-- The receiver decodes the content of the matrix that was serialised. -/
theorem sameContent_beacon
    (sender : UInt8)
    (stamp : BeaconStamp)
    {value : UInt64 → ℚ}
    {age : Nat → UInt64}
    (stored : ∀ i, i < mat.numberOfActiveNodes → value (age i) = mat.age i)
    (rest : Nat → UInt8) :
    ((deserializeMatrix
        (receiverBuffer (beaconDatagram sender stamp mat age)
          rest)).toTdmaMatrix value).SameContent mat.beacon := by
  rw [receiverBuffer_beaconDatagram small]
  obtain ⟨-, sameIds, sameCells, sameAges⟩ :=
    decodes_of_small small age
      (fun p => (beaconHeader sender stamp).getD p 0) rest
  have listed :
      ∀ {i}, i < mat.beacon.numberOfActiveNodes →
        i < mat.numberOfActiveNodes := id
  exact
    { ids := sameIds
      cells := fun i iListed j jListed =>
        (sameCells i (listed iListed) j (listed jListed)).trans
          (if_pos ⟨listed iListed, listed jListed⟩).symm
      ages := fun i iListed =>
        ((congrArg value (sameAges i (listed iListed))).trans
          (stored i (listed iListed))).trans (if_pos (listed iListed)).symm }

/-- A delivered beacon makes the step of the network of matrices. -/
theorem receivePacket_beaconDatagram
    (mode : LinkQualityMode)
    (sender : UInt8)
    (stamp : BeaconStamp)
    {value : UInt64 → ℚ}
    {age : Nat → UInt64}
    (stored : ∀ i, i < mat.numberOfActiveNodes → value (age i) = mat.age i)
    (node : MeshNode)
    (rest : Nat → UInt8)
    (time : ℚ) :
    receivePacket mode value node
        (receiverBuffer (beaconDatagram sender stamp mat age) rest) time =
      nodeStep mode node (.matrix (.update mat.beacon sender time)) := by
  obtain ⟨isBeacon, ofSender⟩ := header_beaconDatagram small sender stamp age rest
  have same := sameContent_beacon small sender stamp stored rest
  unfold receivePacket
  rw [if_pos isBeacon, ofSender]
  simp only [nodeStep, matrixStep, same.mergedMatrix_eq]

end Small

/-!
## Runs
-/

/-- The datagram is the beacon, serialised by its sender. -/
def Carries
    (value : UInt64 → ℚ)
    (datagram : List UInt8)
    (beacon : SentBeacon) : Prop :=
  ∃ (mat : TdmaMatrix) (stamp : BeaconStamp) (age : Nat → UInt64),
    mat.numberOfActiveNodes ≤ 15 ∧
      (∀ i, i < mat.numberOfActiveNodes → value (age i) = mat.age i) ∧
      datagram = beaconDatagram beacon.sender stamp mat age ∧
      beacon.content = mat.beacon

/-- The network on the wire and the network of matrices stand at one point. -/
structure WireNetwork.Carries
    (value : UInt64 → ℚ)
    (wired : WireNetwork)
    (network : MeshNetwork) : Prop where
  nodes : wired.nodes = network.nodes
  inFlight :
    List.Forall₂ (RoutingMesh.Carries value) wired.datagrams network.sent
  clock : wired.clock = network.clock

namespace WireNetwork.Carries

variable {value : UInt64 → ℚ}
variable {wired : WireNetwork}
variable {network : MeshNetwork}

/-- A datagram in flight and the beacon it carries stand at one place. -/
theorem beaconAt
    (same : wired.Carries value network)
    {message : Nat}
    {datagram : List UInt8}
    (isDatagram : wired.datagrams[message]? = some datagram) :
    ∃ beacon,
      network.sent[message]? = some beacon ∧
        RoutingMesh.Carries value datagram beacon := by
  obtain ⟨sameLength, carried⟩ := List.forall₂_iff_get.mp same.inFlight
  obtain ⟨inBounds, rfl⟩ := List.getElem?_eq_some_iff.mp isDatagram
  exact ⟨_, List.getElem?_eq_getElem (sameLength ▸ inBounds),
    carried message inBounds (sameLength ▸ inBounds)⟩

/-- What a datagram says in its second byte is who sent the beacon. -/
theorem sender_eq
    {datagram : List UInt8}
    {beacon : SentBeacon}
    (carried : RoutingMesh.Carries value datagram beacon) :
    datagram.getD 1 0 = beacon.sender := by
  obtain ⟨mat, stamp, age, -, -, rfl, -⟩ := carried
  rfl

/-- A step that is allowed on the wire is allowed in the network of matrices. -/
theorem enabled
    {mode : LinkQualityMode}
    {numNodes : Nat}
    {action : WireAction}
    (same : wired.Carries value network)
    (allowed : WireEnabled mode value numNodes wired action) :
    NetworkEnabled numNodes network action.toNetworkAction := by
  cases action with
  | transmit sender removalTime time stamp age =>
      exact allowed.1
  | deliver message receiver time =>
      obtain ⟨inNetwork, pushed, datagram, isDatagram, notOwn⟩ := allowed
      obtain ⟨beacon, isBeacon, carried⟩ := same.beaconAt isDatagram
      exact
        ⟨inNetwork, same.nodes ▸ pushed, beacon, isBeacon,
          sender_eq carried ▸ notOwn⟩
  | thread node action =>
      exact ⟨allowed.1, allowed.2.1, same.nodes ▸ allowed.2.2⟩

/--
An allowed step on the wire makes the step of the network of matrices, as long
as no node lists more than 15.
-/
theorem step
    {mode : LinkQualityMode}
    {numNodes : Nat}
    {action : WireAction}
    (same : wired.Carries value network)
    (allowed : WireEnabled mode value numNodes wired action)
    (small :
      ∀ i, InNetwork numNodes i →
        ((networkStep mode network action.toNetworkAction).nodes
            i).matrix.myMatrix.numberOfActiveNodes ≤ 15) :
    (wireStep mode value wired action).Carries value
      (networkStep mode network action.toNetworkAction) := by
  cases action with
  | transmit sender removalTime time stamp age =>
      obtain ⟨inNetwork, stored⟩ := allowed
      have few := small sender inNetwork
      simp only [WireAction.toNetworkAction, networkStep,
        Function.update_self] at few
      simp only [serialised, same.nodes] at stored
      refine ⟨?_, ?_, rfl⟩
      · simp only [wireStep, networkStep, serialised,
          WireAction.toNetworkAction, same.nodes]
      · refine List.rel_append same.inFlight (.cons ?_ .nil)
        simp only [serialised, same.nodes]
        exact ⟨_, stamp, age, few, stored, rfl, rfl⟩
  | deliver message receiver time =>
      obtain ⟨-, -, datagram, isDatagram, -⟩ := allowed
      obtain ⟨beacon, isBeacon, carried⟩ := same.beaconAt isDatagram
      obtain ⟨mat, stamp, age, few, stored, rfl, content⟩ := carried
      simp only [wireStep, networkStep, WireAction.toNetworkAction,
        Option.mem_def.mp isDatagram, isBeacon]
      refine ⟨?_, same.inFlight, rfl⟩
      rw [receivePacket_beaconDatagram few mode beacon.sender stamp stored,
        same.nodes, content]
  | thread node action =>
      refine ⟨?_, same.inFlight, ?_⟩
      · simp only [wireStep, networkStep, WireAction.toNetworkAction,
          same.nodes]
      · simp only [wireStep, networkStep, WireAction.toNetworkAction,
          same.clock]

end WireNetwork.Carries

/--
Up to 15 nodes every run on the wire is a run of the network of matrices: the
same steps are allowed there, and they lead to the same nodes, whatever the
headers say, the doubles stand for and the buffers held before.
-/
theorem wireNetwork_refines
    {mode : LinkQualityMode}
    (value : UInt64 → ℚ)
    {numNodes : Nat}
    (small : numNodes ≤ 15)
    {boot : UInt8 → ℚ}
    {buffers : UInt8 → Nat → UInt8}
    {clock : ℚ}
    {actions : List WireAction}
    {wired : WireNetwork}
    (run :
      StepRun.Run (wireStep mode value) (WireEnabled mode value numNodes)
        (wireStart boot buffers clock) actions wired) :
    ∃ network,
      StepRun.Run (networkStep mode) (NetworkEnabled numNodes)
          (networkStart boot clock) (actions.map WireAction.toNetworkAction)
          network ∧
        network.nodes = wired.nodes ∧
        network.clock = wired.clock ∧
        List.Forall₂ (Carries value) wired.datagrams network.sent := by
  obtain ⟨network, networkRun, same⟩ :=
    run.simulates (WireNetwork.Carries value) WireAction.toNetworkAction
      { nodes := rfl
        inFlight := .nil
        clock := rfl }
      (fun {wired network action} same reachable allowed => by
        have networkAllowed := same.enabled allowed
        refine ⟨networkAllowed, same.step allowed fun i inNetwork => ?_⟩
        -- A reachable node lists nodes of the network only, each once.
        obtain ⟨steps, earlier⟩ := reachable
        have grounded :=
          grounded_of_reachable
            (show StepRun.Reachable _ _ (networkStart boot clock) _ from
              ⟨_, earlier.next _ networkAllowed⟩)
        exact
          (length_le_of_inNetwork (grounded.listed i).distinct
            (grounded.inhabited.nodes i inNetwork)).trans small)
  exact ⟨network, networkRun, same.nodes.symm, same.clock.symm, same.inFlight⟩

/-- The double of a whole second, and zero. -/
def secondValue (bits : UInt64) : ℚ :=
  if bits = 0x3FF0000000000000 then 1 else 0

/--
Node 1 hears node 2 over an old packet in its buffer, and answers one second
later with the ages 0 and 1.
-/
def hearsAndAnswers : List WireAction :=
  [.transmit 2 1 1 ⟨0, 0, 0, 100⟩ fun _ => 0,
    .deliver 0 1 1,
    .thread 1 .pushEvent,
    .transmit 1 2 2 ⟨7, 1, 100, 200⟩ fun i =>
      if i = 1 then 0x3FF0000000000000 else 0,
    .deliver 1 2 2]

/-- The two nodes go through the same steps in the network of matrices. -/
theorem wireNetwork_refines_hearsAndAnswers :
    ∃ network,
      StepRun.Run (networkStep .test) (NetworkEnabled 2)
          (networkStart (fun _ => 0) 0)
          (hearsAndAnswers.map WireAction.toNetworkAction) network ∧
        network.nodes =
          (hearsAndAnswers.foldl (wireStep .test secondValue)
            (wireStart (fun _ => 0) (fun _ _ => 0xAA) 0)).nodes := by
  obtain ⟨network, run, same, -, -⟩ :=
    wireNetwork_refines secondValue (by decide : 2 ≤ 15)
      (StepRun.Run.of_checkRun
        (by decide +kernel :
          StepRun.checkRun (wireStep .test secondValue)
            (WireEnabled .test secondValue 2)
            (wireStart (fun _ => 0) (fun _ _ => 0xAA) 0) hearsAndAnswers =
              true))
  exact ⟨network, run, same⟩

end RoutingMesh
