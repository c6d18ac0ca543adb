import Mathlib.Data.List.Basic
import RoutingMesh.Matrix
import RoutingMesh.StepRun

/-!
# The order of transmitted packets

Model of `tx_queue.c`, of the part of `tun_reader_loop` that fills the queue,
and of the drain loop of `tx_loop`.  A packet that does not fit in the slot
any more is pushed like a new one, so it goes behind everything that waits;
the order for a destination survives when nothing for it waits then.
-/

namespace RoutingMesh

/-- `TX_QUEUE_CAPACITY`. -/
def txQueueCapacity : Nat := 64

/-- `TX_QUEUE_MAX_PKT_SIZE`. -/
def txQueueMaxPktSize : Nat := 2048

/-- `MSG_DATA_HDR_WIRE`. -/
def msgDataHdrWire : Nat := 6

/-- `MAX_BYTES_SLOT`: 1500 bytes for each 500 us of the useful 45 ms. -/
def maxBytesSlot : Nat := 135000

/-- `tx_pkt_t`; the length is that of the data. -/
structure TxPacket where
  data : List UInt8
  dstId : UInt8
  deriving DecidableEq, Repr

/--
`tun_get_dst_node`: the last byte of the destination address, and 0 for what
is no IPv4 packet.
-/
def tunGetDstNode (ipPkt : List UInt8) : UInt8 :=
  if ipPkt.length < 20 then
    0
  else if ipPkt.getD 0 0 >>> 4 ≠ 4 then
    0
  else
    ipPkt.getD 19 0

/-- A packet as `tun_reader_loop` reads it. -/
def TxPacket.ofTun (data : List UInt8) : TxPacket where
  data := data
  dstId := tunGetDstNode data

/-- The oldest packet makes room when the queue is full. -/
def makeRoom (queue : List TxPacket) : List TxPacket :=
  if queue.length ≥ txQueueCapacity then queue.tail else queue

/-- `tx_queue_push`. -/
def txQueuePush
    (queue : List TxPacket)
    (pkt : TxPacket) : List TxPacket :=
  if pkt.data.length = 0 ∨ pkt.data.length > txQueueMaxPktSize then
    queue
  else
    makeRoom queue ++ [pkt]

/-- A data frame that was given to `send`. -/
structure DataFrame where
  seqNum : UInt32
  msgId : UInt16
  packet : TxPacket
  deriving DecidableEq, Repr

/--
Where the drain loop stands, with the bytes sent in this slot: between slots,
before the next `tx_queue_pop`, or with a popped packet in hand.
-/
inductive TxPhase where
  | outside
  | draining (bytesSent : Nat)
  | holding (pkt : TxPacket) (bytesSent : Nat)
  deriving DecidableEq, Repr

/-- The queue, the transmitter, what it handed to TCP, and what the TUN gave. -/
structure TxState where
  queue : List TxPacket
  phase : TxPhase
  txCounter : UInt32
  dataMsgId : UInt16
  handed : List DataFrame
  readPackets : List TxPacket
  deriving DecidableEq, Repr

/-- Before the threads run. -/
def txStart : TxState where
  queue := []
  phase := .outside
  txCounter := 0
  dataMsgId := 0
  handed := []
  readPackets := []

/-- What becomes of a packet that has a route and fits in the budget. -/
inductive SendOutcome where
  | unknownAddress
  | noConnection
  | failed
  | sent (bytes : Nat)
  deriving DecidableEq, Repr

/--
The steps of the two threads: the TUN thread reads a packet, with the verdict
of `sync_data_plane_ready`; the transmitter starts a slot, pops, and handles
the popped packet, with the clock test, the next hop and the outcome.
-/
inductive TxAction where
  | tunRead (data : List UInt8) (ready : Bool)
  | beginSlot
  | pop
  | handle (slotEnded : Bool) (nextHop : UInt8) (outcome : SendOutcome)
  deriving DecidableEq, Repr

/-- The packet would exceed the bytes of the slot. -/
def overBudget (bytesSent : Nat) (pkt : TxPacket) : Bool :=
  decide
    (bytesSent + headerSize + msgDataHdrWire + pkt.data.length > maxBytesSlot)

/-- The packet in hand goes back to the queue and the slot ends. -/
def TxState.putBack (state : TxState) (pkt : TxPacket) : TxState :=
  { state with
    queue := txQueuePush state.queue pkt
    phase := .outside }

/-- The body of the drain loop, for a popped packet. -/
def handlePacket
    (state : TxState)
    (pkt : TxPacket)
    (bytesSent : Nat)
    (slotEnded : Bool)
    (nextHop : UInt8)
    (outcome : SendOutcome) : TxState :=
  if slotEnded then
    state.putBack pkt
  else if nextHop = 0 then
    { state with phase := .draining bytesSent }
  else
    -- The counters advance before the budget is checked.
    let numbered :=
      { state with
        txCounter := state.txCounter + 1
        dataMsgId := state.dataMsgId + 1 }
    if overBudget bytesSent pkt then
      numbered.putBack pkt
    else
      match outcome with
      | .sent bytes =>
          { numbered with
            phase := .draining (bytesSent + bytes)
            handed :=
              state.handed ++
                [{ seqNum := state.txCounter
                   msgId := state.dataMsgId
                   packet := pkt }] }
      | _ => { numbered with phase := .draining bytesSent }

/-- One step; a step whose thread is elsewhere does nothing. -/
def txStep
    (nodeId : UInt8)
    (state : TxState) : TxAction → TxState
  | .tunRead data ready =>
      let pkt := TxPacket.ofTun data
      { state with
        queue :=
          if pkt.dstId ≠ 0 ∧ pkt.dstId ≠ nodeId ∧ ready = true then
            txQueuePush state.queue pkt
          else
            state.queue
        readPackets := state.readPackets ++ [pkt] }
  | .beginSlot =>
      match state.phase with
      | .outside =>
          { state with
            phase := .draining 0
            txCounter := state.txCounter + 1 }
      | _ => state
  | .pop =>
      match state.phase, state.queue with
      | .draining bytesSent, pkt :: rest =>
          { state with
            queue := rest
            phase := .holding pkt bytesSent }
      | .draining _, [] => { state with phase := .outside }
      | _, _ => state
  | .handle slotEnded nextHop outcome =>
      match state.phase with
      | .holding pkt bytesSent =>
          handlePacket state pkt bytesSent slotEnded nextHop outcome
      | _ => state

/-- A step is one that its thread can take next. -/
def TxEnabled (state : TxState) : TxAction → Prop
  | .tunRead _ _ => True
  | .beginSlot => state.phase = .outside
  | .pop =>
      match state.phase with
      | .draining _ => True
      | _ => False
  | .handle _ _ _ =>
      match state.phase with
      | .holding _ _ => True
      | _ => False

/-- One of the two breaks puts the packet back. -/
def putsBack
    (pkt : TxPacket)
    (bytesSent : Nat)
    (slotEnded : Bool)
    (nextHop : UInt8) : Bool :=
  slotEnded || (nextHop != 0 && overBudget bytesSent pkt)

/-- When a packet is put back, no other packet for its destination waits. -/
def PutsBackAlone (state : TxState) : TxAction → Prop
  | .handle slotEnded nextHop _ =>
      match state.phase with
      | .holding pkt bytesSent =>
          putsBack pkt bytesSent slotEnded nextHop = true →
            ∀ waiting ∈ makeRoom state.queue, waiting.dstId ≠ pkt.dstId
      | _ => True
  | _ => True

instance (state : TxState) : DecidablePred (TxEnabled state)
  | .tunRead _ _ => .isTrue trivial
  | .beginSlot => inferInstanceAs (Decidable (state.phase = .outside))
  | .pop =>
      match state with
      | { phase := .outside, .. } => .isFalse id
      | { phase := .draining _, .. } => .isTrue trivial
      | { phase := .holding _ _, .. } => .isFalse id
  | .handle _ _ _ =>
      match state with
      | { phase := .outside, .. } => .isFalse id
      | { phase := .draining _, .. } => .isFalse id
      | { phase := .holding _ _, .. } => .isTrue trivial

instance (state : TxState) : DecidablePred (PutsBackAlone state)
  | .tunRead _ _ => .isTrue trivial
  | .beginSlot => .isTrue trivial
  | .pop => .isTrue trivial
  | .handle slotEnded nextHop _ =>
      match state with
      | { phase := .outside, .. } => .isTrue trivial
      | { phase := .draining _, .. } => .isTrue trivial
      | { queue := queue, phase := .holding pkt bytesSent, .. } =>
          inferInstanceAs
            (Decidable
              (putsBack pkt bytesSent slotEnded nextHop = true →
                ∀ waiting ∈ makeRoom queue, waiting.dstId ≠ pkt.dstId))

/-!
## The pipeline
-/

/-- The packet in hand, if there is one. -/
def TxPhase.inHand : TxPhase → List TxPacket
  | .holding pkt _ => [pkt]
  | _ => []

/-- What was handed to TCP, then the packet in hand, then what waits. -/
def TxState.pipeline (state : TxState) : List TxPacket :=
  state.handed.map DataFrame.packet ++ state.phase.inHand ++ state.queue

/-- The packets for one destination, in order. -/
def forDestination
    (destination : UInt8)
    (packets : List TxPacket) : List TxPacket :=
  packets.filter fun pkt => pkt.dstId == destination

/-- For every destination the pipeline keeps the order of the TUN. -/
def TxState.InOrder (state : TxState) : Prop :=
  ∀ destination,
    (forDestination destination state.pipeline).Sublist
      (forDestination destination state.readPackets)

/-- A step that only takes packets out of the pipeline keeps the order. -/
theorem TxState.InOrder.of_sublist
    {state next : TxState}
    (inOrder : state.InOrder)
    (shrinks : next.pipeline.Sublist state.pipeline)
    (sameRead : next.readPackets = state.readPackets) :
    next.InOrder := by
  intro destination
  rw [sameRead]
  exact (shrinks.filter _).trans (inOrder destination)

theorem sublist_makeRoom (queue : List TxPacket) :
    (makeRoom queue).Sublist queue := by
  unfold makeRoom
  split
  · exact List.tail_sublist queue
  · exact List.Sublist.refl queue

/-- A push puts at most the packet behind the queue. -/
theorem sublist_txQueuePush
    (queue : List TxPacket)
    (pkt : TxPacket) :
    (txQueuePush queue pkt).Sublist (queue ++ [pkt]) := by
  unfold txQueuePush
  split
  · exact List.sublist_append_left queue [pkt]
  · exact (sublist_makeRoom queue).append (List.Sublist.refl [pkt])

/-- A packet read from the TUN goes behind everything in the pipeline. -/
theorem TxState.InOrder.tunRead
    {nodeId : UInt8}
    {state : TxState}
    (inOrder : state.InOrder)
    (data : List UInt8)
    (ready : Bool) :
    (txStep nodeId state (.tunRead data ready)).InOrder := by
  have grows :
      (txStep nodeId state (.tunRead data ready)).pipeline.Sublist
        (state.pipeline ++ [TxPacket.ofTun data]) := by
    simp only [txStep, pipeline]
    rw [List.append_assoc _ state.queue]
    apply (List.Sublist.refl _).append
    split
    · exact sublist_txQueuePush state.queue (TxPacket.ofTun data)
    · exact List.sublist_append_left state.queue [TxPacket.ofTun data]
  intro destination
  calc
    List.Sublist
        (forDestination destination
          (txStep nodeId state (.tunRead data ready)).pipeline)
        (forDestination destination (state.pipeline ++ [TxPacket.ofTun data])) :=
      grows.filter _
    List.Sublist _
        (forDestination destination (state.readPackets ++ [TxPacket.ofTun data])) := by
      unfold forDestination
      rw [List.filter_append, List.filter_append]
      exact (inOrder destination).append (List.Sublist.refl _)

/-- A packet put back keeps its place when nothing for its destination waits. -/
theorem forDestination_txQueuePush
    {queue : List TxPacket}
    {pkt : TxPacket}
    (alone : ∀ waiting ∈ makeRoom queue, waiting.dstId ≠ pkt.dstId)
    (destination : UInt8) :
    (forDestination destination (txQueuePush queue pkt)).Sublist
      (forDestination destination (pkt :: queue)) := by
  unfold txQueuePush
  split
  · exact (List.sublist_cons_self pkt queue).filter _
  · by_cases isDestination : pkt.dstId = destination
    · have noneWaits : forDestination destination (makeRoom queue) = [] := by
        apply List.filter_eq_nil_iff.mpr
        intro waiting waits
        rw [← isDestination, beq_iff_eq]
        exact alone waiting waits
      have onlyPacket :
          forDestination destination (makeRoom queue ++ [pkt]) =
            forDestination destination [pkt] := by
        unfold forDestination at noneWaits ⊢
        rw [List.filter_append, noneWaits, List.nil_append]
      rw [onlyPacket]
      exact ((List.nil_sublist queue).cons_cons pkt).filter _
    · have notListed : forDestination destination [pkt] = [] := by
        simp [forDestination, isDestination]
      have onlyQueue :
          forDestination destination (makeRoom queue ++ [pkt]) =
            forDestination destination (makeRoom queue) := by
        unfold forDestination at notListed ⊢
        rw [List.filter_append, notListed, List.append_nil]
      rw [onlyQueue]
      exact ((sublist_makeRoom queue).trans
        (List.sublist_cons_self pkt queue)).filter _

/-- Putting the packet in hand back keeps the order when it goes back alone. -/
theorem TxState.InOrder.putBack
    {state numbered : TxState}
    (inOrder : state.InOrder)
    {pkt : TxPacket}
    {bytesSent : Nat}
    (inHand : state.phase = .holding pkt bytesSent)
    (alone : ∀ waiting ∈ makeRoom state.queue, waiting.dstId ≠ pkt.dstId)
    (sameQueue : numbered.queue = state.queue)
    (sameHanded : numbered.handed = state.handed)
    (sameRead : numbered.readPackets = state.readPackets) :
    (numbered.putBack pkt).InOrder := by
  intro destination
  have shrinks :
      (forDestination destination (numbered.putBack pkt).pipeline).Sublist
        (forDestination destination state.pipeline) := by
    simp only [pipeline, TxState.putBack, TxPhase.inHand, inHand,
      sameQueue, sameHanded, List.append_nil, List.append_assoc,
      List.singleton_append]
    unfold forDestination
    rw [List.filter_append, List.filter_append]
    exact (List.Sublist.refl _).append
      (forDestination_txQueuePush alone destination)
  have sameTun :
      (numbered.putBack pkt).readPackets = state.readPackets := sameRead
  rw [sameTun]
  exact shrinks.trans (inOrder destination)

/-- Handling a popped packet keeps the order when it only goes back alone. -/
theorem TxState.InOrder.handlePacket
    {state : TxState}
    (inOrder : state.InOrder)
    {pkt : TxPacket}
    {bytesSent : Nat}
    (inHand : state.phase = .holding pkt bytesSent)
    {slotEnded : Bool}
    {nextHop : UInt8}
    (outcome : SendOutcome)
    (alone :
      putsBack pkt bytesSent slotEnded nextHop = true →
        ∀ waiting ∈ makeRoom state.queue, waiting.dstId ≠ pkt.dstId) :
    (handlePacket state pkt bytesSent slotEnded nextHop outcome).InOrder := by
  unfold RoutingMesh.handlePacket
  split
  · rename_i ended
    exact inOrder.putBack inHand (alone (by simp [putsBack, ended])) rfl rfl
      rfl
  · split
    · -- Without a route the packet is discarded.
      exact inOrder.of_sublist
        (by simp [pipeline, TxPhase.inHand]) rfl
    · rename_i _ routed
      dsimp only
      split
      · rename_i exceeds
        exact inOrder.putBack inHand
          (alone (by simp [putsBack, routed, exceeds])) rfl rfl rfl
      · cases outcome with
        | sent bytes =>
            exact inOrder.of_sublist
              (by simp [pipeline, inHand, TxPhase.inHand]) rfl
        | unknownAddress =>
            exact inOrder.of_sublist
              (by simp [pipeline, TxPhase.inHand]) rfl
        | noConnection =>
            exact inOrder.of_sublist
              (by simp [pipeline, TxPhase.inHand]) rfl
        | failed =>
            exact inOrder.of_sublist
              (by simp [pipeline, TxPhase.inHand]) rfl

/-- Every step that puts packets back alone keeps the order. -/
theorem TxState.InOrder.step
    {nodeId : UInt8}
    {state : TxState}
    {action : TxAction}
    (inOrder : state.InOrder)
    (alone : PutsBackAlone state action) :
    (txStep nodeId state action).InOrder := by
  cases action with
  | tunRead data ready =>
      exact inOrder.tunRead data ready
  | beginSlot =>
      simp only [txStep]
      split
      · rename_i between
        exact inOrder.of_sublist
          (by simp [pipeline, between, TxPhase.inHand]) rfl
      · exact inOrder
  | pop =>
      simp only [txStep]
      split
      · rename_i bytesSent pkt rest drains waits
        exact inOrder.of_sublist
          (by simp [pipeline, drains, waits, TxPhase.inHand]) rfl
      · rename_i bytesSent drains empty
        exact inOrder.of_sublist
          (by simp [pipeline, drains, empty, TxPhase.inHand]) rfl
      · exact inOrder
  | handle slotEnded nextHop outcome =>
      simp only [txStep]
      split
      · rename_i pkt bytesSent inHand
        simp only [PutsBackAlone, inHand] at alone
        exact inOrder.handlePacket inHand outcome alone
      · exact inOrder

/--
In every run that puts packets back only when nothing for their destination
waits, the packets handed to TCP for a destination are a subsequence of those
read from the TUN for it.
-/
theorem transmit_preserves_order
    (nodeId : UInt8)
    {state : TxState}
    (reachable :
      StepRun.Reachable (txStep nodeId)
        (fun state action =>
          TxEnabled state action ∧ PutsBackAlone state action)
        txStart state)
    (destination : UInt8) :
    (forDestination destination
        (state.handed.map DataFrame.packet)).Sublist
      (forDestination destination state.readPackets) := by
  have inOrder : state.InOrder :=
    reachable.invariant TxState.InOrder
      (fun _ => List.Sublist.refl _)
      (fun inOrder allowed => inOrder.step allowed.2)
  have handedFirst :
      (state.handed.map DataFrame.packet).Sublist state.pipeline := by
    unfold TxState.pipeline
    rw [List.append_assoc]
    exact List.sublist_append_left _ _
  exact (handedFirst.filter _).trans (inOrder destination)

/-- A header-only packet from `10.0.0.1` to `10.0.0.dst`. -/
def ipPacket (identification dst : UInt8) : List UInt8 :=
  [0x45, 0, 0, 20, 0, identification, 0, 0, 64, 17, 0, 0,
    10, 0, 0, 1, 10, 0, 0, dst]

/-- The packet put back goes behind one for another destination. -/
def putsBackBehindOther : List TxAction :=
  [.tunRead (ipPacket 1 2) true, .tunRead (ipPacket 1 3) true,
    .beginSlot, .pop, .handle true 2 .failed,
    .tunRead (ipPacket 2 2) true,
    .beginSlot, .pop, .handle false 3 (.sent 48),
    .pop, .handle false 2 (.sent 48),
    .pop, .handle false 2 (.sent 48)]

/-- Node 2 then gets its two packets in order. -/
theorem transmit_preserves_order_putsBackBehindOther :
    (forDestination 2
        ((putsBackBehindOther.foldl (txStep 1) txStart).handed.map
          DataFrame.packet)).Sublist
      (forDestination 2
        (putsBackBehindOther.foldl (txStep 1) txStart).readPackets) :=
  transmit_preserves_order 1
    ⟨putsBackBehindOther, StepRun.Run.of_checkRun (by decide +kernel)⟩ 2

/-- The packet put back goes behind the next one for its own destination. -/
def putsBackBehindNext : List TxAction :=
  [.tunRead (ipPacket 1 2) true, .tunRead (ipPacket 2 2) true,
    .beginSlot, .pop, .handle true 2 .failed,
    .beginSlot, .pop, .handle false 2 (.sent 48),
    .pop, .handle false 2 (.sent 48)]

/-- Node 2 then gets the second packet first. -/
theorem transmit_reorders_putsBackBehindNext :
    ¬ ∀ state,
      StepRun.Reachable (txStep 1) TxEnabled txStart state →
      ∀ destination,
        (forDestination destination
            (state.handed.map DataFrame.packet)).Sublist
          (forDestination destination state.readPackets) := by
  intro always
  have inOrder :=
    always (putsBackBehindNext.foldl (txStep 1) txStart)
      ⟨putsBackBehindNext, StepRun.Run.of_checkRun (by decide +kernel)⟩ 2
  revert inOrder
  decide +kernel

end RoutingMesh
