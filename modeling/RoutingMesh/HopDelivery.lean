import RoutingMesh.ChannelLog
import RoutingMesh.FramedConnection
import RoutingMesh.TransmitLedger

/-!
# A packet crosses a hop at most once

The transmitter of a node with all connections that it ever has, to any peers
and some of them at the same time.  A packet that is handed to TCP goes on one
connection, whatever becomes of it, and is never handed again.  So the packets
that the neighbours write to their TUNs are, together, no more than those that
this node read from its own, and on each connection they keep their order.
-/

namespace RoutingMesh

open ChannelLog

/-! ## A node with its connections -/

/--
The transmitter, the connections that were made so far, and for the record the
frames that were handed to TCP, each with its connection.
-/
structure HopState where
  tx : TxState
  connections : Nat → Option Connection
  carried : List (Nat × StampedFrame)

/-- Before the threads run. -/
def hopStart : HopState where
  tx := txStart
  connections := fun _ => none
  carried := []

/--
The steps: a new connection, to whatever the receiving thread left in its
buffer; a step of the transmitter that hands nothing to TCP; a packet that is
handed to a connection; and a failed send or a read on a connection.
-/
inductive HopAction where
  | connect (id : Nat) (buffer : Nat → UInt8) (errnoAgain : Bool)
  | transmit (action : TxAction)
  | hand (id : Nat) (nextHop : UInt8) (timestamp : UInt64) (count : Nat)
  | sendFails (id : Nat)
  | receive (id : Nat) (result : RecvResult) (tunError : Option Bool)

/-- The frame that `tx_loop` makes of the packet in hand. -/
def TxState.nextFrame
    (tx : TxState)
    (pkt : TxPacket)
    (timestamp : UInt64) : StampedFrame where
  frame :=
    { seqNum := tx.txCounter
      msgId := tx.dataMsgId
      packet := pkt }
  timestamp := timestamp

/-- A step on one of the connections. -/
def HopState.onConnection
    (nodeId : UInt8)
    (tunFd : Nat → Int)
    (state : HopState)
    (id : Nat)
    (action : ConnAction) : HopState :=
  { state with
    connections :=
      Function.update state.connections id
        ((state.connections id).map fun conn =>
          connStep nodeId (tunFd id) conn action) }

/-- One step of the node `nodeId` or of a neighbour. -/
def hopStep
    (nodeId : UInt8)
    (tunFd : Nat → Int)
    (state : HopState) : HopAction → HopState
  | .connect id buffer errnoAgain =>
      { state with
        connections :=
          Function.update state.connections id
            (some (connectionStart buffer errnoAgain)) }
  | .transmit action => { state with tx := txStep nodeId state.tx action }
  | .hand id nextHop timestamp count =>
      match state.tx.phase with
      | .holding pkt _ =>
          let stamped := state.tx.nextFrame pkt timestamp
          { state.onConnection nodeId tunFd id (.send stamped count) with
            tx := txStep nodeId state.tx (.handle false nextHop (.sent count))
            carried := state.carried ++ [(id, stamped)] }
      | _ => state
  | .sendFails id => state.onConnection nodeId tunFd id .sendFails
  | .receive id result tunError =>
      state.onConnection nodeId tunFd id (.recv result tunError)

/-- What can happen on a connection, with the framing kept. -/
def ConnAllowed
    (nodeId : UInt8)
    (state : HopState)
    (id : Nat)
    (action : ConnAction) : Prop :=
  ∃ conn ∈ state.connections id,
    ConnEnabled nodeId conn action ∧ KeepsFraming conn action

/-- The step of the transmitter hands nothing to TCP. -/
def HandsNothing : TxAction → Prop
  | .handle _ _ (.sent _) => False
  | _ => True

/-- A step that can be taken; every connection is made once. -/
def HopEnabled (nodeId : UInt8) (state : HopState) : HopAction → Prop
  | .connect id _ _ => state.connections id = none
  | .transmit action => TxEnabled state.tx action ∧ HandsNothing action
  | .hand id nextHop timestamp count =>
      match state.tx.phase with
      | .holding pkt bytesSent =>
          nextHop ≠ 0 ∧ overBudget bytesSent pkt = false ∧
            ConnAllowed nodeId state id
              (.send (state.tx.nextFrame pkt timestamp) count)
      | _ => False
  | .sendFails id => ConnAllowed nodeId state id .sendFails
  | .receive id result tunError =>
      ConnAllowed nodeId state id (.recv result tunError)

instance (nodeId : UInt8) (state : HopState) (id : Nat) (action : ConnAction) :
    Decidable (ConnAllowed nodeId state id action) :=
  inferInstanceAs (Decidable (∃ conn ∈ state.connections id, _))

instance : DecidablePred HandsNothing
  | .handle _ _ (.sent _) => .isFalse id
  | .handle _ _ .unknownAddress => .isTrue trivial
  | .handle _ _ .noConnection => .isTrue trivial
  | .handle _ _ .failed => .isTrue trivial
  | .tunRead _ _ => .isTrue trivial
  | .beginSlot => .isTrue trivial
  | .pop => .isTrue trivial

instance (nodeId : UInt8) (state : HopState) :
    DecidablePred (HopEnabled nodeId state)
  | .connect id _ _ =>
      match isConn : state.connections id with
      | none => .isTrue isConn
      | some _ => .isFalse fun isNew => by
          rw [HopEnabled, isConn] at isNew
          cases isNew
  | .transmit _ => inferInstanceAs (Decidable (_ ∧ _))
  | .hand id nextHop timestamp count =>
      match state with
      | { tx := { phase := .outside, .. }, .. } => .isFalse fun held => held
      | { tx := { phase := .draining _, .. }, .. } => .isFalse fun held => held
      | { tx := { phase := .holding _ _, .. }, .. } =>
          inferInstanceAs (Decidable (_ ∧ _ ∧ ConnAllowed _ _ _ _))
  | .sendFails id =>
      inferInstanceAs (Decidable (ConnAllowed nodeId state id .sendFails))
  | .receive id result tunError =>
      inferInstanceAs
        (Decidable (ConnAllowed nodeId state id (.recv result tunError)))

/-- What the receiver of a connection wrote to its TUN. -/
def HopState.writtenOn (state : HopState) (id : Nat) : List (List UInt8) :=
  match state.connections id with
  | none => []
  | some conn => conn.rx.written

/-! ## The invariant -/

/-- The connections are framed and carry what was handed to them. -/
structure HopState.Consistent
    (nodeId : UInt8)
    (state : HopState) : Prop where
  ledger : ∃ losses, Ledger nodeId losses state.tx
  handed : state.carried.map (fun entry => entry.2.frame) = state.tx.handed
  framed : ∀ id, ∀ conn ∈ state.connections id, Framed nodeId conn
  sent :
    ∀ id, ∀ conn ∈ state.connections id,
      conn.sent = onChannel state.carried id
  unused : ∀ id, state.connections id = none → onChannel state.carried id = []

section

variable {nodeId : UInt8}
variable {tunFd : Nat → Int}
variable {state : HopState}

theorem consistent_hopStart : hopStart.Consistent nodeId where
  ledger := ⟨[], ledger_txStart nodeId⟩
  handed := rfl
  framed := by simp [hopStart]
  sent := by simp [hopStart]
  unused _ _ := rfl

/-- A step that hands nothing leaves the frames as they are. -/
theorem handed_txStep
    {tx : TxState}
    {action : TxAction}
    (handsNothing : HandsNothing action) :
    (txStep nodeId tx action).handed = tx.handed := by
  cases action with
  | tunRead data ready =>
      rfl
  | beginSlot =>
      simp only [txStep]
      split <;> rfl
  | pop =>
      simp only [txStep]
      split <;> rfl
  | handle slotEnded nextHop outcome =>
      simp only [txStep]
      split
      · unfold handlePacket
        split
        · rfl
        · split
          · rfl
          · dsimp only
            split
            · rfl
            · cases outcome with
              | sent bytes => exact handsNothing.elim
              | unknownAddress => rfl
              | noConnection => rfl
              | failed => rfl
      · rfl

/-- The step that hands the packet in hand to TCP. -/
theorem handed_handle
    {tx : TxState}
    {pkt : TxPacket}
    {bytesSent : Nat}
    (inHand : tx.phase = .holding pkt bytesSent)
    {nextHop : UInt8}
    (routed : nextHop ≠ 0)
    (fits : overBudget bytesSent pkt = false)
    (timestamp : UInt64)
    (count : Nat) :
    (txStep nodeId tx (.handle false nextHop (.sent count))).handed =
      tx.handed ++ [(tx.nextFrame pkt timestamp).frame] := by
  simp [txStep, inHand, handlePacket, routed, fits, TxState.nextFrame]

/-- A new connection. -/
theorem HopState.Consistent.connect
    (consistent : state.Consistent nodeId)
    {id : Nat}
    (isNew : state.connections id = none)
    (buffer : Nat → UInt8)
    (errnoAgain : Bool) :
    (hopStep nodeId tunFd state
      (.connect id buffer errnoAgain)).Consistent nodeId where
  ledger := consistent.ledger
  handed := consistent.handed
  framed other conn isConn := by
    simp only [hopStep, Function.update_apply] at isConn
    split at isConn
    · obtain rfl := Option.some.inj isConn
      exact framed_connectionStart buffer errnoAgain
    · exact consistent.framed other conn isConn
  sent other conn isConn := by
    simp only [hopStep, Function.update_apply] at isConn
    split at isConn
    · rename_i isNewOne
      obtain rfl := Option.some.inj isConn
      rw [isNewOne]
      exact (consistent.unused id isNew).symm
    · exact consistent.sent other conn isConn
  unused other isNone := by
    simp only [hopStep, Function.update_apply] at isNone
    split at isNone
    · cases isNone
    · exact consistent.unused other isNone

/-- A step on a connection on which nothing is sent. -/
theorem HopState.Consistent.onConnection
    (consistent : state.Consistent nodeId)
    {id : Nat}
    {action : ConnAction}
    (allowed : ConnAllowed nodeId state id action)
    (sendsNothing :
      ∀ conn : Connection,
        (connStep nodeId (tunFd id) conn action).sent = conn.sent) :
    (state.onConnection nodeId tunFd id action).Consistent nodeId := by
  obtain ⟨conn, isConn, isEnabled, keeps⟩ := allowed
  refine ⟨consistent.ledger, consistent.handed, ?_, ?_, ?_⟩
  · intro other next isNext
    simp only [HopState.onConnection, Function.update_apply] at isNext
    split at isNext
    · rw [Option.mem_def.mp isConn] at isNext
      obtain rfl := Option.some.inj isNext
      exact (consistent.framed id conn isConn).step isEnabled keeps
    · exact consistent.framed other next isNext
  · intro other next isNext
    simp only [HopState.onConnection, Function.update_apply] at isNext
    split at isNext
    · rename_i isChannel
      rw [Option.mem_def.mp isConn] at isNext
      obtain rfl := Option.some.inj isNext
      rw [sendsNothing, isChannel]
      exact consistent.sent id conn isConn
    · exact consistent.sent other next isNext
  · intro other isNone
    simp only [HopState.onConnection, Function.update_apply] at isNone
    split at isNone
    · rw [Option.mem_def.mp isConn] at isNone
      cases isNone
    · exact consistent.unused other isNone

/-- The packet in hand goes on one connection. -/
theorem HopState.Consistent.hand
    (consistent : state.Consistent nodeId)
    {pkt : TxPacket}
    {bytesSent : Nat}
    (inHand : state.tx.phase = .holding pkt bytesSent)
    {id : Nat}
    {nextHop : UInt8}
    (routed : nextHop ≠ 0)
    (fits : overBudget bytesSent pkt = false)
    {timestamp : UInt64}
    {count : Nat}
    (allowed :
      ConnAllowed nodeId state id
        (.send (state.tx.nextFrame pkt timestamp) count)) :
    (hopStep nodeId tunFd state
      (.hand id nextHop timestamp count)).Consistent nodeId := by
  obtain ⟨conn, isConn, isEnabled, keeps⟩ := allowed
  obtain ⟨losses, ledger⟩ := consistent.ledger
  simp only [hopStep, inHand]
  refine ⟨⟨_, ledger.step (.handle false nextHop (.sent count))⟩, ?_, ?_, ?_,
    ?_⟩
  · rw [handed_handle inHand routed fits timestamp, List.map_append,
      consistent.handed]
    rfl
  · intro other next isNext
    simp only [HopState.onConnection, Function.update_apply] at isNext
    split at isNext
    · rw [Option.mem_def.mp isConn] at isNext
      obtain rfl := Option.some.inj isNext
      exact (consistent.framed id conn isConn).step isEnabled keeps
    · exact consistent.framed other next isNext
  · intro other next isNext
    simp only [HopState.onConnection, Function.update_apply] at isNext
    rw [onChannel_concat]
    split at isNext
    · rename_i isChannel
      rw [Option.mem_def.mp isConn] at isNext
      obtain rfl := Option.some.inj isNext
      rw [if_pos isChannel.symm, isChannel, ← consistent.sent id conn isConn]
      rfl
    · rename_i notChannel
      rw [if_neg fun same => notChannel same.symm]
      exact consistent.sent other next isNext
  · intro other isNone
    simp only [HopState.onConnection, Function.update_apply] at isNone
    rw [onChannel_concat]
    split at isNone
    · rw [Option.mem_def.mp isConn] at isNone
      cases isNone
    · rename_i notChannel
      rw [if_neg fun same => notChannel same.symm]
      exact consistent.unused other isNone

/-- Every step keeps it. -/
theorem HopState.Consistent.step
    (consistent : state.Consistent nodeId)
    {action : HopAction}
    (allowed : HopEnabled nodeId state action) :
    (hopStep nodeId tunFd state action).Consistent nodeId := by
  cases action with
  | connect id buffer errnoAgain =>
      exact consistent.connect allowed buffer errnoAgain
  | transmit action =>
      obtain ⟨losses, ledger⟩ := consistent.ledger
      exact
        { consistent with
          ledger := ⟨_, ledger.step action⟩
          handed := consistent.handed.trans (handed_txStep allowed.2).symm }
  | hand id nextHop timestamp count =>
      unfold HopEnabled at allowed
      cases phase : state.tx.phase with
      | holding pkt bytesSent =>
          rw [phase] at allowed
          obtain ⟨routed, fits, onConnection⟩ := allowed
          exact consistent.hand phase routed fits onConnection
      | outside =>
          rw [phase] at allowed
          exact allowed.elim
      | draining bytesSent =>
          rw [phase] at allowed
          exact allowed.elim
  | sendFails id =>
      exact consistent.onConnection allowed fun _ => rfl
  | receive id result tunError =>
      exact consistent.onConnection allowed fun _ => rfl

/-- On a connection packets keep their order. -/
theorem HopState.Consistent.writtenOn
    (consistent : state.Consistent nodeId)
    (id : Nat) :
    (state.writtenOn id).Sublist
      (packetsOf (onChannel state.carried id)) := by
  unfold HopState.writtenOn
  cases isConn : state.connections id with
  | none =>
      exact List.nil_sublist _
  | some conn =>
      rw [← consistent.sent id conn isConn]
      exact (consistent.framed id conn isConn).framingHolds.delivered

/--
What the connections carry and what waits in the node was read from the TUN,
each packet once.
-/
theorem HopState.Consistent.inNode_subperm
    (consistent : state.Consistent nodeId) :
    (packetsOf (state.carried.map Prod.snd) ++
        (state.tx.phase.inHand ++ state.tx.queue).map TxPacket.data).Subperm
      (state.tx.readPackets.map TxPacket.data) := by
  obtain ⟨losses, ledger⟩ := consistent.ledger
  have handed :
      packetsOf (state.carried.map Prod.snd) =
        (state.tx.handed.map DataFrame.packet).map TxPacket.data := by
    rw [← consistent.handed, packetsOf, List.map_map, List.map_map,
      List.map_map]
    rfl
  have pipelineRead : state.tx.pipeline.Subperm state.tx.readPackets := by
    rw [List.subperm_ext_iff]
    intro pkt _
    rw [ledger.accounted pkt]
    omega
  rw [handed, ← List.map_append, ← List.append_assoc]
  exact subperm_map pipelineRead TxPacket.data

end

/--
In every run of a node and all its connections that keeps the framing of each:
on each connection the neighbour writes packets to its TUN in the order in
which they were handed to that connection; and on any different connections
together the neighbours write each packet no more often than this node read it
from its TUN.
-/
theorem hop_atMostOnce
    (nodeId : UInt8)
    (tunFd : Nat → Int)
    {state : HopState}
    (reachable :
      StepRun.Reachable (hopStep nodeId tunFd) (HopEnabled nodeId) hopStart
        state) :
    (∀ id,
        (state.writtenOn id).Sublist
          (packetsOf (onChannel state.carried id))) ∧
      ∀ ids : List Nat, ids.Nodup →
        (ids.flatMap state.writtenOn).Subperm
          (state.tx.readPackets.map TxPacket.data) := by
  have consistent : state.Consistent nodeId :=
    reachable.invariant (HopState.Consistent nodeId) consistent_hopStart
      fun consistent allowed => consistent.step allowed
  refine ⟨consistent.writtenOn, fun ids distinct => ?_⟩
  have written :
      (ids.flatMap state.writtenOn).Subperm
        (ids.flatMap fun id => packetsOf (onChannel state.carried id)) :=
    (List.Sublist.flatMap_right ids fun id _ =>
      consistent.writtenOn id).subperm
  have onChannels :
      (ids.flatMap fun id => packetsOf (onChannel state.carried id)).Subperm
        (packetsOf (state.carried.map Prod.snd)) := by
    have together := subperm_onChannel distinct state.carried
    have mapped :=
      subperm_map together fun stamped => stamped.packet.data
    rw [List.map_flatMap] at mapped
    exact mapped
  exact written.trans
    (onChannels.trans
      ((List.sublist_append_left _ _).subperm.trans
        consistent.inNode_subperm))

/-- A frame of node 1 for node 2, with no time stamp. -/
def unstampedFrame (identification : UInt8) (counter : Nat) : StampedFrame where
  frame :=
    { seqNum := UInt32.ofNat (counter + 1)
      msgId := UInt16.ofNat counter
      packet := .ofTun (ipPacket identification 2) }
  timestamp := 0

/-- Two packets on two connections; the first connection is lost. -/
def losesFirstConnection : List HopAction :=
  let bytes := (unstampedFrame 2 1).bytes 1
  [.connect 0 (fun _ => 0) false,
    .transmit (.tunRead (ipPacket 1 2) true),
    .transmit (.tunRead (ipPacket 2 2) true),
    .transmit .beginSlot,
    .transmit .pop,
    .hand 0 2 0 48,
    .sendFails 0,
    .connect 1 (fun _ => 0) true,
    .transmit .pop,
    .hand 1 2 0 48,
    .receive 1 (.returned (bytes.take 4)) none,
    .receive 1 (.returned (bytes.drop 4)) none]

/-- The second packet is delivered, once, and the first is not. -/
theorem hop_atMostOnce_losesFirstConnection :
    let state :=
      losesFirstConnection.foldl (hopStep 1 fun _ => 5) hopStart
    state.writtenOn 0 = [] ∧
      state.writtenOn 1 = [ipPacket 2 2] ∧
      ([0, 1].flatMap state.writtenOn).Subperm
        (state.tx.readPackets.map TxPacket.data) := by
  intro state
  have reachable :
      StepRun.Reachable (hopStep 1 fun _ => 5) (HopEnabled 1) hopStart state :=
    ⟨losesFirstConnection, StepRun.Run.of_checkRun (by decide +kernel)⟩
  obtain ⟨-, together⟩ := hop_atMostOnce 1 (fun _ => 5) reachable
  exact ⟨by decide +kernel, by decide +kernel, together [0, 1] (by decide)⟩

end RoutingMesh
