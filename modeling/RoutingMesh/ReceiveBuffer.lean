import RoutingMesh.BeaconBounds
import RoutingMesh.DataFraming
import RoutingMesh.StepRun

/-!
# The reused receive buffer

`tcp_rx_peer_loop` and `receiver_loop` read every packet to the start of one
buffer and hand `data_len` bytes of it to `tun_write`.  Neither compares
`data_len` with the length of what was received.  What they write depends on
the frame alone exactly when no frame that reaches `tun_write` announces more
data than it holds; otherwise the rest comes from earlier packets.
-/

namespace RoutingMesh

open ByteBlocks ByteStream

/-! ## The data frames of a datagram -/

/-- `receiver_loop`: its buffer, what it wrote, and its calls of `pdr_update`. -/
structure UdpState where
  buffer : Nat → UInt8
  written : List (List UInt8)
  recorded : List (UInt8 × UInt16)

/-- A receiver that has read nothing. -/
def udpStart (buffer : Nat → UInt8) : UdpState where
  buffer := buffer
  written := []
  recorded := []

/-- `data->msg_id`. -/
def UdpState.msgId (state : UdpState) : UInt16 :=
  UInt16.ofNat (littleEndian (fun b => state.buffer (headerSize + 2 + b)) 2)

/-- `data->data_len`. -/
def UdpState.ipLen (state : UdpState) : UInt16 :=
  UInt16.ofNat (littleEndian (fun b => state.buffer (headerSize + 4 + b)) 2)

/-- The first `ip_len` bytes of `data->payload`. -/
def UdpState.ipPkt (state : UdpState) : List UInt8 :=
  slice state.buffer (headerSize + msgDataHdrWire) state.ipLen.toNat

/-- The MSG_DATA branch, after `pdr_update`. -/
def UdpState.deliver
    (tunFd : Int)
    (state : UdpState) : UdpState :=
  if state.ipLen.toNat = 0 ∨ state.ipLen.toNat > maxIpLen then
    state
  else if tunFd < 0 then
    state
  else
    { state with written := state.written ++ [state.ipPkt] }

/-- A datagram of `n` bytes in the buffer. -/
def udpHandle
    (tunFd : Int)
    (n : Nat)
    (state : UdpState) : UdpState :=
  if state.buffer 0 = matrixType then
    -- A beacon goes to the matrix, which leaves the buffer as it is.
    state
  else if state.buffer 0 = msgDataType then
    if n < headerSize + msgDataHdrWire then
      state
    else
      -- Unlike over TCP, the call is made before the length is checked.
      UdpState.deliver tunFd
        { state with
          recorded :=
            state.recorded ++ [(state.buffer headerSize, state.msgId)] }
  else
    state

/-- One `recvfrom` of the loop; there is no datagram when it returns -1. -/
def udpStep
    (tunFd : Int)
    (state : UdpState) : Option (List UInt8) → UdpState
  | none => state
  | some datagram =>
      if receivedBytes datagram = [] then
        state
      else
        udpHandle tunFd (receivedBytes datagram).length
          { state with buffer := receiverBuffer datagram state.buffer }

/-! ## The two receive paths -/

/-- A `recv` with the `errno` of a `tun_write` after it that fails. -/
structure TcpRead where
  result : RecvResult
  tunError : Option Bool
  deriving Repr, DecidableEq

/-- One `recv` of `tcp_rx_peer_loop`. -/
def tcpRxStep
    (tunFd : Int)
    (state : RxState)
    (read : TcpRead) : RxState :=
  rxStep tunFd read.tunError state read.result

/-- `recv` returns at most the bytes that it is asked for. -/
def RecvReturns
    (state : RxState)
    (read : TcpRead) : Prop :=
  match read.result with
  | .failed _ => True
  | .returned bytes => bytes.length ≤ state.phase.wanted

instance (state : RxState) (read : TcpRead) :
    Decidable (RecvReturns state read) :=
  match read with
  | ⟨.failed _, _⟩ => isTrue trivial
  | ⟨.returned bytes, _⟩ =>
      inferInstanceAs (Decidable (bytes.length ≤ state.phase.wanted))

/-- The loops that receive data frames. -/
inductive ReceivePath where
  | tcpRxPeerLoop
  | receiverLoop
  deriving Repr, DecidableEq

/-- The frame passes the length checks of the path; a datagram is MSG_DATA. -/
def ReceivePath.Accepts
    (frame : List UInt8) : ReceivePath → Prop
  | tcpRxPeerLoop =>
      headerSize + msgDataHdrWire ≤ frame.length ∧
        frame.length ≤ tcpBufferSize
  | receiverLoop =>
      frame.getD 0 0 = msgDataType ∧
        headerSize + msgDataHdrWire ≤ (receivedBytes frame).length

/--
A loop that starts with `buffer` comes to the frame, after whatever earlier
packets, and passes `delivered` to `tun_write` for it.
-/
def ReceivePath.Delivers
    (tunFd : Int)
    (frame : List UInt8)
    (buffer : Nat → UInt8)
    (delivered : List (List UInt8)) : ReceivePath → Prop
  | tcpRxPeerLoop =>
      ∃ (errnoAgain : Bool) (tunError : Option Bool) (state : RxState),
        StepRun.Reachable (tcpRxStep tunFd) RecvReturns
            (rxStart buffer errnoAgain) state ∧
          state.phase = .awaitingBody frame.length ∧
          (rxStep tunFd tunError state (.returned frame)).written =
            state.written ++ delivered
  | receiverLoop =>
      ∃ state : UdpState,
        StepRun.Reachable (udpStep tunFd) (fun _ _ => True)
            (udpStart buffer) state ∧
          (udpStep tunFd state (some frame)).written =
            state.written ++ delivered

/-- What is delivered for a frame is a function of the frame. -/
def FunctionOfFrame
    (path : ReceivePath)
    (tunFd : Int)
    (frame : List UInt8) : Prop :=
  ∃ bytes, ∀ buffer delivered,
    path.Delivers tunFd frame buffer delivered → delivered = bytes

/-- Two runs that differ in the earlier packets deliver the same. -/
def SameInTwoRuns
    (path : ReceivePath)
    (tunFd : Int)
    (frame : List UInt8) : Prop :=
  ∀ buffer one other,
    path.Delivers tunFd frame buffer one →
    path.Delivers tunFd frame buffer other →
      one = other

/-- The `data_len` in the bytes of a frame. -/
def frameDataLen (frame : List UInt8) : Nat :=
  littleEndian (fun b => frame.getD (headerSize + 4 + b) 0) 2

/-- The data ends within the frame. -/
def HoldsItsData (frame : List UInt8) : Prop :=
  headerSize + msgDataHdrWire + frameDataLen frame ≤ frame.length

instance : DecidablePred HoldsItsData :=
  fun _ => inferInstanceAs (Decidable (_ ≤ _))

/-- A frame whose `data_len` exceeds its own data delivers nothing. -/
def OverlongDeliversNothing
    (path : ReceivePath)
    (tunFd : Int)
    (frame : List UInt8) : Prop :=
  ¬ HoldsItsData frame →
    ∀ buffer delivered,
      path.Delivers tunFd frame buffer delivered → delivered = []

/-- The checks that a frame passes on its way to `tun_write`. -/
structure ReachesTun
    (tunFd : Int)
    (frame : List UInt8) : Prop where
  tunOpen : 0 ≤ tunFd
  isData : frame.getD 0 0 = msgDataType
  dataPresent : 0 < frameDataLen frame
  dataShort : frameDataLen frame ≤ maxIpLen

theorem reachesTun_iff
    {tunFd : Int}
    {frame : List UInt8} :
    ReachesTun tunFd frame ↔
      0 ≤ tunFd ∧ frame.getD 0 0 = msgDataType ∧
        0 < frameDataLen frame ∧ frameDataLen frame ≤ maxIpLen :=
  ⟨fun ⟨tunOpen, isData, present, short⟩ => ⟨tunOpen, isData, present, short⟩,
    fun ⟨tunOpen, isData, present, short⟩ => ⟨tunOpen, isData, present, short⟩⟩

instance (tunFd : Int) (frame : List UInt8) :
    Decidable (ReachesTun tunFd frame) :=
  decidable_of_iff' _ reachesTun_iff

/-- The bytes that `tun_write` gets for a frame over an earlier buffer. -/
def deliveredFrom
    (tunFd : Int)
    (frame : List UInt8)
    (buffer : Nat → UInt8) : List (List UInt8) :=
  if ReachesTun tunFd frame then
    [slice (overlay frame buffer) (headerSize + msgDataHdrWire)
      (frameDataLen frame)]
  else
    []

/-! ## What a frame delivers over an earlier buffer -/

section

variable {tunFd : Int}
variable {frame : List UInt8}

/-- The `data_len` that is read is that of the frame. -/
theorem frameDataLen_of_received
    {received : Nat → UInt8}
    (buffer : Nat → UInt8)
    (complete : headerSize + msgDataHdrWire ≤ frame.length)
    (isRead :
      ∀ p, p < headerSize + msgDataHdrWire →
        received p = overlay frame buffer p) :
    (UInt16.ofNat
      (littleEndian (fun b => received (headerSize + 4 + b)) 2)).toNat =
        frameDataLen frame := by
  have sameBytes :
      littleEndian (fun b => received (headerSize + 4 + b)) 2 =
        frameDataLen frame := by
    apply littleEndian_congr
    intro b below
    unfold headerSize msgDataHdrWire at *
    rw [isRead _ (by omega)]
    exact overlay_congr_of_lt buffer (fun _ => 0) (by omega)
  have short := littleEndian_lt (fun b => received (headerSize + 4 + b)) 2
  rw [UInt16.toNat_ofNat', Nat.mod_eq_of_lt (show _ < 2 ^ 16 from short),
    sameBytes]

/-- A frame that is accepted over TCP delivers from its overlay. -/
theorem written_rxStep
    (accepted : ReceivePath.tcpRxPeerLoop.Accepts frame)
    (tunError : Option Bool)
    {state : RxState}
    (awaits : state.phase = .awaitingBody frame.length) :
    (rxStep tunFd tunError state (.returned frame)).written =
      state.written ++ deliveredFrom tunFd frame state.buffer := by
  obtain ⟨complete, -⟩ := accepted
  have type : overlay frame state.buffer 0 = frame.getD 0 0 :=
    overlay_congr_of_lt state.buffer (fun _ => 0)
      (by unfold headerSize at complete; omega)
  have dataLen :=
    frameDataLen_of_received state.buffer complete fun _ _ => rfl
  simp only [rxStep, awaits, readBody, handleBody, deliveredFrom,
    reachesTun_iff, RxState.ipPkt, RxState.ipLen, type, dataLen]
  grind

/-- A datagram that is cut off holds all that can be delivered of it. -/
theorem receiverBuffer_eq_overlay
    (buffer : Nat → UInt8)
    {p : Nat}
    (below : p < receiverBufferSize) :
    receiverBuffer frame buffer p = overlay frame buffer p := by
  simp [receiverBuffer, receivedBytes, overlay, List.getD, below]

theorem le_length_of_accepts
    {path : ReceivePath}
    (accepted : path.Accepts frame) :
    headerSize + msgDataHdrWire ≤ frame.length := by
  cases path with
  | tcpRxPeerLoop =>
      exact accepted.1
  | receiverLoop =>
      have complete := accepted.2
      rw [receivedBytes, List.length_take] at complete
      omega

/-- A datagram that is accepted delivers from its overlay. -/
theorem written_udpStep
    (accepted : ReceivePath.receiverLoop.Accepts frame)
    (state : UdpState) :
    (udpStep tunFd state (some frame)).written =
      state.written ++ deliveredFrom tunFd frame state.buffer := by
  have complete := le_length_of_accepts accepted
  obtain ⟨isData, received⟩ := accepted
  have reads :
      ∀ p, p < receiverBufferSize →
        receiverBuffer frame state.buffer p = overlay frame state.buffer p :=
    fun p below => receiverBuffer_eq_overlay state.buffer below
  have type : receiverBuffer frame state.buffer 0 = msgDataType := by
    rw [reads 0 (by decide), ← isData]
    exact overlay_congr_of_lt state.buffer (fun _ => 0)
      (by unfold headerSize at complete; omega)
  have dataLen :=
    frameDataLen_of_received state.buffer complete
      fun p below => reads p
        (Nat.lt_trans below (by decide))
  have samePkt
      (short : frameDataLen frame ≤ maxIpLen) :
      slice (receiverBuffer frame state.buffer) (headerSize + msgDataHdrWire)
          (frameDataLen frame) =
        slice (overlay frame state.buffer) (headerSize + msgDataHdrWire)
          (frameDataLen frame) := by
    apply slice_congr
    intro offset below
    apply reads
    unfold maxIpLen at short
    unfold headerSize msgDataHdrWire receiverBufferSize
    omega
  have present : receivedBytes frame ≠ [] := by
    intro empty
    simp [empty, headerSize, msgDataHdrWire] at received
  have notBeacon : ¬ msgDataType = matrixType := by decide
  simp only [udpStep, present, if_false, udpHandle, type, notBeacon,
    if_true, Nat.not_lt.mpr received, UdpState.deliver, deliveredFrom,
    reachesTun_iff, UdpState.ipPkt, UdpState.ipLen, dataLen, isData]
  grind

/-! ## When that depends on the earlier buffer -/

/-- A frame that holds its data delivers it, whatever the buffer held. -/
theorem deliveredFrom_congr
    (holds : ReachesTun tunFd frame → HoldsItsData frame)
    (one other : Nat → UInt8) :
    deliveredFrom tunFd frame one = deliveredFrom tunFd frame other := by
  unfold deliveredFrom
  split
  · rename_i reaches
    have within := holds reaches
    unfold HoldsItsData at within
    congr 1
    apply slice_congr
    intro offset below
    exact overlay_congr_of_lt one other (by omega)
  · rfl

/-- A frame that announces more delivers the next byte of the buffer. -/
theorem deliveredFrom_ne
    (complete : headerSize + msgDataHdrWire ≤ frame.length)
    (reaches : ReachesTun tunFd frame)
    (overlong : ¬ HoldsItsData frame)
    {one other : Nat → UInt8}
    (differ : one frame.length ≠ other frame.length) :
    deliveredFrom tunFd frame one ≠ deliveredFrom tunFd frame other := by
  intro same
  unfold HoldsItsData at overlong
  obtain ⟨offset, atEnd⟩ := Nat.exists_eq_add_of_le complete
  simp only [deliveredFrom, reaches, if_true, List.cons.injEq, and_true,
    slice, List.map_inj_left, List.mem_range] at same
  have nextByte := same offset (by omega)
  rw [← atEnd, overlay_of_le one le_rfl, overlay_of_le other le_rfl]
    at nextByte
  exact differ nextByte

/-! ## Earlier packets -/

theorem overlay_replicate
    (buffer : Nat → UInt8)
    (byte : UInt8)
    {size p : Nat}
    (below : p < size) :
    overlay (List.replicate size byte) buffer p = byte := by
  simp [overlay, List.getD, below]

theorem recvReturns_length
    (word : UInt64)
    {state : RxState}
    (awaits : state.phase = .awaitingLength) :
    RecvReturns state ⟨.returned (networkOrder 4 word), none⟩ := by
  simp [RecvReturns, awaits, RxPhase.wanted]

/-- The length of a packet is read. -/
theorem tcpRxStep_of_length
    {pktLen : Nat}
    (complete : headerSize + msgDataHdrWire ≤ pktLen)
    (short : pktLen ≤ tcpBufferSize)
    {state : RxState}
    (awaits : state.phase = .awaitingLength) :
    tcpRxStep tunFd state
        ⟨.returned (networkOrder 4 (UInt64.ofNat pktLen)), none⟩ =
      { state with phase := .awaitingBody pktLen } := by
  rw [tcpRxStep, rxStep, awaits]
  exact readLength_of_inBounds complete short state

/-- A body that is not MSG_DATA stays in the buffer, and nothing else. -/
theorem tcpRxStep_of_filled
    {byte : UInt8}
    (notData : byte ≠ msgDataType)
    {state : RxState}
    (awaits : state.phase = .awaitingBody tcpBufferSize) :
    tcpRxStep tunFd state
        ⟨.returned (List.replicate tcpBufferSize byte), none⟩ =
      { state with
        phase := .awaitingLength
        buffer :=
          overlay (List.replicate tcpBufferSize byte) state.buffer } := by
  have type :
      overlay (List.replicate tcpBufferSize byte) state.buffer 0 = byte :=
    overlay_replicate state.buffer byte (by decide)
  simp only [tcpRxStep, rxStep, awaits, readBody, List.length_replicate, ne_eq,
    not_true_eq_false, if_false, handleBody, type, notData,
    not_false_eq_true, if_true]

/-- A packet that fills the buffer is read, and then the length of a frame. -/
theorem reachable_filled
    (accepted : ReceivePath.tcpRxPeerLoop.Accepts frame)
    (buffer : Nat → UInt8)
    {byte : UInt8}
    (notData : byte ≠ msgDataType) :
    StepRun.Reachable (tcpRxStep tunFd) RecvReturns (rxStart buffer false)
      { rxStart buffer false with
        phase := .awaitingBody frame.length
        buffer := overlay (List.replicate tcpBufferSize byte) buffer } := by
  have started :
      StepRun.Run (tcpRxStep tunFd) RecvReturns (rxStart buffer false) []
        (rxStart buffer false) :=
    .start
  have announced :=
    started.next
      ⟨.returned (networkOrder 4 (UInt64.ofNat tcpBufferSize)), none⟩
      (recvReturns_length _ rfl)
  rw [tcpRxStep_of_length (by decide) le_rfl rfl] at announced
  have filled :=
    announced.next ⟨.returned (List.replicate tcpBufferSize byte), none⟩
      List.length_replicate.le
  rw [tcpRxStep_of_filled notData rfl] at filled
  have awaits :=
    filled.next
      ⟨.returned (networkOrder 4 (UInt64.ofNat frame.length)), none⟩
      (recvReturns_length _ rfl)
  rw [tcpRxStep_of_length accepted.1 accepted.2 rfl] at awaits
  exact ⟨_, awaits⟩

/-- A datagram that is neither a beacon nor MSG_DATA stays in the buffer. -/
theorem udpStep_of_filled
    {byte : UInt8}
    (notBeacon : byte ≠ matrixType)
    (notData : byte ≠ msgDataType)
    (state : UdpState) :
    udpStep tunFd state (some (List.replicate receiverBufferSize byte)) =
      { state with
        buffer :=
          receiverBuffer (List.replicate receiverBufferSize byte)
            state.buffer } := by
  have type :
      receiverBuffer (List.replicate receiverBufferSize byte) state.buffer 0 =
        byte := by
    rw [receiverBuffer_eq_overlay state.buffer (by decide)]
    exact overlay_replicate state.buffer byte (by decide)
  have present :
      receivedBytes (List.replicate receiverBufferSize byte) ≠ [] := by
    apply List.ne_nil_of_length_pos
    rw [receivedBytes, List.length_take, List.length_replicate, Nat.min_self]
    decide
  simp only [udpStep, present, if_false, udpHandle, type, notBeacon, notData]

/-- An earlier packet fills the buffer before a run comes to the frame. -/
theorem delivers_afterFilled
    (tunFd : Int)
    {path : ReceivePath}
    (accepted : path.Accepts frame)
    (buffer : Nat → UInt8)
    {byte : UInt8}
    (notBeacon : byte ≠ matrixType)
    (notData : byte ≠ msgDataType) :
    ∃ earlier : Nat → UInt8,
      (∀ p, p < receiverBufferSize → earlier p = byte) ∧
        path.Delivers tunFd frame buffer
          (deliveredFrom tunFd frame earlier) := by
  cases path with
  | tcpRxPeerLoop =>
      refine ⟨overlay (List.replicate tcpBufferSize byte) buffer,
        fun p below => ?_, false, none, _,
        reachable_filled accepted buffer notData, rfl,
        written_rxStep accepted none rfl⟩
      exact overlay_replicate buffer byte (Nat.lt_trans below (by decide))
  | receiverLoop =>
      have started :
          StepRun.Run (udpStep tunFd) (fun _ _ => True) (udpStart buffer) []
            (udpStart buffer) :=
        .start
      have filled :=
        started.next
          (some (List.replicate receiverBufferSize byte)) trivial
      rw [udpStep_of_filled notBeacon notData] at filled
      refine ⟨receiverBuffer (List.replicate receiverBufferSize byte) buffer,
        fun p below => ?_, _, ⟨_, filled⟩, written_udpStep accepted _⟩
      rw [receiverBuffer_eq_overlay buffer below]
      exact overlay_replicate buffer byte below

/-- Whatever is delivered for a frame comes from its overlay. -/
theorem eq_deliveredFrom_of_delivers
    {path : ReceivePath}
    (accepted : path.Accepts frame)
    {buffer : Nat → UInt8}
    {delivered : List (List UInt8)}
    (delivers : path.Delivers tunFd frame buffer delivered) :
    ∃ earlier, delivered = deliveredFrom tunFd frame earlier := by
  cases path with
  | tcpRxPeerLoop =>
      obtain ⟨_, tunError, state, -, awaits, writes⟩ := delivers
      rw [written_rxStep accepted tunError awaits] at writes
      exact ⟨state.buffer, (List.append_cancel_left writes).symm⟩
  | receiverLoop =>
      obtain ⟨state, -, writes⟩ := delivers
      rw [written_udpStep accepted state] at writes
      exact ⟨state.buffer, (List.append_cancel_left writes).symm⟩

/-! ## The three properties -/

/-- A frame that announces more than it holds tells two runs apart. -/
theorem not_sameInTwoRuns
    {path : ReceivePath}
    (accepted : path.Accepts frame)
    (reaches : ReachesTun tunFd frame)
    (overlong : ¬ HoldsItsData frame) :
    ¬ SameInTwoRuns path tunFd frame := by
  intro same
  have complete := le_length_of_accepts accepted
  have inBuffer : frame.length < receiverBufferSize := by
    have short := reaches.dataShort
    unfold HoldsItsData at overlong
    unfold headerSize msgDataHdrWire maxIpLen receiverBufferSize at *
    omega
  obtain ⟨zeros, areZero, one⟩ :=
    delivers_afterFilled tunFd accepted (fun _ => 0)
      (show (0 : UInt8) ≠ matrixType by decide)
      (show (0 : UInt8) ≠ msgDataType by decide)
  obtain ⟨threes, areThree, other⟩ :=
    delivers_afterFilled tunFd accepted (fun _ => 0)
      (show (3 : UInt8) ≠ matrixType by decide)
      (show (3 : UInt8) ≠ msgDataType by decide)
  apply deliveredFrom_ne complete reaches overlong _ (same _ _ _ one other)
  rw [areZero _ inBuffer, areThree _ inBuffer]
  decide

/-- What does not depend on the buffer is a function of the frame. -/
theorem functionOfFrame_of_holds
    {path : ReceivePath}
    (accepted : path.Accepts frame)
    (holds : ReachesTun tunFd frame → HoldsItsData frame) :
    FunctionOfFrame path tunFd frame := by
  refine ⟨deliveredFrom tunFd frame fun _ => 0, ?_⟩
  intro buffer delivered delivers
  obtain ⟨earlier, rfl⟩ := eq_deliveredFrom_of_delivers accepted delivers
  exact deliveredFrom_congr holds earlier _

theorem FunctionOfFrame.sameInTwoRuns
    {path : ReceivePath}
    (function : FunctionOfFrame path tunFd frame) :
    SameInTwoRuns path tunFd frame := by
  obtain ⟨bytes, always⟩ := function
  intro buffer one other deliversOne deliversOther
  exact (always buffer one deliversOne).trans
    (always buffer other deliversOther).symm

/-- An overlong frame delivers nothing exactly when it stops before. -/
theorem overlongDeliversNothing_iff
    {path : ReceivePath}
    (accepted : path.Accepts frame) :
    OverlongDeliversNothing path tunFd frame ↔
      (ReachesTun tunFd frame → HoldsItsData frame) := by
  constructor
  · intro silent reaches
    by_contra overlong
    obtain ⟨earlier, -, delivers⟩ :=
      delivers_afterFilled tunFd accepted (fun _ => 0)
        (show (0 : UInt8) ≠ matrixType by decide)
        (show (0 : UInt8) ≠ msgDataType by decide)
    have nothing := silent overlong _ _ delivers
    simp [deliveredFrom, reaches] at nothing
  · intro holds overlong buffer delivered delivers
    obtain ⟨earlier, rfl⟩ := eq_deliveredFrom_of_delivers accepted delivers
    have stops : ¬ ReachesTun tunFd frame :=
      fun reaches => overlong (holds reaches)
    rw [deliveredFrom, if_neg stops]

end

/--
For both paths and every frame they accept: what is passed to `tun_write` is a
function of the frame, two runs that differ in the earlier packets deliver the
same, and an overlong frame delivers nothing, each exactly when the frame
either stops before `tun_write` or is as long as its `data_len` says.
-/
theorem deliversOwnFrame_iff
    (path : ReceivePath)
    (tunFd : Int)
    (frame : List UInt8)
    (accepted : path.Accepts frame) :
    (FunctionOfFrame path tunFd frame ↔
        (ReachesTun tunFd frame → HoldsItsData frame)) ∧
      (SameInTwoRuns path tunFd frame ↔
        (ReachesTun tunFd frame → HoldsItsData frame)) ∧
      (OverlongDeliversNothing path tunFd frame ↔
        (ReachesTun tunFd frame → HoldsItsData frame)) := by
  have necessary :
      SameInTwoRuns path tunFd frame →
        ReachesTun tunFd frame → HoldsItsData frame := by
    intro same reaches
    by_contra overlong
    exact not_sameInTwoRuns accepted reaches overlong same
  refine ⟨⟨fun function => necessary function.sameInTwoRuns,
      functionOfFrame_of_holds accepted⟩, ⟨necessary, fun holds => ?_⟩,
    overlongDeliversNothing_iff accepted⟩
  exact (functionOfFrame_of_holds accepted holds).sameInTwoRuns

/-- A packet of 20 bytes from node 1 to node 2. -/
def sendsHeaderOnly : StampedFrame where
  frame :=
    { seqNum := 3
      msgId := 2
      packet := { data := ipPacket 3 2, dstId := 2 } }
  timestamp := 0x41d9eda0a0000000

/-- Both paths deliver that packet whatever came before. -/
theorem deliversOwnFrame_sendsHeaderOnly :
    FunctionOfFrame .tcpRxPeerLoop 5 (sendsHeaderOnly.body 1) ∧
      SameInTwoRuns .receiverLoop 5 (sendsHeaderOnly.body 1) := by
  have holds : HoldsItsData (sendsHeaderOnly.body 1) := by decide
  have accepted : ∀ path : ReceivePath, path.Accepts (sendsHeaderOnly.body 1)
    | .tcpRxPeerLoop => ⟨by decide, by decide⟩
    | .receiverLoop => ⟨by decide, by decide⟩
  have overTcp :=
    deliversOwnFrame_iff .tcpRxPeerLoop 5 (sendsHeaderOnly.body 1)
      (accepted _)
  have overUdp :=
    deliversOwnFrame_iff .receiverLoop 5 (sendsHeaderOnly.body 1)
      (accepted _)
  exact ⟨overTcp.1.mpr fun _ => holds, overUdp.2.1.mpr fun _ => holds⟩

/-- The reads of a packet, and of the length of a frame of 24 bytes. -/
def readsPacketFirst (identification : UInt8) : List TcpRead :=
  let earlier : StampedFrame :=
    { sendsHeaderOnly with
      frame :=
        { sendsHeaderOnly.frame with
          packet := { data := ipPacket identification 2, dstId := 2 } } }
  [⟨.returned (networkOrder 4 44), none⟩, ⟨.returned (earlier.body 1), none⟩,
    ⟨.returned (networkOrder 4 24), none⟩]

/-- The headers of a frame announce 20 bytes that do not follow. -/
def headersOnly : List UInt8 :=
  (sendsHeaderOnly.body 1).take 24

/-- It delivers the packet that came before it. -/
theorem deliversOwnFrame_headersOnly :
    ¬ ∀ (path : ReceivePath) (tunFd : Int) (frame : List UInt8),
      path.Accepts frame → SameInTwoRuns path tunFd frame := by
  intro always
  have afterFirst :
      ReceivePath.tcpRxPeerLoop.Delivers 5 headersOnly (fun _ => 0)
        [ipPacket 1 2] :=
    ⟨false, none, _,
      ⟨readsPacketFirst 1, StepRun.Run.of_checkRun (by decide)⟩,
      by decide, by decide⟩
  have afterSecond :
      ReceivePath.tcpRxPeerLoop.Delivers 5 headersOnly (fun _ => 0)
        [ipPacket 2 2] :=
    ⟨false, none, _,
      ⟨readsPacketFirst 2, StepRun.Run.of_checkRun (by decide)⟩,
      by decide, by decide⟩
  have same :=
    always .tcpRxPeerLoop 5 headersOnly ⟨by decide, by decide⟩
      (fun _ => 0) _ _ afterFirst afterSecond
  revert same
  decide

end RoutingMesh
