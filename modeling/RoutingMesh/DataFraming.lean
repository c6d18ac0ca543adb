import RoutingMesh.ByteStream
import RoutingMesh.TransmitOrder

/-!
# Data frames on a TCP connection

The bytes that `tx_loop` gives to `send` for a packet, and the reads of
`tcp_rx_peer_loop` with what it makes of them.  A frame is four bytes of
length in network order, then the two headers and the data.  Whatever the
segments of the stream, the receiver gets the packets back in order.
-/

namespace RoutingMesh

open ByteBlocks ByteStream

/-- `MSG_DATA`, the type of a data frame. -/
def msgDataType : UInt8 := 2

/-- `data_len`. -/
def TxPacket.dataLen (pkt : TxPacket) : UInt16 :=
  UInt16.ofNat pkt.data.length

/-- A data frame with the bits of the double in its time stamp. -/
structure StampedFrame where
  frame : DataFrame
  timestamp : UInt64

/-- The packet that a frame carries. -/
def StampedFrame.packet (stamped : StampedFrame) : TxPacket :=
  stamped.frame.packet

/-- The `tdma_header_t` of a data frame; its slot limits stay zero. -/
def StampedFrame.tdmaHeader
    (nodeId : UInt8)
    (stamped : StampedFrame) : List UInt8 :=
  [msgDataType, nodeId] ++
    hostOrder 4 stamped.frame.seqNum.toUInt64 ++
    hostOrder 8 stamped.timestamp ++
    hostOrder 2 0 ++
    hostOrder 2 0

/-- The `msg_data_hdr_t` of a data frame, without its payload. -/
def StampedFrame.dataHeader
    (nodeId : UInt8)
    (stamped : StampedFrame) : List UInt8 :=
  [nodeId, stamped.packet.dstId] ++
    hostOrder 2 stamped.frame.msgId.toUInt64 ++
    hostOrder 2 stamped.packet.dataLen.toUInt64

/-- `total_len`. -/
def StampedFrame.totalLen (stamped : StampedFrame) : Nat :=
  headerSize + msgDataHdrWire + stamped.packet.dataLen.toNat

/-- The first `total_len` bytes of `pkt_buffer`. -/
def StampedFrame.body
    (nodeId : UInt8)
    (stamped : StampedFrame) : List UInt8 :=
  stamped.tdmaHeader nodeId ++ stamped.dataHeader nodeId ++
    stamped.packet.data.take stamped.packet.dataLen.toNat

/-- The frame as it is given to `send`. -/
def StampedFrame.bytes
    (nodeId : UInt8)
    (stamped : StampedFrame) : List UInt8 :=
  networkOrder 4 (UInt64.ofNat stamped.totalLen) ++ stamped.body nodeId

/-- The frames of a connection, one after the other. -/
def wire
    (nodeId : UInt8)
    (frames : List StampedFrame) : List UInt8 :=
  frames.flatMap (StampedFrame.bytes nodeId)

theorem wire_cons
    (nodeId : UInt8)
    (stamped : StampedFrame)
    (frames : List StampedFrame) :
    wire nodeId (stamped :: frames) =
      stamped.bytes nodeId ++ wire nodeId frames :=
  List.flatMap_cons

theorem wire_append_singleton
    (nodeId : UInt8)
    (frames : List StampedFrame)
    (stamped : StampedFrame) :
    wire nodeId (frames ++ [stamped]) =
      wire nodeId frames ++ stamped.bytes nodeId := by
  rw [wire, List.flatMap_append, List.flatMap_singleton, ← wire]

/-! ## The receiver -/

/-- The size of the buffer of `tcp_rx_peer_loop`. -/
def tcpBufferSize : Nat := 4096

/-- The longest `ip_len` that is not skipped. -/
def maxIpLen : Nat := 1500

/-- What `recv` returns: -1, with whether `errno` says to try again, or bytes. -/
inductive RecvResult where
  | failed (again : Bool)
  | returned (bytes : List UInt8)
  deriving Repr, DecidableEq

/-- Where `tcp_rx_peer_loop` stands with respect to one connection. -/
inductive RxPhase where
  | awaitingLength
  | awaitingBody (pktLen : Nat)
  | closed
  deriving Repr, DecidableEq

/-- How many bytes the next `recv` asks for. -/
def RxPhase.wanted : RxPhase → Nat
  | awaitingLength => 4
  | awaitingBody pktLen => pktLen
  | closed => 0

/--
The receiver of one connection: its buffer, whether the `errno` of its thread
is EAGAIN or EWOULDBLOCK, what it gave to `tun_write`, and the arguments of
its calls of `pdr_update`.
-/
structure RxState where
  phase : RxPhase
  buffer : Nat → UInt8
  errnoAgain : Bool
  written : List (List UInt8)
  recorded : List (UInt8 × UInt16)

/-- A receiver that has a connection and has read nothing from it. -/
def rxStart
    (buffer : Nat → UInt8)
    (errnoAgain : Bool) : RxState where
  phase := .awaitingLength
  buffer := buffer
  errnoAgain := errnoAgain
  written := []
  recorded := []

/-- After the length: a timeout starts over, another short read closes. -/
def readLength (state : RxState) : RecvResult → RxState
  | .failed again =>
      { state with
        phase := if again then .awaitingLength else .closed
        errnoAgain := again }
  | .returned bytes =>
      if bytes.length ≠ 4 then
        -- `errno` is that of an earlier call here.
        { state with
          phase := if state.errnoAgain then .awaitingLength else .closed }
      else if networkValue bytes < headerSize + msgDataHdrWire ∨
          networkValue bytes > tcpBufferSize then
        { state with phase := .closed }
      else
        { state with phase := .awaitingBody (networkValue bytes) }

/-- `data->msg_id`. -/
def RxState.msgId (state : RxState) : UInt16 :=
  UInt16.ofNat (littleEndian (fun b => state.buffer (headerSize + 2 + b)) 2)

/-- `data->data_len`. -/
def RxState.ipLen (state : RxState) : UInt16 :=
  UInt16.ofNat (littleEndian (fun b => state.buffer (headerSize + 4 + b)) 2)

/-- The first `ip_len` bytes of `data->payload`. -/
def RxState.ipPkt (state : RxState) : List UInt8 :=
  slice state.buffer (headerSize + msgDataHdrWire) state.ipLen.toNat

/--
A packet in the buffer: for this node or to be relayed, it goes to the TUN
if that is open.  `tunError` is the `errno` of a `tun_write` that fails.
-/
def handleBody
    (tunFd : Int)
    (tunError : Option Bool)
    (state : RxState) : RxState :=
  if state.buffer 0 ≠ msgDataType then
    state
  else if state.ipLen.toNat = 0 ∨ state.ipLen.toNat > maxIpLen then
    state
  else if tunFd < 0 then
    { state with
      recorded := state.recorded ++ [(state.buffer headerSize, state.msgId)] }
  else
    { state with
      recorded := state.recorded ++ [(state.buffer headerSize, state.msgId)]
      written := state.written ++ [state.ipPkt]
      errnoAgain := tunError.getD state.errnoAgain }

/-- After the body: only a complete one does not close. -/
def readBody
    (tunFd : Int)
    (tunError : Option Bool)
    (pktLen : Nat)
    (state : RxState) : RecvResult → RxState
  | .failed again =>
      { state with
        phase := .closed
        errnoAgain := again }
  | .returned bytes =>
      let received := { state with buffer := overlay bytes state.buffer }
      if bytes.length ≠ pktLen then
        { received with phase := .closed }
      else
        handleBody tunFd tunError { received with phase := .awaitingLength }

/-- One `recv` of the loop with what follows it. -/
def rxStep
    (tunFd : Int)
    (tunError : Option Bool)
    (state : RxState)
    (result : RecvResult) : RxState :=
  match state.phase with
  | .awaitingLength => readLength state result
  | .awaitingBody pktLen => readBody tunFd tunError pktLen state result
  | .closed => state

/-! ## A frame that arrives complete -/

section

variable (nodeId : UInt8)
variable (stamped : StampedFrame)

@[simp]
theorem StampedFrame.length_tdmaHeader :
    (stamped.tdmaHeader nodeId).length = headerSize := by
  simp [tdmaHeader, headerSize]

@[simp]
theorem StampedFrame.length_dataHeader :
    (stamped.dataHeader nodeId).length = msgDataHdrWire := by
  simp [dataHeader, msgDataHdrWire]

theorem TxPacket.dataLen_le (pkt : TxPacket) :
    pkt.dataLen.toNat ≤ pkt.data.length := by
  simp only [dataLen, UInt16.toNat_ofNat']
  exact Nat.mod_le _ _

/-- The body has the length that is announced. -/
theorem StampedFrame.length_body :
    (stamped.body nodeId).length = stamped.totalLen := by
  have enough := stamped.packet.dataLen_le
  simp only [body, totalLen, List.length_append, length_tdmaHeader,
    length_dataHeader, List.length_take]
  omega

end

section

variable {nodeId : UInt8}
variable {stamped : StampedFrame}
variable {state : RxState}
variable {rest : Nat → UInt8}

/-- The type of a received frame. -/
theorem type_of_received
    (received : state.buffer = overlay (stamped.body nodeId) rest) :
    state.buffer 0 = msgDataType := by
  rw [received]
  simp [overlay, StampedFrame.body, StampedFrame.tdmaHeader]

/-- The source of a received frame. -/
theorem srcId_of_received
    (received : state.buffer = overlay (stamped.body nodeId) rest) :
    state.buffer headerSize = nodeId := by
  have reads :=
    overlay_append (stamped.tdmaHeader nodeId) [nodeId]
      ([stamped.packet.dstId] ++
        hostOrder 2 stamped.frame.msgId.toUInt64 ++
        hostOrder 2 stamped.packet.dataLen.toUInt64 ++
        stamped.packet.data.take stamped.packet.dataLen.toNat)
      rest (show 0 < [nodeId].length from Nat.one_pos)
  rw [received]
  simpa [StampedFrame.body, StampedFrame.dataHeader] using reads

/-- The message number of a received frame. -/
theorem msgId_of_received
    (received : state.buffer = overlay (stamped.body nodeId) rest) :
    state.msgId = stamped.frame.msgId := by
  have reads :=
    littleEndian_overlay
      (stamped.tdmaHeader nodeId ++ [nodeId, stamped.packet.dstId])
      (hostOrder 2 stamped.packet.dataLen.toUInt64 ++
        stamped.packet.data.take stamped.packet.dataLen.toNat)
      (show stamped.frame.msgId.toUInt64.toNat < 256 ^ 2 from
        stamped.frame.msgId.toNat_lt)
      rest
  simp only [List.length_append, StampedFrame.length_tdmaHeader,
    List.length_cons, List.length_nil, List.append_assoc] at reads
  simp only [RxState.msgId, received, StampedFrame.body,
    StampedFrame.dataHeader, List.append_assoc]
  rw [reads]
  exact UInt16.ofNat_toNat

/-- The data length of a received frame. -/
theorem ipLen_of_received
    (received : state.buffer = overlay (stamped.body nodeId) rest) :
    state.ipLen = stamped.packet.dataLen := by
  have reads :=
    littleEndian_overlay
      (stamped.tdmaHeader nodeId ++ [nodeId, stamped.packet.dstId] ++
        hostOrder 2 stamped.frame.msgId.toUInt64)
      (stamped.packet.data.take stamped.packet.dataLen.toNat)
      (show stamped.packet.dataLen.toUInt64.toNat < 256 ^ 2 from
        stamped.packet.dataLen.toNat_lt)
      rest
  simp only [List.length_append, StampedFrame.length_tdmaHeader,
    List.length_cons, List.length_nil, length_hostOrder,
    List.append_assoc] at reads
  simp only [RxState.ipLen, received, StampedFrame.body,
    StampedFrame.dataHeader, List.append_assoc]
  rw [reads]
  exact UInt16.ofNat_toNat

/-- The data of a received frame. -/
theorem ipPkt_of_received
    (received : state.buffer = overlay (stamped.body nodeId) rest) :
    state.ipPkt =
      stamped.packet.data.take stamped.packet.dataLen.toNat := by
  have reads :=
    slice_overlay (stamped.tdmaHeader nodeId ++ stamped.dataHeader nodeId)
      (stamped.packet.data.take stamped.packet.dataLen.toNat) [] rest
  have taken :
      (stamped.packet.data.take stamped.packet.dataLen.toNat).length =
        stamped.packet.dataLen.toNat := by
    rw [List.length_take, Nat.min_eq_left stamped.packet.dataLen_le]
  rw [List.append_nil, taken, List.length_append,
    StampedFrame.length_tdmaHeader, StampedFrame.length_dataHeader] at reads
  rw [RxState.ipPkt, ipLen_of_received received, received]
  exact reads

end

/-! ## The steps of the receiver on a frame -/

/-- The packet is one that the queue holds. -/
def StampedFrame.Fits (stamped : StampedFrame) : Prop :=
  stamped.packet.data.length ≤ txQueueMaxPktSize

/-- The receiver does not skip the packet for its length. -/
def StampedFrame.Passes (stamped : StampedFrame) : Prop :=
  0 < stamped.packet.data.length ∧ stamped.packet.data.length ≤ maxIpLen

instance (stamped : StampedFrame) : Decidable stamped.Passes :=
  inferInstanceAs (Decidable (_ ∧ _))

section

variable {stamped : StampedFrame}

theorem StampedFrame.Fits.toNat_dataLen
    (fits : stamped.Fits) :
    stamped.packet.dataLen.toNat = stamped.packet.data.length := by
  unfold Fits txQueueMaxPktSize at fits
  rw [TxPacket.dataLen, UInt16.toNat_ofNat', Nat.mod_eq_of_lt (by omega)]

theorem StampedFrame.Passes.fits
    (passes : stamped.Passes) :
    stamped.Fits := by
  have short := passes.2
  unfold maxIpLen at short
  unfold Fits txQueueMaxPktSize
  omega

/-- A length within the bounds of the receiver makes it wait for the body. -/
theorem readLength_of_inBounds
    {pktLen : Nat}
    (complete : headerSize + msgDataHdrWire ≤ pktLen)
    (short : pktLen ≤ tcpBufferSize)
    (state : RxState) :
    readLength state (.returned (networkOrder 4 (UInt64.ofNat pktLen))) =
      { state with phase := .awaitingBody pktLen } := by
  have representable : (UInt64.ofNat pktLen).toNat = pktLen := by
    unfold tcpBufferSize at short
    rw [UInt64.toNat_ofNat', Nat.mod_eq_of_lt (by omega)]
  have readsBack :
      networkValue (networkOrder 4 (UInt64.ofNat pktLen)) = pktLen := by
    unfold tcpBufferSize at short
    rw [networkValue_networkOrder, representable]
    omega
  have inBounds :
      ¬ (pktLen < headerSize + msgDataHdrWire ∨ pktLen > tcpBufferSize) := by
    omega
  simp only [readLength, length_networkOrder, ne_eq, not_true_eq_false,
    if_false, readsBack, inBounds]

/-- The length of a frame passes the bounds of the receiver. -/
theorem readLength_of_frame
    (fits : stamped.Fits)
    (state : RxState) :
    readLength state
        (.returned (networkOrder 4 (UInt64.ofNat stamped.totalLen))) =
      { state with phase := .awaitingBody stamped.totalLen } := by
  apply readLength_of_inBounds
  · rw [StampedFrame.totalLen]
    omega
  · rw [StampedFrame.totalLen, fits.toNat_dataLen]
    unfold StampedFrame.Fits txQueueMaxPktSize at fits
    unfold headerSize msgDataHdrWire tcpBufferSize
    omega

variable (nodeId : UInt8)
variable (tunFd : Int)
variable (tunError : Option Bool)
variable (state : RxState)

/-- The packet of a complete frame, in the buffer. -/
theorem handleBody_of_received
    {rest : Nat → UInt8}
    (fits : stamped.Fits)
    (received : state.buffer = overlay (stamped.body nodeId) rest) :
    handleBody tunFd tunError state =
      if ¬ stamped.Passes then
        state
      else if tunFd < 0 then
        { state with
          recorded := state.recorded ++ [(nodeId, stamped.frame.msgId)] }
      else
        { state with
          recorded := state.recorded ++ [(nodeId, stamped.frame.msgId)]
          written := state.written ++ [stamped.packet.data]
          errnoAgain := tunError.getD state.errnoAgain } := by
  have whole : state.ipPkt = stamped.packet.data := by
    rw [ipPkt_of_received received, fits.toNat_dataLen, List.take_length]
  have skipped :
      (stamped.packet.data.length = 0 ∨
          stamped.packet.data.length > maxIpLen) ↔
        ¬ stamped.Passes := by
    unfold StampedFrame.Passes
    omega
  simp only [handleBody, type_of_received received,
    srcId_of_received received, msgId_of_received received,
    ipLen_of_received received, whole,
    fits.toNat_dataLen, skipped, ne_eq, not_true_eq_false, if_false]

/-- What a complete body leaves behind. -/
structure BodyHandled
    (nodeId : UInt8)
    (tunFd : Int)
    (stamped : StampedFrame)
    (before after : RxState) : Prop where
  phase : after.phase = .awaitingLength
  recorded :
    after.recorded =
      before.recorded ++
        if stamped.Passes then [(nodeId, stamped.frame.msgId)] else []
  written :
    after.written =
      before.written ++
        if stamped.Passes ∧ 0 ≤ tunFd then [stamped.packet.data] else []

/-- A complete body is handled and the receiver waits for the next length. -/
theorem readBody_of_frame
    (fits : stamped.Fits) :
    BodyHandled nodeId tunFd stamped state
      (readBody tunFd tunError stamped.totalLen state
        (.returned (stamped.body nodeId))) := by
  have handled :
      readBody tunFd tunError stamped.totalLen state
          (.returned (stamped.body nodeId)) =
        handleBody tunFd tunError
          { state with
            buffer := overlay (stamped.body nodeId) state.buffer
            phase := .awaitingLength } := by
    simp [readBody, stamped.length_body]
  rw [handled, handleBody_of_received nodeId tunFd tunError _ fits rfl]
  by_cases passes : stamped.Passes
  · by_cases noTun : tunFd < 0
    · have notOpen : ¬ 0 ≤ tunFd := by omega
      constructor <;> simp [passes, noTun, notOpen]
    · have isOpen : 0 ≤ tunFd := by omega
      constructor <;> simp [passes, noTun, isOpen]
  · constructor <;> simp [passes]

end

/-! ## The loop on a stream -/

/-- The receiver and the segments that it has not taken yet. -/
structure RxLink where
  state : RxState
  segments : List (List UInt8)

/-- A pass of the loop: no data for two seconds, or two complete reads. -/
inductive RxPass where
  | timesOut
  | reads (tunError : Option Bool)
  deriving Repr, DecidableEq

/-- A read that gets all it asks for; it waits while that is not there. -/
def RxLink.readFull
    (tunFd : Int)
    (tunError : Option Bool)
    (link : RxLink) : RxLink :=
  match recvAll link.state.phase.wanted link.segments with
  | some (bytes, left) =>
      { state := rxStep tunFd tunError link.state (.returned bytes)
        segments := left }
  | none => link

/-- One pass of the loop. -/
def rxPass
    (tunFd : Int)
    (link : RxLink) : RxPass → RxLink
  | .timesOut =>
      { link with state := rxStep tunFd none link.state (.failed true) }
  | .reads tunError =>
      (link.readFull tunFd tunError).readFull tunFd tunError

/-- The pass takes a frame from the stream, when one is there. -/
def RxPass.takesFrame : RxPass → Bool
  | .timesOut => false
  | .reads _ => true

section

variable {nodeId : UInt8}
variable {stamped : StampedFrame}
variable {state : RxState}
variable {segments : List (List UInt8)}
variable (tunFd : Int)
variable (tunError : Option Bool)

/-- A read of what comes first in the stream. -/
theorem readFull_of_flatten_eq
    (state : RxState)
    {leading trailing : List UInt8}
    (carries : segments.flatten = leading ++ trailing)
    (wants : state.phase.wanted = leading.length) :
    ∃ left,
      left.flatten = trailing ∧
        RxLink.readFull tunFd tunError { state, segments } =
          { state := rxStep tunFd tunError state (.returned leading)
            segments := left } := by
  obtain ⟨left, reads, remains⟩ := recvAll_of_flatten_eq carries
  refine ⟨left, remains, ?_⟩
  simp only [RxLink.readFull, wants, reads]

/-- A pass over a stream that begins with a frame handles that frame. -/
theorem rxPass_of_frame
    {trailing : List UInt8}
    (fits : stamped.Fits)
    (carries : segments.flatten = stamped.bytes nodeId ++ trailing)
    (awaits : state.phase = .awaitingLength) :
    BodyHandled nodeId tunFd stamped state
        (rxPass tunFd { state, segments } (.reads tunError)).state ∧
      (rxPass tunFd { state, segments } (.reads tunError)).segments.flatten =
        trailing := by
  rw [StampedFrame.bytes, List.append_assoc] at carries
  obtain ⟨bodySegments, bodyCarries, lengthRead⟩ :=
    readFull_of_flatten_eq tunFd tunError state carries
      (by rw [awaits, length_networkOrder, RxPhase.wanted])
  have awaitsBody :
      rxStep tunFd tunError state
          (.returned (networkOrder 4 (UInt64.ofNat stamped.totalLen))) =
        { state with phase := .awaitingBody stamped.totalLen } := by
    rw [rxStep, awaits]
    exact readLength_of_frame fits state
  rw [awaitsBody] at lengthRead
  obtain ⟨left, leftCarries, bodyRead⟩ :=
    readFull_of_flatten_eq tunFd tunError
      { state with phase := .awaitingBody stamped.totalLen } bodyCarries
      (stamped.length_body nodeId).symm
  rw [rxPass, lengthRead, bodyRead]
  exact ⟨readBody_of_frame nodeId tunFd tunError _ fits, leftCarries⟩

/-- A pass over an empty stream waits. -/
theorem rxPass_of_empty
    (drained : segments.flatten = [])
    (awaits : state.phase = .awaitingLength) :
    rxPass tunFd { state, segments } (.reads tunError) =
      { state, segments } := by
  have waits :
      RxLink.readFull tunFd tunError { state, segments } =
        { state, segments } := by
    simp only [RxLink.readFull]
    rw [recvAll_eq_none]
    simp [drained, awaits, RxPhase.wanted]
  rw [rxPass, waits, waits]

/-- The passes handle the frames of a stream in order. -/
theorem rxLoop_of_wire
    (state : RxState)
    (passes : List RxPass)
    {frames : List StampedFrame}
    (lengths : ∀ stamped ∈ frames, stamped.Passes)
    (enough : frames.length ≤ passes.countP RxPass.takesFrame)
    (carries : segments.flatten = wire nodeId frames)
    (awaits : state.phase = .awaitingLength) :
    let final := passes.foldl (rxPass tunFd) { state, segments }
    final.segments.flatten = [] ∧
      final.state.recorded =
        state.recorded ++
          frames.map (fun stamped => (nodeId, stamped.frame.msgId)) ∧
      (0 ≤ tunFd →
        final.state.written =
          state.written ++ frames.map fun stamped => stamped.packet.data) := by
  induction passes generalizing frames state segments with
  | nil =>
      obtain rfl : frames = [] := by simpa using enough
      exact ⟨carries, by simp, by simp⟩
  | cons pass rest inductionHypothesis =>
      cases pass with
      | timesOut =>
          -- Only `errno` changes.
          rw [List.foldl_cons]
          have unchanged :
              rxPass tunFd { state, segments } .timesOut =
                { state := { state with errnoAgain := true }
                  segments } := by
            simp [rxPass, rxStep, readLength, awaits]
          rw [unchanged]
          exact inductionHypothesis _ lengths
            (by simpa [List.countP_cons, RxPass.takesFrame] using enough)
            carries awaits
      | reads tunError =>
          rw [List.foldl_cons]
          cases frames with
          | nil =>
              rw [rxPass_of_empty tunFd tunError carries awaits]
              exact inductionHypothesis state (by simp) (Nat.zero_le _) carries
                awaits
          | cons stamped frames =>
              have passes := lengths stamped List.mem_cons_self
              obtain ⟨handled, remains⟩ :=
                rxPass_of_frame tunFd tunError passes.fits carries awaits
              obtain ⟨drained, recorded, written⟩ :=
                inductionHypothesis _
                  (fun other listed =>
                    lengths other (List.mem_cons_of_mem _ listed))
                  (by simpa [List.countP_cons, RxPass.takesFrame] using enough)
                  remains handled.phase
              refine ⟨drained, ?_, fun isOpen => ?_⟩
              · rw [recorded, handled.recorded, if_pos passes]
                simp
              · rw [written isOpen, handled.written,
                  if_pos ⟨passes, isOpen⟩]
                simp

end

/--
However the stream of frames with packets of 20 to 1500 bytes is cut into
segments, and whatever timeouts come between the frames, the receiver calls
`pdr_update` with the numbers of the frames and `tun_write` with their
packets, in order.
-/
theorem framing_roundTrip
    (nodeId : UInt8)
    (tunFd : Int)
    (frames : List StampedFrame)
    (segments : List (List UInt8))
    (passes : List RxPass)
    (buffer : Nat → UInt8)
    (errnoAgain : Bool)
    (lengths :
      ∀ stamped ∈ frames,
        20 ≤ stamped.packet.data.length ∧
          stamped.packet.data.length ≤ 1500)
    (carries : segments.flatten = wire nodeId frames)
    (enough : frames.length ≤ passes.countP RxPass.takesFrame) :
    let final :=
      passes.foldl (rxPass tunFd)
        { state := rxStart buffer errnoAgain
          segments := segments }
    final.state.recorded =
        frames.map (fun stamped => (nodeId, stamped.frame.msgId)) ∧
      (0 ≤ tunFd →
        final.state.written =
          frames.map fun stamped => stamped.packet.data) := by
  have allPass : ∀ stamped ∈ frames, stamped.Passes := by
    intro stamped listed
    obtain ⟨header, short⟩ := lengths stamped listed
    exact ⟨by omega, short⟩
  obtain ⟨_, recorded, written⟩ :=
    rxLoop_of_wire tunFd (rxStart buffer errnoAgain) passes allPass enough
      carries rfl
  exact ⟨recorded, written⟩

/-- Node 1 sends a packet to node 2 and one to node 3. -/
def sendsTwoPackets : List StampedFrame :=
  [{ frame :=
       { seqNum := 1
         msgId := 0
         packet := { data := ipPacket 1 2, dstId := 2 } }
     timestamp := 0x41d9eda0a0000000 },
   { frame :=
       { seqNum := 2
         msgId := 1
         packet := { data := ipPacket 2 3, dstId := 3 } }
     timestamp := 0x41d9eda0a0000000 }]

/-- A segment ends inside the first length and the next one in a header. -/
def cutInLength : List (List UInt8) :=
  [(wire 1 sendsTwoPackets).take 2,
    ((wire 1 sendsTwoPackets).drop 2).take 50,
    ((wire 1 sendsTwoPackets).drop 2).drop 50]

theorem flatten_cutInLength :
    cutInLength.flatten = wire 1 sendsTwoPackets := by
  rw [cutInLength, List.flatten_cons, List.flatten_cons, List.flatten_cons,
    List.flatten_nil, List.append_nil, List.take_append_drop,
    List.take_append_drop]

/-- Both packets arrive, with a timeout between them. -/
theorem framing_roundTrip_cutInLength :
    let final :=
      [RxPass.reads none, .timesOut, .reads none].foldl (rxPass 5)
        { state := rxStart (fun _ => 0) false
          segments := cutInLength }
    final.state.recorded = [(1, 0), (1, 1)] ∧
      final.state.written = [ipPacket 1 2, ipPacket 2 3] := by
  obtain ⟨recorded, written⟩ :=
    framing_roundTrip 1 5 sendsTwoPackets cutInLength
      [.reads none, .timesOut, .reads none] (fun _ => 0) false (by decide)
      flatten_cutInLength (by decide)
  exact ⟨recorded, written (by decide)⟩

end RoutingMesh
