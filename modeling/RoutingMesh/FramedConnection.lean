import RoutingMesh.DataFraming

/-!
# A connection with short transfers

`tx_loop` ignores how many bytes `send` took, and `tcp_rx_peer_loop` decides
after a short read of the length by an `errno` that may be that of an earlier
call.  The stream stays aligned as long as nothing is sent after a short send
and no part of a length is lost while `errno` says to try again.
-/

namespace RoutingMesh

open ByteBlocks ByteStream

/-- The bytes that `recv` takes from the stream. -/
def RecvResult.taken : RecvResult → List UInt8
  | failed _ => []
  | returned bytes => bytes

/--
One connection: the receiver, the bytes that `send` took and `recv` did not
return yet, and whether the sender's end is open.  For the record also whether
a send was short, the frames of which `send` took bytes, and what was read.
-/
structure Connection where
  rx : RxState
  unread : List UInt8
  senderOpen : Bool
  shortSent : Bool
  sent : List StampedFrame
  consumed : List UInt8

/-- A new connection; the buffer and `errno` are what the thread left. -/
def connectionStart
    (buffer : Nat → UInt8)
    (errnoAgain : Bool) : Connection where
  rx := rxStart buffer errnoAgain
  unread := []
  senderOpen := true
  shortSent := false
  sent := []
  consumed := []

/--
The steps of the two ends: a send that returns -1 or the number of bytes it
took, and a read, with the `errno` of a `tun_write` that fails after it.
-/
inductive ConnAction where
  | sendFails
  | send (stamped : StampedFrame) (count : Nat)
  | recv (result : RecvResult) (tunError : Option Bool)

/-- One step of the sender `nodeId` or of the receiver. -/
def connStep
    (nodeId : UInt8)
    (tunFd : Int)
    (conn : Connection) : ConnAction → Connection
  | .sendFails => { conn with senderOpen := false }
  | .send stamped count =>
      -- A short count is not looked at.
      { conn with
        unread := conn.unread ++ (stamped.bytes nodeId).take count
        shortSent :=
          conn.shortSent || decide (count < (stamped.bytes nodeId).length)
        sent := conn.sent ++ [stamped] }
  | .recv result tunError =>
      { conn with
        rx := rxStep tunFd tunError conn.rx result
        unread := conn.unread.drop result.taken.length
        consumed := conn.consumed ++ result.taken }

/--
What can happen: `send` takes between one byte and the whole frame, `recv`
returns at most what it asks for, and nothing only at the end of the stream.
-/
def ConnEnabled
    (nodeId : UInt8)
    (conn : Connection) : ConnAction → Prop
  | .sendFails => conn.senderOpen = true
  | .send stamped count =>
      conn.senderOpen = true ∧ stamped.Fits ∧
        1 ≤ count ∧ count ≤ (stamped.bytes nodeId).length
  | .recv (.failed _) _ => conn.rx.phase ≠ .closed
  | .recv (.returned bytes) _ =>
      conn.rx.phase ≠ .closed ∧ bytes <+: conn.unread ∧
        bytes.length ≤ conn.rx.phase.wanted ∧
        (bytes = [] → conn.unread = [] ∧ conn.senderOpen = false)

/--
After a short send nothing is sent to an open receiver, and no read of a
length returns a part of it while `errno` says to try again.
-/
def KeepsFraming (conn : Connection) : ConnAction → Prop
  | .sendFails => True
  | .send _ _ => conn.shortSent = true → conn.rx.phase = .closed
  | .recv (.failed _) _ => True
  | .recv (.returned bytes) _ =>
      conn.rx.phase = .awaitingLength → conn.rx.errnoAgain = true →
        bytes.length = 0 ∨ bytes.length = 4

instance (stamped : StampedFrame) : Decidable stamped.Fits :=
  inferInstanceAs (Decidable (_ ≤ _))

instance
    (nodeId : UInt8)
    (conn : Connection) :
    DecidablePred (ConnEnabled nodeId conn)
  | .sendFails => inferInstanceAs (Decidable (_ = _))
  | .send _ _ => inferInstanceAs (Decidable (_ ∧ _))
  | .recv (.failed _) _ => inferInstanceAs (Decidable (_ ≠ _))
  | .recv (.returned _) _ => inferInstanceAs (Decidable (_ ∧ _))

instance (conn : Connection) : DecidablePred (KeepsFraming conn)
  | .sendFails => .isTrue trivial
  | .send _ _ => inferInstanceAs (Decidable (_ → _))
  | .recv (.failed _) _ => .isTrue trivial
  | .recv (.returned _) _ => inferInstanceAs (Decidable (_ → _))

/-- The packets of some frames. -/
def packetsOf (frames : List StampedFrame) : List (List UInt8) :=
  frames.map fun stamped => stamped.packet.data

theorem packetsOf_append (first second : List StampedFrame) :
    packetsOf (first ++ second) = packetsOf first ++ packetsOf second :=
  List.map_append

/--
What the TUN gets are packets that were sent, in order, and the receiver waits
for a length only where a frame begins.
-/
structure FramingHolds
    (nodeId : UInt8)
    (conn : Connection) : Prop where
  delivered : conn.rx.written.Sublist (packetsOf conn.sent)
  aligned :
    conn.rx.phase = .awaitingLength →
      ∃ received,
        received <+: conn.sent ∧ conn.consumed = wire nodeId received

/-! ## Where the receiver stands in the stream -/

/-- The unread bytes come first here, and are all if no send was short. -/
structure Connection.Carries
    (conn : Connection)
    (bytes : List UInt8) : Prop where
  isPrefix : conn.unread <+: bytes
  whole : conn.shortSent = false → conn.unread = bytes

/-- The receiver is before a frame, behind the length of one, or closed. -/
inductive InFrames
    (nodeId : UInt8)
    (conn : Connection) : Prop where
  | before
      (received waiting : List StampedFrame)
      (phase : conn.rx.phase = .awaitingLength)
      (sent : conn.sent = received ++ waiting)
      (written : conn.rx.written.Sublist (packetsOf received))
      (consumed : conn.consumed = wire nodeId received)
      (carries : conn.Carries (wire nodeId waiting))
  | inside
      (received waiting : List StampedFrame)
      (current : StampedFrame)
      (phase : conn.rx.phase = .awaitingBody current.totalLen)
      (sent : conn.sent = received ++ current :: waiting)
      (written : conn.rx.written.Sublist (packetsOf received))
      (consumed :
        conn.consumed =
          wire nodeId received ++
            networkOrder 4 (UInt64.ofNat current.totalLen))
      (carries :
        conn.Carries (current.body nodeId ++ wire nodeId waiting))
  | closed
      (phase : conn.rx.phase = .closed)
      (written : conn.rx.written.Sublist (packetsOf conn.sent))

/-- The invariant of a connection; every frame on it is one that was queued. -/
structure Framed
    (nodeId : UInt8)
    (conn : Connection) : Prop where
  fits : ∀ stamped ∈ conn.sent, stamped.Fits
  inFrames : InFrames nodeId conn

section

variable {nodeId : UInt8}
variable {tunFd : Int}
variable {conn : Connection}

theorem framed_connectionStart
    (buffer : Nat → UInt8)
    (errnoAgain : Bool) :
    Framed nodeId (connectionStart buffer errnoAgain) where
  fits := by simp [connectionStart]
  inFrames :=
    .before [] [] rfl rfl (List.Sublist.refl []) rfl
      ⟨⟨[], rfl⟩, fun _ => rfl⟩

/-- The invariant gives the property. -/
theorem Framed.framingHolds
    (framed : Framed nodeId conn) :
    FramingHolds nodeId conn := by
  cases framed.inFrames with
  | before received waiting phase sent written consumed carries =>
      refine ⟨?_, fun _ => ⟨received, ⟨waiting, sent.symm⟩, consumed⟩⟩
      rw [sent, packetsOf_append]
      exact written.trans (List.sublist_append_left _ _)
  | inside received waiting current phase sent written consumed carries =>
      refine ⟨?_, fun awaits => ?_⟩
      · rw [sent, packetsOf_append]
        exact written.trans (List.sublist_append_left _ _)
      · rw [phase] at awaits
        cases awaits
  | closed phase written =>
      refine ⟨written, fun awaits => ?_⟩
      rw [phase] at awaits
      cases awaits

/-! ## Sending -/

/-- A frame goes behind a stream that is not cut. -/
theorem Connection.Carries.send
    {bytes : List UInt8}
    (carries : conn.Carries bytes)
    (notCut : conn.shortSent = false)
    (stamped : StampedFrame)
    (count : Nat) :
    (connStep nodeId tunFd conn (.send stamped count)).Carries
      (bytes ++ stamped.bytes nodeId) := by
  have unread :
      (connStep nodeId tunFd conn (.send stamped count)).unread =
        bytes ++ (stamped.bytes nodeId).take count := by
    rw [← carries.whole notCut]
    rfl
  constructor
  · rw [unread]
    refine ⟨(stamped.bytes nodeId).drop count, ?_⟩
    rw [List.append_assoc, List.take_append_drop]
  · intro notShort
    have taken : (stamped.bytes nodeId).length ≤ count := by
      simpa [connStep, notCut] using notShort
    rw [unread, List.take_of_length_le taken]

/-- A frame is sent while no earlier one was cut, or to a closed receiver. -/
theorem Framed.send
    (framed : Framed nodeId conn)
    (stamped : StampedFrame)
    (count : Nat)
    (fits : stamped.Fits)
    (keeps : conn.shortSent = true → conn.rx.phase = .closed) :
    Framed nodeId (connStep nodeId tunFd conn (.send stamped count)) := by
  have allFit :
      ∀ other ∈ conn.sent ++ [stamped], other.Fits := by
    intro other listed
    rcases List.mem_append.mp listed with earlier | last
    · exact framed.fits other earlier
    · rw [List.mem_singleton.mp last]
      exact fits
  have notCut_of_open :
      conn.rx.phase ≠ .closed → conn.shortSent = false := by
    intro isOpen
    by_contra cut
    rw [Bool.not_eq_false] at cut
    exact isOpen (keeps cut)
  refine ⟨allFit, ?_⟩
  cases framed.inFrames with
  | before received waiting phase sent written consumed carries =>
      have notCut : conn.shortSent = false :=
        notCut_of_open (by rw [phase]; simp)
      refine .before received (waiting ++ [stamped]) phase ?_ written consumed
        ?_
      · rw [← List.append_assoc, ← sent]
        rfl
      · rw [wire_append_singleton]
        exact carries.send notCut stamped count
  | inside received waiting current phase sent written consumed carries =>
      have notCut : conn.shortSent = false :=
        notCut_of_open (by rw [phase]; simp)
      refine .inside received (waiting ++ [stamped]) current phase ?_ written
        consumed ?_
      · rw [← List.cons_append, ← List.append_assoc, ← sent]
        rfl
      · rw [wire_append_singleton, ← List.append_assoc]
        exact carries.send notCut stamped count
  | closed phase written =>
      refine .closed phase (written.trans ?_)
      show (packetsOf conn.sent).Sublist (packetsOf (conn.sent ++ [stamped]))
      rw [packetsOf_append]
      exact List.sublist_append_left _ _

/-! ## Receiving -/

/-- The stream after a read of what comes first in it. -/
theorem Connection.Carries.recv
    {result : RecvResult}
    {tunError : Option Bool}
    {leading trailing : List UInt8}
    (carries : conn.Carries (leading ++ trailing))
    (takes : result.taken = leading) :
    (connStep nodeId tunFd conn (.recv result tunError)).Carries trailing := by
  have unread :
      (connStep nodeId tunFd conn (.recv result tunError)).unread =
        conn.unread.drop leading.length := by
    rw [← takes]
    rfl
  constructor
  · rw [unread]
    exact drop_isPrefix carries.isPrefix
  · intro notShort
    rw [unread, carries.whole notShort, List.drop_left]

/-- A read that closes the connection delivers nothing. -/
theorem Framed.recv_closes
    (framed : Framed nodeId conn)
    {result : RecvResult}
    {tunError : Option Bool}
    (closes : (rxStep tunFd tunError conn.rx result).phase = .closed)
    (same : (rxStep tunFd tunError conn.rx result).written = conn.rx.written) :
    Framed nodeId (connStep nodeId tunFd conn (.recv result tunError)) := by
  refine ⟨framed.fits, .closed closes ?_⟩
  have delivered := framed.framingHolds.delivered
  rw [← same] at delivered
  exact delivered

/-- A read between frames that takes nothing may be tried again. -/
theorem Framed.recv_nothing
    (framed : Framed nodeId conn)
    {result : RecvResult}
    {tunError : Option Bool}
    (nothing : result.taken = [])
    (awaited : conn.rx.phase = .awaitingLength)
    (awaits :
      (rxStep tunFd tunError conn.rx result).phase = .awaitingLength)
    (same : (rxStep tunFd tunError conn.rx result).written = conn.rx.written) :
    Framed nodeId (connStep nodeId tunFd conn (.recv result tunError)) := by
  refine ⟨framed.fits, ?_⟩
  cases framed.inFrames with
  | before received waiting phase sent written consumed carries =>
      refine .before received waiting awaits sent ?_ ?_ ?_
      · rw [← same] at written
        exact written
      · show conn.consumed ++ result.taken = _
        rw [nothing, List.append_nil, consumed]
      · have nothingFirst : conn.Carries ([] ++ wire nodeId waiting) := carries
        exact nothingFirst.recv nothing
  | inside received waiting current phase =>
      rw [awaited] at phase
      cases phase
  | closed phase =>
      rw [awaited] at phase
      cases phase

/-- A complete length is that of the next frame. -/
theorem Framed.recv_length
    (framed : Framed nodeId conn)
    {bytes : List UInt8}
    (tunError : Option Bool)
    (awaits : conn.rx.phase = .awaitingLength)
    (isRead : bytes <+: conn.unread)
    (complete : bytes.length = 4) :
    Framed nodeId
      (connStep nodeId tunFd conn (.recv (.returned bytes) tunError)) := by
  refine ⟨framed.fits, ?_⟩
  cases framed.inFrames with
  | before received waiting phase sent written consumed carries =>
      cases waiting with
      | nil =>
          -- There is nothing to read.
          obtain ⟨later, shape⟩ := isRead.trans carries.isPrefix
          obtain ⟨rfl, _⟩ := List.append_eq_nil_iff.mp shape
          cases complete
      | cons current rest =>
          have onWire :
              wire nodeId (current :: rest) =
                networkOrder 4 (UInt64.ofNat current.totalLen) ++
                  (current.body nodeId ++ wire nodeId rest) := by
            rw [wire_cons, StampedFrame.bytes, List.append_assoc]
          rw [onWire] at carries
          obtain rfl : bytes = networkOrder 4 (UInt64.ofNat current.totalLen) :=
            eq_leading_of_isPrefix isRead carries.isPrefix (by simpa using complete)
          have fits : current.Fits :=
            framed.fits current (by rw [sent]; simp)
          have announced :
              rxStep tunFd tunError conn.rx
                  (.returned
                    (networkOrder 4 (UInt64.ofNat current.totalLen))) =
                { conn.rx with phase := .awaitingBody current.totalLen } := by
            rw [rxStep, awaits]
            exact readLength_of_frame fits conn.rx
          refine .inside received rest current ?_ sent ?_ ?_
            (carries.recv rfl)
          · simp only [connStep, announced]
          · simp only [connStep, announced]
            exact written
          · simp only [connStep, consumed, RecvResult.taken]
  | inside received waiting current phase =>
      rw [awaits] at phase
      cases phase
  | closed phase =>
      rw [awaits] at phase
      cases phase

/-- A complete body is that of the frame, and at most its packet is delivered. -/
theorem Framed.recv_body
    (framed : Framed nodeId conn)
    {pktLen : Nat}
    {bytes : List UInt8}
    (tunError : Option Bool)
    (awaits : conn.rx.phase = .awaitingBody pktLen)
    (isRead : bytes <+: conn.unread)
    (complete : bytes.length = pktLen) :
    Framed nodeId
      (connStep nodeId tunFd conn (.recv (.returned bytes) tunError)) := by
  refine ⟨framed.fits, ?_⟩
  cases framed.inFrames with
  | inside received waiting current phase sent written consumed carries =>
      obtain rfl : current.totalLen = pktLen := by
        rw [phase] at awaits
        exact RxPhase.awaitingBody.inj awaits
      obtain rfl : bytes = current.body nodeId :=
        eq_leading_of_isPrefix isRead carries.isPrefix
          (complete.trans (current.length_body nodeId).symm)
      have fits : current.Fits :=
        framed.fits current (by rw [sent]; simp)
      have handled :
          BodyHandled nodeId tunFd current conn.rx
            (rxStep tunFd tunError conn.rx
              (.returned (current.body nodeId))) := by
        rw [rxStep, awaits]
        exact readBody_of_frame nodeId tunFd tunError conn.rx fits
      refine .before (received ++ [current]) waiting handled.phase ?_ ?_ ?_
        (carries.recv rfl)
      · rw [List.append_assoc]
        exact sent
      · show (rxStep tunFd tunError conn.rx _).written.Sublist _
        rw [handled.written, packetsOf_append]
        refine written.append ?_
        split
        · exact List.Sublist.refl _
        · exact List.nil_sublist _
      · simp only [connStep, consumed, RecvResult.taken,
          wire_append_singleton, StampedFrame.bytes, List.append_assoc]
  | before received waiting phase =>
      rw [awaits] at phase
      cases phase
  | closed phase =>
      rw [awaits] at phase
      cases phase

/-- Every read that loses no part of a length keeps the invariant. -/
theorem Framed.recv
    (framed : Framed nodeId conn)
    {result : RecvResult}
    {tunError : Option Bool}
    (allowed : ConnEnabled nodeId conn (.recv result tunError))
    (keeps : KeepsFraming conn (.recv result tunError)) :
    Framed nodeId (connStep nodeId tunFd conn (.recv result tunError)) := by
  cases result with
  | failed again =>
      cases phase : conn.rx.phase with
      | awaitingLength =>
          cases again with
          | true =>
              exact framed.recv_nothing rfl phase
                (by simp [rxStep, phase, readLength])
                (by simp [rxStep, phase, readLength])
          | false =>
              exact framed.recv_closes
                (by simp [rxStep, phase, readLength])
                (by simp [rxStep, phase, readLength])
      | awaitingBody pktLen =>
          exact framed.recv_closes
            (by simp [rxStep, phase, readBody])
            (by simp [rxStep, phase, readBody])
      | closed =>
          exact absurd phase allowed
  | returned bytes =>
      obtain ⟨isOpen, isRead, _, _⟩ := allowed
      cases phase : conn.rx.phase with
      | awaitingLength =>
          by_cases complete : bytes.length = 4
          · exact framed.recv_length tunError phase isRead complete
          · cases stale : conn.rx.errnoAgain with
            | true =>
                have nothing : bytes = [] := by
                  rcases keeps phase stale with empty | whole
                  · exact List.eq_nil_of_length_eq_zero empty
                  · exact absurd whole complete
                exact framed.recv_nothing nothing phase
                  (by simp [rxStep, phase, readLength, complete, stale])
                  (by simp [rxStep, phase, readLength, complete])
            | false =>
                exact framed.recv_closes
                  (by simp [rxStep, phase, readLength, complete, stale])
                  (by simp [rxStep, phase, readLength, complete])
      | awaitingBody pktLen =>
          by_cases complete : bytes.length = pktLen
          · exact framed.recv_body tunError phase isRead complete
          · exact framed.recv_closes
              (by simp [rxStep, phase, readBody, complete])
              (by simp [rxStep, phase, readBody, complete])
      | closed =>
          exact absurd phase isOpen

/-- Every step that keeps the framing keeps the invariant. -/
theorem Framed.step
    (framed : Framed nodeId conn)
    {action : ConnAction}
    (allowed : ConnEnabled nodeId conn action)
    (keeps : KeepsFraming conn action) :
    Framed nodeId (connStep nodeId tunFd conn action) := by
  cases action with
  | sendFails =>
      refine ⟨framed.fits, ?_⟩
      cases framed.inFrames with
      | before received waiting phase sent written consumed carries =>
          exact .before received waiting phase sent written consumed
            ⟨carries.isPrefix, carries.whole⟩
      | inside received waiting current phase sent written consumed carries =>
          exact .inside received waiting current phase sent written consumed
            ⟨carries.isPrefix, carries.whole⟩
      | closed phase written =>
          exact .closed phase written
  | send stamped count =>
      exact framed.send stamped count allowed.2.1 keeps
  | recv result tunError =>
      exact framed.recv allowed keeps

end

/--
In every run that sends nothing behind a short send and loses no part of a
length, the packets that the receiver writes to the TUN are a subsequence of
those that were sent, and it begins every frame where a frame begins.
-/
theorem framing_holds
    (nodeId : UInt8)
    (tunFd : Int)
    (buffer : Nat → UInt8)
    (errnoAgain : Bool)
    {conn : Connection}
    (reachable :
      StepRun.Reachable (connStep nodeId tunFd)
        (fun conn action =>
          ConnEnabled nodeId conn action ∧ KeepsFraming conn action)
        (connectionStart buffer errnoAgain) conn) :
    FramingHolds nodeId conn := by
  have framed : Framed nodeId conn :=
    reachable.invariant (Framed nodeId)
      (framed_connectionStart buffer errnoAgain)
      (fun framed allowed => framed.step allowed.1 allowed.2)
  exact framed.framingHolds

/-- Frame `identification` of node 1, with a packet for node 2. -/
def frameToSecond (identification : UInt8) : StampedFrame where
  frame :=
    { seqNum := 1
      msgId := identification.toUInt16
      packet := { data := ipPacket identification 2, dstId := 2 } }
  timestamp := 0x41d9eda0a0000000

/-- The second frame is cut, and the sender stops. -/
def stopsAfterShortSend : List ConnAction :=
  let first := (frameToSecond 1).bytes 1
  let second := ((frameToSecond 2).bytes 1).take 44
  [.send (frameToSecond 1) 48,
    .recv (.returned (first.take 4)) none,
    .send (frameToSecond 2) 44,
    .recv (.returned (first.drop 4)) none,
    .sendFails,
    .recv (.failed true) none,
    .recv (.returned (second.take 4)) none,
    .recv (.returned (second.drop 4)) none]

/-- The first packet is delivered, and the receiver closes. -/
theorem framing_holds_stopsAfterShortSend :
    FramingHolds 1
      (stopsAfterShortSend.foldl (connStep 1 5)
        (connectionStart (fun _ => 0) false)) :=
  framing_holds 1 5 (fun _ => 0) false
    ⟨stopsAfterShortSend, StepRun.Run.of_checkRun (by decide +kernel)⟩

/-- The first frame is cut, and the second is sent all the same. -/
def sendsAfterShortSend : List ConnAction :=
  let stream :=
    ((frameToSecond 1).bytes 1).take 44 ++ (frameToSecond 2).bytes 1
  [.send (frameToSecond 1) 44,
    .send (frameToSecond 2) 48,
    .recv (.returned (stream.take 4)) none,
    .recv (.returned ((stream.drop 4).take 44)) none]

/-- The receiver then writes a packet that ends in the length of the second. -/
theorem framing_fails_sendsAfterShortSend :
    ¬ ∀ conn,
      StepRun.Reachable (connStep 1 5) (ConnEnabled 1)
        (connectionStart (fun _ => 0) false) conn →
      FramingHolds 1 conn := by
  intro always
  have delivered :=
    (always
      (sendsAfterShortSend.foldl (connStep 1 5)
        (connectionStart (fun _ => 0) false))
      ⟨sendsAfterShortSend,
        StepRun.Run.of_checkRun (by decide +kernel)⟩).delivered
  revert delivered
  decide +kernel

end RoutingMesh
