import RoutingMesh.ChainQueue
import RoutingMesh.TransmitOrder

/-!
# The transmit queue on the heap

`tx_queue.c` keeps its packets in a linked list with a head, a tail and a
count.  Each node is numbered here when it is appended, and its number is
noted when it leaves the list, dropped, popped or flushed.  Whatever the
calls, the list is that of a bounded queue that drops its oldest packet, and
the numbers leave in order, each once.
-/

namespace RoutingMesh

open LinkedChain ChainQueue

/-- A packet with the number of its node. -/
structure TxEntry where
  number : Nat
  packet : TxPacket
  deriving DecidableEq, Repr

/-- How a node leaves the list. -/
inductive Leaving where
  | dropped
  | popped
  | flushed
  deriving DecidableEq, Repr

/-- A node that left the list. -/
structure Departure where
  how : Leaving
  entry : TxEntry
  deriving DecidableEq, Repr

/--
`tx_queue_t` and the heap of its nodes; the numbers given out, the departures,
and the nodes that were popped and not freed yet.
-/
structure HeapQueue (Addr : Type) extends Ends Addr TxEntry where
  count : Int
  pushed : Nat
  departures : List Departure
  held : List Addr

/-- `tx_queue_create`. -/
def txQueueCreate (Addr : Type) : HeapQueue Addr where
  heap := fun _ => none
  head := none
  tail := none
  count := 0
  pushed := 0
  departures := []
  held := []

/--
A call of the queue.  `addr` is where `malloc` puts the node of a packet that
is accepted; `release` is the `free` of a popped node by its owner.
-/
inductive QueueCall (Addr : Type) where
  | push (addr : Addr) (data : List UInt8) (dstId : UInt8)
  | pop
  | flush
  | release (addr : Addr)
  deriving DecidableEq, Repr

section

variable {Addr : Type} [DecidableEq Addr]

/-- `free`. -/
def HeapQueue.free
    (queue : HeapQueue Addr)
    (addr : Addr) : HeapQueue Addr :=
  { queue with toEnds := queue.toEnds.set addr none }

/-- The first node leaves: `head` moves on, and `tail` is cleared with it. -/
def HeapQueue.unlinkFirst
    (queue : HeapQueue Addr)
    (how : Leaving)
    (cell : Cell Addr TxEntry) : HeapQueue Addr :=
  { queue with
    toEnds := queue.toEnds.dropFirst cell.next
    count := queue.count - 1
    departures := queue.departures ++ [⟨how, cell.value⟩] }

/-- The full queue gives up its oldest node; reading NULL gives no result. -/
def HeapQueue.makeRoom
    (queue : HeapQueue Addr) : Option (HeapQueue Addr) :=
  if queue.count ≥ txQueueCapacity then do
    let old ← queue.head
    let cell ← queue.heap old
    some ((queue.unlinkFirst .dropped cell).free old)
  else
    some queue

/-- The node that `malloc` returned, with the packet, goes behind the tail. -/
def HeapQueue.append
    (queue : HeapQueue Addr)
    (addr : Addr)
    (packet : TxPacket) : Option (HeapQueue Addr) := do
  let ends ← queue.toEnds.append addr ⟨queue.pushed, packet⟩
  some
    { queue with
      toEnds := ends
      pushed := queue.pushed + 1
      count := queue.count + 1 }

/-- The length of a packet that is not ignored. -/
def Accepted (data : List UInt8) : Prop :=
  ¬ (data.length = 0 ∨ data.length > txQueueMaxPktSize)

instance : DecidablePred Accepted :=
  fun _ => inferInstanceAs (Decidable (¬ _))

/-- `tx_queue_push`. -/
def HeapQueue.push
    (queue : HeapQueue Addr)
    (addr : Addr)
    (data : List UInt8)
    (dstId : UInt8) : Option (HeapQueue Addr) :=
  if data.length = 0 ∨ data.length > txQueueMaxPktSize then
    some queue
  else do
    let roomy ← queue.makeRoom
    roomy.append addr ⟨data, dstId⟩

/-- `tx_queue_pop`; the caller holds what it returns. -/
def HeapQueue.pop
    (queue : HeapQueue Addr) : Option (HeapQueue Addr) :=
  match queue.head with
  | none => some queue
  | some pkt => do
      let cell ← queue.heap pkt
      let rest := queue.unlinkFirst .popped cell
      some
        { rest with
          toEnds := rest.toEnds.set pkt (some { cell with next := none })
          held := queue.held ++ [pkt] }

/-- `tx_queue_flush`, with at most `fuel` rounds of its loop. -/
def HeapQueue.flush
    (fuel : Nat)
    (queue : HeapQueue Addr) : Option (HeapQueue Addr) := do
  let (heap, entries) ← freeAll fuel queue.heap queue.head
  some
    { queue with
      heap := heap
      head := none
      tail := none
      count := 0
      departures :=
        queue.departures ++ entries.map fun entry => ⟨.flushed, entry⟩ }

/-- What a call makes of the queue, if it reads only allocated nodes. -/
def HeapQueue.perform
    (fuel : Nat)
    (queue : HeapQueue Addr) : QueueCall Addr → Option (HeapQueue Addr)
  | .push addr data dstId => queue.push addr data dstId
  | .pop => queue.pop
  | .flush => queue.flush fuel
  | .release addr =>
      some
        { queue.free addr with
          held := queue.held.filter fun other => other ≠ addr }

/-- A call as a step; one without a result leaves the queue. -/
def queueStep
    (fuel : Nat)
    (queue : HeapQueue Addr)
    (call : QueueCall Addr) : HeapQueue Addr :=
  (queue.perform fuel call).getD queue

/--
`malloc` returns an address that is free when it is called, after a node was
dropped, and only popped nodes are freed by their owner.
-/
def Allowed
    (queue : HeapQueue Addr) : QueueCall Addr → Prop
  | .push addr data _ =>
      Accepted data →
        ∀ roomy ∈ queue.makeRoom, roomy.heap addr = none
  | .pop => True
  | .flush => True
  | .release addr => addr ∈ queue.held

instance (queue : HeapQueue Addr) (call : QueueCall Addr) :
    Decidable (Allowed queue call) :=
  match call with
  | .push addr data _ =>
      inferInstanceAs
        (Decidable
          (Accepted data → ∀ roomy ∈ queue.makeRoom, roomy.heap addr = none))
  | .pop => isTrue trivial
  | .flush => isTrue trivial
  | .release addr => inferInstanceAs (Decidable (addr ∈ queue.held))

end

/-! ## The abstract queue -/

/-- What a call makes of a bounded queue that drops its oldest packet. -/
def fifoStep {Addr : Type}
    (packets : List TxPacket) : QueueCall Addr → List TxPacket
  | .push _ data dstId => txQueuePush packets ⟨data, dstId⟩
  | .pop => packets.tail
  | .flush => []
  | .release _ => packets

/-- The packets that the calls append. -/
def acceptedPackets {Addr : Type} :
    List (QueueCall Addr) → List TxPacket :=
  List.filterMap fun
    | .push _ data dstId =>
        if Accepted data then some ⟨data, dstId⟩ else none
    | _ => none

/-- Packets with the numbers of their nodes. -/
def numbered (packets : List TxPacket) : List TxEntry :=
  packets.zipIdx.map fun (packet, number) => ⟨number, packet⟩

/-! ## What the list represents -/

section

variable {Addr : Type}

/-- The packets of the nodes of a list. -/
def listedPackets (nodes : List (Addr × TxEntry)) : List TxPacket :=
  nodes.map fun node => node.2.packet

/-- The nodes that were ever in the list: those that left and those in it. -/
def HeapQueue.everListed
    (queue : HeapQueue Addr)
    (nodes : List (Addr × TxEntry)) : List TxEntry :=
  queue.departures.map Departure.entry ++ nodes.map Prod.snd

/-- The list has these nodes, and the fields of the queue agree with it. -/
structure Represents
    (queue : HeapQueue Addr)
    (nodes : List (Addr × TxEntry)) : Prop where
  linked : Linked queue.toEnds nodes
  count : queue.count = nodes.length
  bounded : nodes.length ≤ txQueueCapacity
  held :
    ∀ addr ∈ queue.held,
      queue.heap addr ≠ none ∧ addr ∉ addresses nodes

/-- The nodes that a call appends. -/
def appended
    (number : Nat) : QueueCall Addr → List TxEntry
  | .push _ data dstId =>
      if Accepted data then [⟨number, ⟨data, dstId⟩⟩] else []
  | _ => []

/-- A call has a result, which represents what the abstract queue becomes. -/
structure Simulates
    (call : QueueCall Addr)
    (before : HeapQueue Addr)
    (nodes : List (Addr × TxEntry))
    (after : HeapQueue Addr)
    (nodesAfter : List (Addr × TxEntry)) : Prop where
  represents : Represents after nodesAfter
  packets : listedPackets nodesAfter = fifoStep (listedPackets nodes) call
  everListed :
    after.everListed nodesAfter =
      before.everListed nodes ++ appended before.pushed call
  pushed :
    after.pushed = before.pushed + (appended before.pushed call).length

theorem represents_create : Represents (txQueueCreate Addr) [] where
  linked := linked_nil _
  count := rfl
  bounded := Nat.zero_le _
  held := by simp [txQueueCreate]

/-- The tail is null exactly when the head is. -/
theorem Represents.tail_eq_none_iff
    {queue : HeapQueue Addr}
    {nodes : List (Addr × TxEntry)}
    (represents : Represents queue nodes) :
    queue.tail = none ↔ queue.head = none := by
  rw [represents.linked.tail, represents.linked.head_eq_none_iff]
  simp

/-- A node that leaves the list was in it. -/
theorem everListed_unlinkFirst
    {queue : HeapQueue Addr}
    {first : Addr × TxEntry}
    {rest : List (Addr × TxEntry)}
    (how : Leaving)
    (next : Option Addr) :
    (queue.unlinkFirst how ⟨first.2, next⟩).everListed rest =
      queue.everListed (first :: rest) := by
  simp [HeapQueue.everListed, HeapQueue.unlinkFirst]

end

section

variable {Addr : Type} [DecidableEq Addr]
variable {queue : HeapQueue Addr}
variable {nodes : List (Addr × TxEntry)}

/-- The rest of the list remains when its first node is changed or freed. -/
theorem Represents.unlinkFirst
    {first : Addr × TxEntry}
    {rest : List (Addr × TxEntry)}
    {next : Option Addr}
    (represents : Represents queue (first :: rest))
    (restLinked : Linked (queue.toEnds.dropFirst next) rest)
    (notLater : first.1 ∉ addresses rest)
    (how : Leaving)
    (cell : Option (Cell Addr TxEntry))
    (held : List Addr)
    (isHeld :
      ∀ addr ∈ held,
        Function.update queue.heap first.1 cell addr ≠ none ∧
          addr ∉ addresses rest) :
    Represents
      { queue.unlinkFirst how ⟨first.2, next⟩ with
        toEnds := (queue.toEnds.dropFirst next).set first.1 cell
        held := held }
      rest where
  linked := restLinked.set notLater cell
  count := by
    have counted := represents.count
    rw [List.length_cons] at counted
    simp only [HeapQueue.unlinkFirst, counted]
    push_cast
    omega
  bounded := by
    have bounded := represents.bounded
    rw [List.length_cons] at bounded
    omega
  held := isHeld

/-- What is held stays apart when the first node is changed or freed. -/
theorem Represents.held_update_first
    {first : Addr × TxEntry}
    {rest : List (Addr × TxEntry)}
    (represents : Represents queue (first :: rest))
    {addr : Addr}
    (isHeld : addr ∈ queue.held)
    (cell : Option (Cell Addr TxEntry)) :
    Function.update queue.heap first.1 cell addr ≠ none ∧
      addr ∉ addresses rest := by
  obtain ⟨allocated, notListed⟩ := represents.held addr isHeld
  have different : addr ≠ first.1 := by
    rintro rfl
    exact notListed List.mem_cons_self
  rw [Function.update_of_ne different]
  exact ⟨allocated, fun later => notListed (List.mem_cons_of_mem _ later)⟩

/-- A full queue makes room by dropping its first node. -/
theorem Represents.makeRoom
    (represents : Represents queue nodes) :
    ∃ roomy nodesAfter,
      queue.makeRoom = some roomy ∧
        Represents roomy nodesAfter ∧
        nodesAfter.length < txQueueCapacity ∧
        listedPackets nodesAfter = RoutingMesh.makeRoom (listedPackets nodes) ∧
        roomy.everListed nodesAfter = queue.everListed nodes ∧
        roomy.pushed = queue.pushed := by
  have sameTest :
      queue.count ≥ txQueueCapacity ↔
        (listedPackets nodes).length ≥ txQueueCapacity := by
    rw [represents.count, listedPackets, List.length_map]
    exact Int.ofNat_le
  unfold HeapQueue.makeRoom RoutingMesh.makeRoom
  by_cases full : (listedPackets nodes).length ≥ txQueueCapacity
  · rw [if_pos (sameTest.mpr full), if_pos full]
    cases nodes with
    | nil =>
        simp [listedPackets, txQueueCapacity] at full
    | cons first rest =>
        obtain ⟨next, points, holds, notLater, restLinked⟩ :=
          represents.linked.dropFirst
        refine ⟨(queue.unlinkFirst .dropped ⟨first.2, next⟩).free first.1,
          rest, ?_, ?_, represents.bounded, rfl,
          everListed_unlinkFirst .dropped next, rfl⟩
        · simp [points, holds]
        · apply represents.unlinkFirst restLinked notLater .dropped none
            queue.held
          intro addr isHeld
          exact represents.held_update_first isHeld none
  · rw [if_neg (mt sameTest.mp full), if_neg full]
    refine ⟨queue, nodes, rfl, represents, ?_, rfl, rfl, rfl⟩
    simpa [listedPackets] using full

/-- A new node goes to the end of a list that has room for it. -/
theorem Represents.append
    (represents : Represents queue nodes)
    (hasRoom : nodes.length < txQueueCapacity)
    {addr : Addr}
    (fresh : queue.heap addr = none)
    (packet : TxPacket) :
    ∃ after,
      queue.append addr packet = some after ∧
        Represents after (nodes ++ [(addr, ⟨queue.pushed, packet⟩)]) ∧
        after.departures = queue.departures ∧
        after.pushed = queue.pushed + 1 := by
  have elsewhere : addr ∉ addresses nodes :=
    fun listed => represents.linked.chain.allocated listed fresh
  obtain ⟨ends, appends, linked, kept⟩ :=
    represents.linked.append elsewhere ⟨queue.pushed, packet⟩
  refine
    ⟨{ queue with
       toEnds := ends
       pushed := queue.pushed + 1
       count := queue.count + 1 },
      by rw [HeapQueue.append, appends]; rfl, ?_, rfl, rfl⟩
  constructor
  · exact linked
  · simp [represents.count]
  · rw [List.length_append]
    exact hasRoom
  · -- The heap is as before for the popped nodes, which are not listed.
    intro other isHeld
    obtain ⟨allocated, notListed⟩ := represents.held other isHeld
    have different : other ≠ addr := by
      rintro rfl
      exact allocated fresh
    refine ⟨?_, by simpa [addresses, different] using notListed⟩
    exact fun isFree =>
      allocated ((kept other notListed different).symm.trans isFree)

/-! ## Every call -/

/-- `tx_queue_push` appends, after it made room. -/
theorem simulates_push
    (represents : Represents queue nodes)
    {addr : Addr}
    {data : List UInt8}
    {dstId : UInt8}
    (allowed : Allowed queue (.push addr data dstId)) :
    ∃ after nodesAfter,
      queue.push addr data dstId = some after ∧
        Simulates (.push addr data dstId) queue nodes after nodesAfter := by
  by_cases accepted : Accepted data
  · obtain ⟨roomy, shorter, makesRoom, roomyRepresents, hasRoom, packets,
      everListed, pushed⟩ := represents.makeRoom
    have fresh : roomy.heap addr = none :=
      allowed accepted roomy makesRoom
    obtain ⟨after, appends, afterRepresents, departures, counted⟩ :=
      roomyRepresents.append hasRoom fresh ⟨data, dstId⟩
    refine ⟨after, _, ?_, afterRepresents, ?_, ?_, ?_⟩
    · rw [HeapQueue.push, if_neg accepted, makesRoom]
      exact appends
    · rw [fifoStep, txQueuePush, if_neg accepted, ← packets]
      simp [listedPackets]
    · rw [← everListed, appended, if_pos accepted, HeapQueue.everListed,
        HeapQueue.everListed, departures, pushed]
      simp
    · rw [counted, pushed, appended, if_pos accepted]
      rfl
  · have ignored :
        data.length = 0 ∨ data.length > txQueueMaxPktSize :=
      not_not.mp accepted
    refine ⟨queue, nodes, ?_, represents, ?_, ?_, ?_⟩
    · rw [HeapQueue.push, if_pos ignored]
    · rw [fifoStep, txQueuePush, if_pos ignored]
    · rw [appended, if_neg accepted, List.append_nil]
    · rw [appended, if_neg accepted]
      rfl

/-- `tx_queue_pop` takes the first node, if there is one. -/
theorem simulates_pop
    (represents : Represents queue nodes) :
    ∃ after nodesAfter,
      queue.pop = some after ∧
        Simulates .pop queue nodes after nodesAfter := by
  cases nodes with
  | nil =>
      have noHead := represents.linked.head_eq_none_iff.mpr rfl
      refine ⟨queue, [], ?_, represents, rfl, ?_, rfl⟩
      · rw [HeapQueue.pop, noHead]
      · exact (List.append_nil _).symm
  | cons first rest =>
      obtain ⟨next, points, holds, notLater, restLinked⟩ :=
        represents.linked.dropFirst
      refine ⟨_, rest, ?_,
        represents.unlinkFirst restLinked notLater .popped
          (some ⟨first.2, none⟩) (queue.held ++ [first.1]) ?_, rfl, ?_, rfl⟩
      · simp only [HeapQueue.pop, points, holds]
        rfl
      · intro addr isHeld
        rcases List.mem_append.mp isHeld with earlier | new
        · exact represents.held_update_first earlier _
        · obtain rfl := List.mem_singleton.mp new
          rw [Function.update_self]
          exact ⟨by simp, notLater⟩
      · exact (everListed_unlinkFirst .popped next).trans
          (List.append_nil _).symm

/-- `tx_queue_flush` frees every node. -/
theorem simulates_flush
    {fuel : Nat}
    (enough : txQueueCapacity ≤ fuel)
    (represents : Represents queue nodes) :
    ∃ after nodesAfter,
      queue.flush fuel = some after ∧
        Simulates .flush queue nodes after nodesAfter := by
  obtain ⟨freed, loop, frees⟩ :=
    freeAll_eq_some represents.linked.chain (represents.bounded.trans enough)
  refine ⟨{ queue with
              heap := freed
              head := none
              tail := none
              count := 0
              departures :=
                queue.departures ++
                  (nodes.map Prod.snd).map fun entry => ⟨.flushed, entry⟩ },
    [], ?_, ?_, rfl, ?_, rfl⟩
  · rw [HeapQueue.flush, loop]
    rfl
  · constructor
    · exact linked_nil _
    · rfl
    · exact Nat.zero_le _
    · intro addr isHeld
      obtain ⟨allocated, notListed⟩ := represents.held addr isHeld
      have kept : freed addr = queue.heap addr := by
        rw [frees addr, if_neg notListed]
      exact ⟨fun isFree => allocated (kept.symm.trans isFree),
        by simp [addresses]⟩
  · simp [HeapQueue.everListed, appended, Function.comp_def]

/-- The owner of a popped node frees it. -/
theorem simulates_release
    (represents : Represents queue nodes)
    {addr : Addr}
    (isHeld : addr ∈ queue.held) :
    Simulates (.release addr) queue nodes
      { queue.free addr with
        held := queue.held.filter fun other => other ≠ addr }
      nodes where
  represents :=
    { linked := represents.linked.set (represents.held addr isHeld).2 none
      count := represents.count
      bounded := represents.bounded
      held := by
        intro other otherHeld
        obtain ⟨listed, different⟩ := List.mem_filter.mp otherHeld
        obtain ⟨allocated, notListed⟩ := represents.held other listed
        have kept :
            (queue.free addr).heap other = queue.heap other :=
          Function.update_of_ne (by simpa using different) _ _
        exact ⟨fun isFree => allocated (kept.symm.trans isFree), notListed⟩ }
  packets := rfl
  everListed := (List.append_nil _).symm
  pushed := rfl

/-- Every call that is allowed has a result, and simulates the abstract one. -/
theorem simulates_perform
    {fuel : Nat}
    (enough : txQueueCapacity ≤ fuel)
    (represents : Represents queue nodes)
    {call : QueueCall Addr}
    (allowed : Allowed queue call) :
    ∃ after nodesAfter,
      queue.perform fuel call = some after ∧
        Simulates call queue nodes after nodesAfter := by
  cases call with
  | push addr data dstId => exact simulates_push represents allowed
  | pop => exact simulates_pop represents
  | flush => exact simulates_flush enough represents
  | release addr =>
      exact ⟨_, nodes, rfl, simulates_release represents allowed⟩

end

/-! ## Every run -/

/-- What the queue is after the calls of a run. -/
structure RefinesFifo {Addr : Type}
    (calls : List (QueueCall Addr))
    (queue : HeapQueue Addr)
    (nodes : List (Addr × TxEntry)) : Prop where
  represents : Represents queue nodes
  packets : listedPackets nodes = calls.foldl fifoStep []
  everListed :
    queue.everListed nodes = numbered (acceptedPackets calls)
  pushed : queue.pushed = (acceptedPackets calls).length

section

variable {Addr : Type}

theorem numbered_append_singleton
    (packets : List TxPacket)
    (packet : TxPacket) :
    numbered (packets ++ [packet]) =
      numbered packets ++ [⟨packets.length, packet⟩] := by
  simp [numbered, List.zipIdx_append]

/-- The nodes that a call appends get the next numbers. -/
theorem numbered_acceptedPackets_append
    (calls : List (QueueCall Addr))
    (call : QueueCall Addr) :
    numbered (acceptedPackets (calls ++ [call])) =
        numbered (acceptedPackets calls) ++
          appended (acceptedPackets calls).length call ∧
      (acceptedPackets (calls ++ [call])).length =
        (acceptedPackets calls).length +
          (appended (acceptedPackets calls).length call).length := by
  rw [acceptedPackets, List.filterMap_append]
  cases call with
  | push addr data dstId =>
      by_cases accepted : Accepted data
      · simp [appended, accepted, numbered_append_singleton]
      · simp [appended, accepted]
  | pop => simp [appended]
  | flush => simp [appended]
  | release addr => simp [appended]

variable [DecidableEq Addr]

/-- After every run the list is that of the abstract queue. -/
theorem exists_refinesFifo
    {fuel : Nat}
    (enough : txQueueCapacity ≤ fuel)
    {calls : List (QueueCall Addr)}
    {queue : HeapQueue Addr}
    (run :
      StepRun.Run (queueStep fuel) Allowed (txQueueCreate Addr) calls queue) :
    ∃ nodes, RefinesFifo calls queue nodes := by
  induction run with
  | start =>
      exact ⟨[], represents_create, rfl, rfl, rfl⟩
  | @next calls queue call earlier allowed inductionHypothesis =>
      obtain ⟨nodes, refines⟩ := inductionHypothesis
      obtain ⟨after, nodesAfter, performs, simulates⟩ :=
        simulates_perform enough refines.represents allowed
      obtain ⟨entries, count⟩ := numbered_acceptedPackets_append calls call
      have isAfter : queueStep fuel queue call = after := by
        rw [queueStep, performs]
        rfl
      rw [isAfter]
      refine ⟨nodesAfter, simulates.represents, ?_, ?_, ?_⟩
      · rw [simulates.packets, refines.packets, List.foldl_append]
        rfl
      · rw [simulates.everListed, refines.everListed, refines.pushed, entries]
      · rw [simulates.pushed, refines.pushed, count]

end

/--
For every run of calls of the queue, with `malloc` succeeding: from the head a
finite list is found through `next`, its packets are those of the bounded
queue that drops its oldest, `tail` is its last node and null exactly when
`head` is, `count` is its length and at most TX_QUEUE_CAPACITY, the nodes that
left and those that are listed are the appended ones, each once and in order,
and every next call has a result.
-/
theorem txQueue_refinesFifo
    {Addr : Type}
    [DecidableEq Addr]
    (fuel : Nat)
    (enough : txQueueCapacity ≤ fuel)
    (calls : List (QueueCall Addr))
    (queue : HeapQueue Addr)
    (run :
      StepRun.Run (queueStep fuel) Allowed (txQueueCreate Addr) calls queue) :
    ∃ nodes,
      Chain queue.heap queue.head nodes ∧
        listedPackets nodes = calls.foldl fifoStep [] ∧
        queue.tail = nodes.getLast?.map Prod.fst ∧
        (queue.tail = none ↔ queue.head = none) ∧
        queue.count = nodes.length ∧
        queue.count ≤ txQueueCapacity ∧
        queue.departures.map Departure.entry ++ nodes.map Prod.snd =
          numbered (acceptedPackets calls) ∧
        ∀ call, Allowed queue call →
          (queue.perform fuel call).isSome := by
  obtain ⟨nodes, refines⟩ := exists_refinesFifo enough run
  have represents := refines.represents
  refine ⟨nodes, represents.linked.chain, refines.packets,
    represents.linked.tail,
    represents.tail_eq_none_iff, represents.count, ?_, refines.everListed, ?_⟩
  · rw [represents.count]
    exact Int.ofNat_le.mpr represents.bounded
  · intro call allowed
    obtain ⟨after, _, performs, _⟩ :=
      simulates_perform enough represents allowed
    rw [performs]
    rfl

/-- A packet of one byte to node 2, and where `malloc` puts it. -/
def pushByte (addr : Nat) (byte : Nat) : QueueCall Nat :=
  .push addr [UInt8.ofNat byte] 2

/--
64 packets fill the queue, the next one takes the place of the first on the
heap as well, one is popped, and what it leaves is used again.
-/
def fillsQueue : List (QueueCall Nat) :=
  (List.range 64).map (fun k => pushByte k k) ++
    [pushByte 0 64, .pop, .push 64 [] 2, .release 1, pushByte 1 65]

/-- The packets 2 to 65 are listed, in order. -/
theorem txQueue_refinesFifo_fillsQueue :
    ∃ nodes,
      Chain (fillsQueue.foldl (queueStep 64) (txQueueCreate Nat)).heap
          (fillsQueue.foldl (queueStep 64) (txQueueCreate Nat)).head nodes ∧
        listedPackets nodes =
          (List.range 64).map fun k =>
            { data := [UInt8.ofNat (k + 2)], dstId := 2 } := by
  obtain ⟨nodes, chain, packets, -⟩ :=
    txQueue_refinesFifo 64 le_rfl fillsQueue _
      (StepRun.Run.of_checkRun (by decide +kernel))
  exact ⟨nodes, chain, packets.trans (by decide +kernel)⟩

end RoutingMesh
