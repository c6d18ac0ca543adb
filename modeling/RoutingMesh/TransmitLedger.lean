import Mathlib.Data.List.Count
import RoutingMesh.TransmitOrder

/-!
# Every packet is accounted for

A packet that the TUN gave is handed to TCP, in hand, in the queue, or lost
for one of five reasons, and only once: a packet that is put back neither
vanishes nor is sent again.  A full queue loses its oldest packet, and it is
full only with as many packets as it has room for.  Memory is taken to be
there: when `malloc` fails, `tx_queue_push` drops its packet too.
-/

namespace RoutingMesh

/-- Why a packet will not be sent. -/
inductive LossReason where
  /-- `tun_reader_loop` does not push it. -/
  | notForwarded
  /-- `tx_queue_push` does not take its length. -/
  | refused
  /-- It is the oldest of a full queue. -/
  | displaced
  /-- There is no route to its destination. -/
  | unrouted
  /-- The next hop has no address or no connection, or `send` failed. -/
  | unsent
  deriving DecidableEq, Repr

/-- A packet that is lost. -/
structure Loss where
  reason : LossReason
  packet : TxPacket
  deriving DecidableEq, Repr

/-- The lengths that `tx_queue_push` takes. -/
def TxPacket.Accepted (pkt : TxPacket) : Prop :=
  pkt.data.length ≠ 0 ∧ pkt.data.length ≤ txQueueMaxPktSize

/-- What a push loses. -/
def pushLosses (queue : List TxPacket) (pkt : TxPacket) : List Loss :=
  if pkt.data.length = 0 ∨ pkt.data.length > txQueueMaxPktSize then
    [⟨.refused, pkt⟩]
  else if queue.length ≥ txQueueCapacity then
    (queue.take 1).map (Loss.mk .displaced)
  else
    []

/-- What a step loses. -/
def lossesOf
    (nodeId : UInt8)
    (state : TxState) : TxAction → List Loss
  | .tunRead data ready =>
      let pkt := TxPacket.ofTun data
      if pkt.dstId ≠ 0 ∧ pkt.dstId ≠ nodeId ∧ ready = true then
        pushLosses state.queue pkt
      else
        [⟨.notForwarded, pkt⟩]
  | .handle slotEnded nextHop outcome =>
      match state.phase with
      | .holding pkt bytesSent =>
          if slotEnded then
            pushLosses state.queue pkt
          else if nextHop = 0 then
            [⟨.unrouted, pkt⟩]
          else if overBudget bytesSent pkt then
            pushLosses state.queue pkt
          else
            match outcome with
            | .sent _ => []
            | _ => [⟨.unsent, pkt⟩]
      | _ => []
  | _ => []

/-- What a run loses. -/
def lossesDuring
    (nodeId : UInt8)
    (actions : List TxAction) : List Loss :=
  StepRun.trace (txStep nodeId) (lossesOf nodeId) txStart actions

/-! ## The queue -/

/-- A push adds its packet to those that wait and to those that are lost. -/
theorem count_txQueuePush
    (queue : List TxPacket)
    (pkt counted : TxPacket) :
    (txQueuePush queue pkt).count counted +
        ((pushLosses queue pkt).map Loss.packet).count counted =
      queue.count counted + [pkt].count counted := by
  unfold txQueuePush pushLosses
  split
  · rfl
  · unfold makeRoom
    rw [List.count_append]
    split
    · cases queue with
      | nil =>
          simp
      | cons oldest rest =>
          simp only [List.tail_cons, List.take_succ_cons, List.take_zero,
            List.map_cons, List.map_nil, List.count_cons, List.count_nil]
          omega
    · rfl

theorem length_txQueuePush_le
    {queue : List TxPacket}
    (bounded : queue.length ≤ txQueueCapacity)
    (pkt : TxPacket) :
    (txQueuePush queue pkt).length ≤ txQueueCapacity := by
  have positive : 0 < txQueueCapacity := by decide
  unfold txQueuePush makeRoom
  split
  · exact bounded
  · split
    · rw [List.length_append, List.length_tail, List.length_singleton]
      omega
    · rw [List.length_append, List.length_singleton]
      omega

theorem accepted_of_mem_txQueuePush
    {queue : List TxPacket}
    {pkt other : TxPacket}
    (waits : other ∈ txQueuePush queue pkt) :
    other ∈ queue ∨ other = pkt ∧ pkt.Accepted := by
  unfold txQueuePush at waits
  split at waits
  · exact .inl waits
  · rename_i taken
    rw [not_or, Nat.not_lt] at taken
    rcases List.mem_append.mp waits with older | isPushed
    · exact .inl ((sublist_makeRoom queue).subset older)
    · exact .inr ⟨List.mem_singleton.mp isPushed, taken⟩

/-- A full queue has as many packets as there is room for. -/
theorem displaced_of_mem_pushLosses
    {queue : List TxPacket}
    (bounded : queue.length ≤ txQueueCapacity)
    {pkt : TxPacket}
    {loss : Loss}
    (listed : loss ∈ pushLosses queue pkt)
    (isDisplaced : loss.reason = .displaced) :
    queue.length = txQueueCapacity ∧ queue.head? = some loss.packet := by
  unfold pushLosses at listed
  split at listed
  · obtain rfl := List.mem_singleton.mp listed
    contradiction
  · split at listed
    · rename_i full
      refine ⟨Nat.le_antisymm bounded full, ?_⟩
      obtain ⟨oldest, isOldest, rfl⟩ := List.mem_map.mp listed
      cases queue with
      | nil =>
          simp at isOldest
      | cons first rest =>
          have isFirst : oldest = first := by simpa using isOldest
          rw [isFirst]
          rfl
    · simp at listed

/-! ## The ledger -/

/-- What the packets that were read have become, and what still waits. -/
structure Ledger
    (nodeId : UInt8)
    (losses : List Loss)
    (state : TxState) : Prop where
  accounted :
    ∀ counted,
      state.readPackets.count counted =
        state.pipeline.count counted +
          (losses.map Loss.packet).count counted
  bounded : state.queue.length ≤ txQueueCapacity
  accepted :
    ∀ pkt ∈ state.phase.inHand ++ state.queue,
      pkt.Accepted ∧ pkt.dstId ≠ 0 ∧ pkt.dstId ≠ nodeId

section

variable {nodeId : UInt8}
variable {losses : List Loss}
variable {state : TxState}

/-- A packet from the TUN. -/
theorem Ledger.tunRead
    (ledger : Ledger nodeId losses state)
    (data : List UInt8)
    (ready : Bool) :
    Ledger nodeId (losses ++ lossesOf nodeId state (.tunRead data ready))
      (txStep nodeId state (.tunRead data ready)) := by
  by_cases isPushed :
      (TxPacket.ofTun data).dstId ≠ 0 ∧
        (TxPacket.ofTun data).dstId ≠ nodeId ∧ ready = true
  · simp only [lossesOf, txStep, if_pos isPushed]
    constructor
    · intro counted
      have before := ledger.accounted counted
      have pushed := count_txQueuePush state.queue (TxPacket.ofTun data) counted
      simp only [TxState.pipeline, List.count_append, List.map_append]
        at before ⊢
      omega
    · exact length_txQueuePush_le ledger.bounded _
    · intro pkt waits
      rcases List.mem_append.mp waits with inHand | inQueue
      · exact ledger.accepted pkt (List.mem_append_left _ inHand)
      · rcases accepted_of_mem_txQueuePush inQueue with older | ⟨rfl, isAccepted⟩
        · exact ledger.accepted pkt (List.mem_append_right _ older)
        · exact ⟨isAccepted, isPushed.1, isPushed.2.1⟩
  · simp only [lossesOf, txStep, if_neg isPushed]
    constructor
    · intro counted
      have before := ledger.accounted counted
      simp only [TxState.pipeline, List.count_append, List.map_append,
        List.map_singleton] at before ⊢
      omega
    · exact ledger.bounded
    · exact ledger.accepted

/-- A packet goes back to the queue, and maybe the oldest is lost. -/
theorem Ledger.putBack
    (ledger : Ledger nodeId losses state)
    {pkt : TxPacket}
    {bytesSent : Nat}
    (inHand : state.phase = .holding pkt bytesSent)
    {numbered : TxState}
    (sameQueue : numbered.queue = state.queue)
    (sameHanded : numbered.handed = state.handed)
    (sameRead : numbered.readPackets = state.readPackets) :
    Ledger nodeId (losses ++ pushLosses state.queue pkt)
      (numbered.putBack pkt) := by
  constructor
  · intro counted
    have before := ledger.accounted counted
    have pushed := count_txQueuePush state.queue pkt counted
    simp only [TxState.pipeline, TxState.putBack, TxPhase.inHand, inHand,
      sameQueue, sameHanded, sameRead, List.count_append, List.map_append,
      List.count_nil] at before ⊢
    omega
  · simp only [TxState.putBack, sameQueue]
    exact length_txQueuePush_le ledger.bounded pkt
  · intro other waits
    simp only [TxState.putBack, TxPhase.inHand, sameQueue,
      List.nil_append] at waits
    rcases accepted_of_mem_txQueuePush waits with older | ⟨rfl, -⟩
    · exact ledger.accepted other (List.mem_append_right _ older)
    · apply ledger.accepted
      rw [inHand]
      exact List.mem_append_left _ (List.mem_singleton_self other)

/-- The packet in hand is lost for a reason. -/
theorem Ledger.drop
    (ledger : Ledger nodeId losses state)
    {pkt : TxPacket}
    {bytesSent : Nat}
    (inHand : state.phase = .holding pkt bytesSent)
    (reason : LossReason)
    {next : TxState}
    (isPhase : next.phase = .draining bytesSent)
    (sameQueue : next.queue = state.queue)
    (sameHanded : next.handed = state.handed)
    (sameRead : next.readPackets = state.readPackets) :
    Ledger nodeId (losses ++ [⟨reason, pkt⟩]) next := by
  constructor
  · intro counted
    have before := ledger.accounted counted
    simp only [TxState.pipeline, TxPhase.inHand, inHand, isPhase, sameQueue,
      sameHanded, sameRead, List.count_append, List.map_append,
      List.map_singleton, List.count_nil] at before ⊢
    omega
  · rw [sameQueue]
    exact ledger.bounded
  · intro other waits
    rw [isPhase, sameQueue] at waits
    exact ledger.accepted other (List.mem_append_right _ waits)

/-- The packet in hand is handed to TCP. -/
theorem Ledger.hand
    (ledger : Ledger nodeId losses state)
    {pkt : TxPacket}
    {bytesSent : Nat}
    (inHand : state.phase = .holding pkt bytesSent)
    {frame : DataFrame}
    (isPacket : frame.packet = pkt)
    {bytes : Nat}
    {next : TxState}
    (isPhase : next.phase = .draining bytes)
    (sameQueue : next.queue = state.queue)
    (handed : next.handed = state.handed ++ [frame])
    (sameRead : next.readPackets = state.readPackets) :
    Ledger nodeId (losses ++ []) next := by
  rw [List.append_nil]
  constructor
  · intro counted
    have before := ledger.accounted counted
    simp only [TxState.pipeline, TxPhase.inHand, inHand, isPhase, sameQueue,
      handed, sameRead, isPacket, List.count_append, List.map_append,
      List.map_singleton, List.count_nil] at before ⊢
    omega
  · rw [sameQueue]
    exact ledger.bounded
  · intro other waits
    rw [isPhase, sameQueue] at waits
    exact ledger.accepted other (List.mem_append_right _ waits)

/-- The body of the drain loop. -/
theorem Ledger.handle
    (ledger : Ledger nodeId losses state)
    {pkt : TxPacket}
    {bytesSent : Nat}
    (inHand : state.phase = .holding pkt bytesSent)
    (slotEnded : Bool)
    (nextHop : UInt8)
    (outcome : SendOutcome) :
    Ledger nodeId
      (losses ++
        lossesOf nodeId state (.handle slotEnded nextHop outcome))
      (handlePacket state pkt bytesSent slotEnded nextHop outcome) := by
  simp only [lossesOf, inHand]
  unfold handlePacket
  split
  · exact ledger.putBack inHand rfl rfl rfl
  · split
    · exact ledger.drop inHand .unrouted rfl rfl rfl rfl
    · dsimp only
      split
      · exact ledger.putBack inHand rfl rfl rfl
      · cases outcome with
        | sent bytes =>
            exact ledger.hand inHand rfl rfl rfl rfl rfl
        | unknownAddress =>
            exact ledger.drop inHand .unsent rfl rfl rfl rfl
        | noConnection =>
            exact ledger.drop inHand .unsent rfl rfl rfl rfl
        | failed =>
            exact ledger.drop inHand .unsent rfl rfl rfl rfl

/-- Every step of either thread. -/
theorem Ledger.step
    (ledger : Ledger nodeId losses state)
    (action : TxAction) :
    Ledger nodeId (losses ++ lossesOf nodeId state action)
      (txStep nodeId state action) := by
  cases action with
  | tunRead data ready =>
      exact ledger.tunRead data ready
  | beginSlot =>
      simp only [lossesOf, txStep, List.append_nil]
      split
      · rename_i between
        refine ⟨fun counted => ?_, ledger.bounded, fun pkt waits => ?_⟩
        · rw [ledger.accounted counted]
          simp only [TxState.pipeline, between, TxPhase.inHand]
        · exact ledger.accepted pkt (List.mem_append_right _ waits)
      · exact ledger
  | pop =>
      simp only [lossesOf, txStep, List.append_nil]
      split
      · rename_i bytesSent pkt rest drains waits
        refine ⟨fun counted => ?_, ?_, fun other listed => ?_⟩
        · rw [ledger.accounted counted]
          simp [TxState.pipeline, drains, waits, TxPhase.inHand]
        · have bounded := ledger.bounded
          rw [waits, List.length_cons] at bounded
          exact (Nat.le_succ _).trans bounded
        · apply ledger.accepted other
          rw [drains, waits]
          exact listed
      · rename_i bytesSent drains empty
        refine ⟨fun counted => ?_, ledger.bounded, fun other listed => ?_⟩
        · rw [ledger.accounted counted]
          simp only [TxState.pipeline, drains, TxPhase.inHand]
        · exact ledger.accepted other (List.mem_append_right _ listed)
      · exact ledger
  | handle slotEnded nextHop outcome =>
      by_cases holds : ∃ pkt bytesSent, state.phase = .holding pkt bytesSent
      · obtain ⟨pkt, bytesSent, inHand⟩ := holds
        have isHandled :
            txStep nodeId state (.handle slotEnded nextHop outcome) =
              handlePacket state pkt bytesSent slotEnded nextHop outcome := by
          simp only [txStep, inHand]
        rw [isHandled]
        exact ledger.handle inHand slotEnded nextHop outcome
      · cases phase : state.phase with
        | holding pkt bytesSent =>
            exact absurd ⟨pkt, bytesSent, phase⟩ holds
        | outside =>
            simpa [lossesOf, txStep, phase] using ledger
        | draining bytesSent =>
            simpa [lossesOf, txStep, phase] using ledger

end

theorem ledger_txStart (nodeId : UInt8) : Ledger nodeId [] txStart where
  accounted _ := rfl
  bounded := by simp [txStart]
  accepted := by simp [txStart, TxPhase.inHand]

/-- The ledger of a run. -/
theorem ledger_of_run
    {nodeId : UInt8}
    {actions : List TxAction}
    {state : TxState}
    (run : StepRun.Run (txStep nodeId) TxEnabled txStart actions state) :
    Ledger nodeId (lossesDuring nodeId actions) state :=
  run.invariant_trace (Ledger nodeId) (ledger_txStart nodeId)
    fun ledger _ => ledger.step _

/-- A displaced packet was the oldest of a full queue. -/
theorem displaced_of_mem_lossesOf
    {nodeId : UInt8}
    {state : TxState}
    (bounded : state.queue.length ≤ txQueueCapacity)
    {action : TxAction}
    {loss : Loss}
    (listed : loss ∈ lossesOf nodeId state action)
    (isDisplaced : loss.reason = .displaced) :
    state.queue.length = txQueueCapacity ∧
      state.queue.head? = some loss.packet := by
  unfold lossesOf at listed
  split at listed
  · dsimp only at listed
    split at listed
    · exact displaced_of_mem_pushLosses bounded listed isDisplaced
    · obtain rfl := List.mem_singleton.mp listed
      contradiction
  · split at listed
    · split at listed
      · exact displaced_of_mem_pushLosses bounded listed isDisplaced
      · split at listed
        · obtain rfl := List.mem_singleton.mp listed
          contradiction
        · split at listed
          · exact displaced_of_mem_pushLosses bounded listed isDisplaced
          · split at listed
            · simp at listed
            · obtain rfl := List.mem_singleton.mp listed
              contradiction
    · simp at listed
  · simp at listed

/--
In every run, however slots end and packets are put back: the packets that the
TUN gave are, each exactly once, those handed to TCP, the one in hand, those
that wait and those that are lost; no more wait than there is room for, and
what waits or is in hand has a length that the queue takes, so that putting
it back never loses it; a packet is displaced only as the oldest of a full
queue.
-/
theorem packets_accountedFor
    (nodeId : UInt8)
    {actions : List TxAction}
    {state : TxState}
    (run : StepRun.Run (txStep nodeId) TxEnabled txStart actions state) :
    let losses := lossesDuring nodeId actions
    state.readPackets.Perm
        (state.handed.map DataFrame.packet ++ state.phase.inHand ++
          state.queue ++ losses.map Loss.packet) ∧
      state.queue.length ≤ txQueueCapacity ∧
      (∀ pkt ∈ state.phase.inHand ++ state.queue,
        pkt ∈ txQueuePush state.queue pkt ∧
          pkt.dstId ≠ 0 ∧ pkt.dstId ≠ nodeId) ∧
      ∀ loss ∈ losses, loss.reason = .displaced →
        ∃ leading action,
          leading ++ [action] <+: actions ∧
            (leading.foldl (txStep nodeId) txStart).queue.length =
              txQueueCapacity ∧
            (leading.foldl (txStep nodeId) txStart).queue.head? =
              some loss.packet := by
  intro losses
  have ledger := ledger_of_run run
  refine ⟨?_, ledger.bounded, fun pkt waits => ?_,
    fun loss listed isDisplaced => ?_⟩
  · rw [List.perm_iff_count]
    intro counted
    rw [ledger.accounted counted, List.count_append]
    rfl
  · obtain ⟨⟨notEmpty, notLong⟩, others⟩ := ledger.accepted pkt waits
    refine ⟨?_, others⟩
    have taken :
        ¬ (pkt.data.length = 0 ∨ pkt.data.length > txQueueMaxPktSize) :=
      not_or.mpr ⟨notEmpty, Nat.not_lt.mpr notLong⟩
    rw [txQueuePush, if_neg taken]
    exact List.mem_append_right _ (List.mem_singleton_self pkt)
  · obtain ⟨leading, action, isPrefix, recorded⟩ :=
      StepRun.exists_of_mem_trace listed
    have before := ledger_of_run (run.step_before isPrefix).1
    exact ⟨leading, action, isPrefix,
      displaced_of_mem_lossesOf before.bounded recorded isDisplaced⟩

/-- Two packets are read, and the first is put back behind the second. -/
def putsBackThenSends : List TxAction :=
  [.tunRead (ipPacket 1 2) true, .tunRead (ipPacket 2 2) true,
    .tunRead (ipPacket 3 2) false, .beginSlot, .pop, .handle true 2 .failed,
    .beginSlot, .pop, .handle false 2 (.sent 48), .pop,
    .handle false 2 .noConnection]

/-- Of three packets one is handed to TCP and two are lost. -/
theorem packets_accountedFor_putsBackThenSends :
    ((putsBackThenSends.foldl (txStep 1) txStart).readPackets.Perm
        ((putsBackThenSends.foldl (txStep 1) txStart).handed.map
            DataFrame.packet ++
          (putsBackThenSends.foldl (txStep 1) txStart).phase.inHand ++
          (putsBackThenSends.foldl (txStep 1) txStart).queue ++
          (lossesDuring 1 putsBackThenSends).map Loss.packet)) ∧
      (lossesDuring 1 putsBackThenSends).map Loss.reason =
        [.notForwarded, .unsent] := by
  have run :
      StepRun.Run (txStep 1) TxEnabled txStart putsBackThenSends
        (putsBackThenSends.foldl (txStep 1) txStart) :=
    .of_checkRun (by decide)
  obtain ⟨accounted, -⟩ := packets_accountedFor 1 run
  exact ⟨accounted, by decide⟩

end RoutingMesh
