import RoutingMesh.LockDiscipline
import RoutingMesh.NodeShutdown

/-!
# The mutexes of a node

Model of what the threads of one node do to mutexes: each function of the
source is the mutexes that it takes and gives up, on every path through it,
and the functions that it calls.  The mutex of the matrix is recursive, since
`matrix_update` calls two functions that take it again.
-/

namespace RoutingMesh

open LockDiscipline

/-- The mutexes; `txQueue` and `events` are the `lock` of the two queues. -/
inductive Mutex where
  | matrix
  | routing
  | tcp
  | events
  | txQueue
  | slot
  | delay
  | wifi
  deriving DecidableEq, Repr

/-- `MATRIX_init` makes one mutex recursive; no mutex is taken under another. -/
def mutexes : Locking Mutex where
  reentrant mutex := mutex = .matrix
  rank _ := 0

/-- One after the other. -/
def inOrder (parts : List (Code Mutex)) : Code Mutex :=
  parts.foldr .seq .skip

/-- Some code between `pthread_mutex_lock` and `pthread_mutex_unlock`. -/
def underMutex (mutex : Mutex) (body : Code Mutex) : Code Mutex :=
  inOrder [.acquire mutex, body, .release mutex]

/-- Some code on one of two paths. -/
def perhaps (body : Code Mutex) : Code Mutex :=
  .choose body .skip

/-! ## The functions that take mutexes -/

/-- `matrix.c`: a node that is not listed leaves early. -/
def matrixUpdateLinkQualityMutexes : Code Mutex :=
  .seq (.acquire .matrix)
    (.choose (.release .matrix) (.release .matrix))

def matrixSetLinkQualityMutexes : Code Mutex :=
  underMutex .matrix .skip

def matrixGetSnapshotMutexes : Code Mutex :=
  underMutex .matrix .skip

def matrixPrintMutexes : Code Mutex :=
  underMutex .matrix .skip

/-- A node by itself has no tree to look for, and leaves early. -/
def primAlgorithmWeightedMutexes : Code Mutex :=
  .seq (.acquire .matrix)
    (.choose (.release .matrix) (.release .matrix))

/-- The caller of `removeDeadLinks_locked`; without memory it leaves early. -/
def serializeMatrixMutexes : Code Mutex :=
  .seq (.acquire .matrix)
    (.choose (.release .matrix) (.release .matrix))

/-- `event_handler.c` -/
def eventQueuePushMutexes : Code Mutex :=
  underMutex .events .skip

/-- It waits while the queue is empty, and leaves early once it is stopped. -/
def eventQueuePopMutexes : Code Mutex :=
  inOrder
    [.acquire .events,
      .repeatedly (.wait .events),
      .choose (.release .events) (.release .events)]

/-- The event of a changed topology is pushed after the mutex is given up. -/
def matrixUpdateMutexes : Code Mutex :=
  inOrder
    [underMutex .matrix
        (.seq matrixUpdateLinkQualityMutexes primAlgorithmWeightedMutexes),
      perhaps eventQueuePushMutexes]

/-- `routing.c`: the three functions that the threads call. -/
def routingManagerRecomputeMutexes : Code Mutex :=
  underMutex .routing .skip

def routingManagerLookupMutexes : Code Mutex :=
  underMutex .routing .skip

def routingManagerPrintMutexes : Code Mutex :=
  underMutex .routing .skip

/-- `tx_queue.c`: no queue or a wrong length; no memory for the packet. -/
def txQueuePushMutexes : Code Mutex :=
  perhaps
    (.seq (.acquire .txQueue)
      (.choose (.release .txQueue) (.release .txQueue)))

def txQueuePopMutexes : Code Mutex :=
  perhaps (underMutex .txQueue .skip)

def txQueueSizeMutexes : Code Mutex :=
  perhaps (underMutex .txQueue .skip)

/-- `sync.c` -/
def syncGetSlotMutexes : Code Mutex :=
  underMutex .slot .skip

def syncInSlotMutexes : Code Mutex :=
  syncGetSlotMutexes

/-- `compute_delay` reads the slot before the delay is recorded. -/
def syncRecordDelayMutexes : Code Mutex :=
  .seq syncGetSlotMutexes (underMutex .delay .skip)

/-- The slot moves after the mutex of the delays is given up, if it moves. -/
def syncAdjustSlotMutexes : Code Mutex :=
  .seq (underMutex .delay .skip) (perhaps (underMutex .slot .skip))

/-- `wifi_quality.c`: a node number out of range leaves early. -/
def wifiQualityGetMutexes : Code Mutex :=
  perhaps (underMutex .wifi .skip)

/-- `pdr.c`: the quality is set for every few packets. -/
def pdrUpdateMutexes : Code Mutex :=
  perhaps matrixSetLinkQualityMutexes

/-- `node.c`, in several places: `tcp_sockfd` is read or changed. -/
def tcpSockfdMutexes : Code Mutex :=
  underMutex .tcp .skip

/-! ## The loops of the threads -/

/-- A beacon, a data packet, or neither. -/
def receiverLoopMutexes : Code Mutex :=
  .repeatedly
    (.choose
      (inOrder
        [syncRecordDelayMutexes,
          wifiQualityGetMutexes,
          perhaps matrixSetLinkQualityMutexes,
          matrixUpdateMutexes])
      (perhaps pdrUpdateMutexes))

/-- The data of a slot; the loop ends without a packet or puts one back. -/
def drainLoopMutexes : Code Mutex :=
  inOrder
    [.repeatedly
        (inOrder
          [txQueuePopMutexes,
            routingManagerLookupMutexes,
            perhaps (.seq tcpSockfdMutexes (perhaps tcpSockfdMutexes))]),
      txQueuePopMutexes,
      perhaps (.seq (perhaps routingManagerLookupMutexes) txQueuePushMutexes)]

/-- Outside the slot, in the slot a second time, or the turn. -/
def txLoopMutexes : Code Mutex :=
  .repeatedly
    (.seq syncInSlotMutexes
      (.choose
        (.repeatedly (perhaps matrixUpdateLinkQualityMutexes))
        (perhaps
          (inOrder
            [syncGetSlotMutexes,
              serializeMatrixMutexes,
              perhaps (.seq syncGetSlotMutexes matrixPrintMutexes),
              drainLoopMutexes,
              syncAdjustSlotMutexes,
              txQueueSizeMutexes]))))

/-- Every event recomputes the routes; a timeout closes a connection too. -/
def eventHandlerLoopMutexes : Code Mutex :=
  .seq
    (.repeatedly
      (inOrder
        [eventQueuePopMutexes,
          matrixGetSnapshotMutexes,
          routingManagerRecomputeMutexes,
          routingManagerPrintMutexes,
          perhaps tcpSockfdMutexes]))
    (perhaps eventQueuePopMutexes)

def tcpAcceptLoopMutexes : Code Mutex :=
  .repeatedly (perhaps tcpSockfdMutexes)

/-- A peer is looked up, and then connected, given up, or left as it is. -/
def tcpKeepaliveLoopMutexes : Code Mutex :=
  .repeatedly
    (.repeatedly
      (perhaps (.seq tcpSockfdMutexes (perhaps tcpSockfdMutexes))))

def tunReaderLoopMutexes : Code Mutex :=
  .repeatedly (perhaps (.seq txQueuePushMutexes txQueueSizeMutexes))

/-- The connection is given up, or a packet counted, or neither. -/
def tcpRxPeerLoopMutexes : Code Mutex :=
  .repeatedly
    (.seq tcpSockfdMutexes
      (perhaps (.choose tcpSockfdMutexes pdrUpdateMutexes)))

/-- The threads that `node_run` joins, and the one that it does not. -/
inductive NodeWorker where
  | joined (thread : NodeThread)
  | tcpAccept
  deriving DecidableEq, Repr

/-- What each thread runs; a thread that `node_run` does not create runs nothing. -/
def nodeRunMutexes
    (numNodes nodeId : Nat)
    (tcpServerOpen tunOpen : Bool) : NodeWorker → Code Mutex
  | .joined .receiver => receiverLoopMutexes
  | .joined .tx => txLoopMutexes
  | .joined .event => eventHandlerLoopMutexes
  | .joined .tun => if tunOpen then tunReaderLoopMutexes else .skip
  | .joined (.tcpRx peer) =>
      if 1 ≤ peer ∧ peer ≤ numNodes ∧ peer ≠ nodeId then
        tcpRxPeerLoopMutexes
      else
        .skip
  | .joined .tcpKeepalive => tcpKeepaliveLoopMutexes
  | .tcpAccept => if tcpServerOpen then tcpAcceptLoopMutexes else .skip

/-- Every thread keeps the discipline. -/
theorem check_nodeRunMutexes
    (numNodes nodeId : Nat)
    (tcpServerOpen tunOpen : Bool)
    (worker : NodeWorker) :
    check mutexes (nodeRunMutexes numNodes nodeId tcpServerOpen tunOpen worker)
      [] = some [] := by
  cases worker with
  | joined thread =>
      cases thread with
      | receiver => rfl
      | tx => rfl
      | event => rfl
      | tun => cases tunOpen <;> rfl
      | tcpRx peer =>
          simp only [nodeRunMutexes]
          split
          · rfl
          · rfl
      | tcpKeepalive => rfl
  | tcpAccept => cases tcpServerOpen <;> rfl

/-- With a mutex that is not recursive, `matrix_update` would wait for itself. -/
example :
    check { mutexes with reentrant := fun _ => false } matrixUpdateMutexes
      [] = none := by
  decide

/--
In every interleaving of the threads of a node: no two threads are in one
mutex; none gives up, or waits on a condition with, a mutex that it does not
hold; none holds two mutexes; and who waits for a mutex waits for another
thread that holds it, that does not wait on a condition, and that can go on.
-/
theorem mutexes_never_deadlock
    {numNodes nodeId : Nat}
    {tcpServerOpen tunOpen : Bool}
    {state : State NodeWorker Mutex}
    (reachable :
      StepRun.Reachable LockDiscipline.step (Enabled mutexes)
        (start (nodeRunMutexes numNodes nodeId tcpServerOpen tunOpen)) state) :
    (∀ first second mutex,
        mutex ∈ state.held first → mutex ∈ state.held second →
          first = second) ∧
      (∀ worker, ¬ Misuses (state.threads worker) (state.held worker)) ∧
      (∀ worker,
        ∀ first ∈ state.held worker, ∀ second ∈ state.held worker,
          first = second) ∧
      ∀ worker mutex,
        state.WaitsFor worker mutex →
          ¬ state.Free mutexes worker mutex →
            ∃ holder, holder ≠ worker ∧ mutex ∈ state.held holder ∧
              (state.threads holder).asleep = false ∧
              state.CanStep mutexes holder := by
  have orderly : Orderly mutexes state :=
    orderly_of_reachable
      (check_nodeRunMutexes numNodes nodeId tcpServerOpen tunOpen) reachable
  refine ⟨orderly.exclusive,
    fun worker => (orderly.disciplined worker).not_misuses,
    fun worker first firstHeld second secondHeld =>
      (orderly.disciplined worker).ranked first firstHeld second secondHeld rfl,
    fun worker mutex waits notFree => ?_⟩
  obtain ⟨⟨holder, isOther, holds⟩, -⟩ :=
    orderly.holder_of_not_free waits notFree
  exact ⟨holder, isOther, holds, (orderly.holder_active holds).1,
    orderly.canStep_of_holds (fun _ => Nat.le_refl _) holds⟩

/--
The keepalive thread has taken the mutex of the connections when the accept
thread comes to it, which waits for a thread that can go on.
-/
theorem mutexes_never_deadlock_acceptWaits :
    let state :=
      (List.replicate 6 (NodeWorker.joined .tcpKeepalive, true) ++
          List.replicate 3 (NodeWorker.tcpAccept, true)).foldl
        LockDiscipline.step (start (nodeRunMutexes 2 1 true true))
    state.WaitsFor .tcpAccept .tcp ∧
      ∃ holder, holder ≠ .tcpAccept ∧ Mutex.tcp ∈ state.held holder ∧
        (state.threads holder).asleep = false ∧
        state.CanStep mutexes holder := by
  intro state
  have reachable :
      StepRun.Reachable LockDiscipline.step (Enabled mutexes)
        (start (nodeRunMutexes 2 1 true true)) state := by
    have plain
        {state : State NodeWorker Mutex}
        (worker : NodeWorker)
        {code : Code Mutex}
        {rest : List (Code Mutex)}
        (isNext : (state.threads worker).todo = code :: rest)
        (isPlain : ∀ lock, code ≠ .acquire lock) :
        Enabled mutexes state (worker, true) :=
      State.canStep_of_todo isNext fun lock taken =>
        absurd taken (isPlain lock)
    refine
      ⟨_, StepRun.Run.start
        |>.next _ (plain (.joined .tcpKeepalive) rfl (by nofun))
        |>.next _ (plain (.joined .tcpKeepalive) rfl (by nofun))
        |>.next _ (plain (.joined .tcpKeepalive) rfl (by nofun))
        |>.next _ (plain (.joined .tcpKeepalive) rfl (by nofun))
        |>.next _ (plain (.joined .tcpKeepalive) rfl (by nofun))
        |>.next (NodeWorker.joined .tcpKeepalive, true)
            (State.canStep_of_todo rfl fun lock _ => ⟨?_, by nofun⟩)
        |>.next _ (plain .tcpAccept rfl (by nofun))
        |>.next _ (plain .tcpAccept rfl (by nofun))
        |>.next _ (plain .tcpAccept rfl (by nofun))⟩
    intro other isOther
    simp [LockDiscipline.step, start, isOther]
  have waits : state.WaitsFor .tcpAccept .tcp := ⟨rfl, _, rfl⟩
  have isHeld : Mutex.tcp ∈ state.held (.joined .tcpKeepalive) :=
    List.mem_singleton_self _
  have notFree : ¬ state.Free mutexes .tcpAccept .tcp :=
    fun free => free.1 (.joined .tcpKeepalive) (by decide) isHeld
  exact ⟨waits,
    (mutexes_never_deadlock reachable).2.2.2 .tcpAccept .tcp waits notFree⟩

end RoutingMesh
