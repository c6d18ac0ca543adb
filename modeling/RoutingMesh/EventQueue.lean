import Mathlib.Data.Rat.Defs
import RoutingMesh.ChainQueue
import RoutingMesh.StepRun

/-!
# The event queue and its consumer

Model of `event_queue_push` and `event_queue_pop` on the heap, between the
threads that push and the one of `event_handler_loop`.  The consumer tests the
queue and goes to sleep in two steps, with the lock held in between; a signal
wakes it if it sleeps, and it may wake without one.  The first two lines of
`event_queue_destroy` do not take the lock.
-/

namespace RoutingMesh

open LinkedChain ChainQueue

/-- `event_type_t`. -/
inductive EventType where
  | topologyChanged
  | nodeTimeout
  | nodeJoined
  deriving DecidableEq, Repr

/-- `event_t`, without its `next`. -/
structure MeshEvent where
  type : EventType
  nodeId : UInt8
  timestamp : ℚ
  deriving DecidableEq

/--
Where the consumer is: outside of `event_queue_pop`, at the test of its loop
with the lock, decided to wait and still with the lock, asleep without it,
awake and about to take it again, in the body of `event_handler_loop` with an
event, or done after `event_queue_pop` returned NULL.
-/
inductive Consumer (Addr : Type) where
  | outside
  | testing
  | deciding
  | asleep
  | awake
  | handling (evt : Addr)
  | done
  deriving DecidableEq, Repr

/-- The consumer holds the lock of the queue. -/
def Consumer.Locks {Addr : Type} : Consumer Addr → Prop
  | .testing => True
  | .deciding => True
  | _ => False

/--
`event_queue_t` and its consumer, with the events that were pushed and those
that the consumer freed after it handled them.
-/
structure EventQueue (Addr : Type) where
  ends : Ends Addr MeshEvent
  count : Int
  running : Bool
  consumer : Consumer Addr
  pushed : List MeshEvent
  handled : List MeshEvent

/-- `event_queue_create`, and `event_handler_loop` before its first round. -/
def eventQueueCreate (Addr : Type) : EventQueue Addr where
  ends := { heap := fun _ => none, head := none, tail := none }
  count := 0
  running := true
  consumer := .outside
  pushed := []
  handled := []

/--
The steps.  A push is one step, since it holds the lock throughout; `addr` is
where `malloc` put the event.  The others are those of the consumer, and the
two lines with which `event_queue_destroy` begins.
-/
inductive EventAction (Addr : Type) where
  | push (addr : Addr) (evt : MeshEvent)
  | lock
  | test
  | wait
  | wake
  | free
  | stop
  | broadcast
  deriving DecidableEq

/-- `pthread_cond_signal` and `pthread_cond_broadcast`, with one consumer. -/
def Consumer.signal {Addr : Type} : Consumer Addr → Consumer Addr
  | .asleep => .awake
  | consumer => consumer

section

variable {Addr : Type} [DecidableEq Addr]

/-- `event_queue_push`; it has no result if it reads what is not allocated. -/
def EventQueue.push
    (queue : EventQueue Addr)
    (addr : Addr)
    (evt : MeshEvent) : Option (EventQueue Addr) := do
  let ends ← queue.ends.append addr evt
  some
    { queue with
      ends := ends
      count := queue.count + 1
      consumer := queue.consumer.signal
      pushed := queue.pushed ++ [evt] }

/--
The test of the loop of `event_queue_pop`, and what follows it when the loop
ends: NULL, or the first node.
-/
def EventQueue.test (queue : EventQueue Addr) : Option (EventQueue Addr) :=
  if queue.ends.head = none ∧ queue.running = true then
    some { queue with consumer := .deciding }
  else if queue.running = false then
    some { queue with consumer := .done }
  else do
    let evt ← queue.ends.head
    let cell ← queue.ends.heap evt
    some
      { queue with
        ends := queue.ends.dropFirst cell.next
        count := queue.count - 1
        consumer := .handling evt }

/-- The `free` at the end of the body of `event_handler_loop`. -/
def EventQueue.free (queue : EventQueue Addr) : Option (EventQueue Addr) :=
  match queue.consumer with
  | .handling evt => do
      let cell ← queue.ends.heap evt
      some
        { queue with
          ends := queue.ends.set evt none
          consumer := .outside
          handled := queue.handled ++ [cell.value] }
  | _ => some queue

/-- What a step makes of the queue, if it reads only allocated nodes. -/
def EventQueue.perform
    (queue : EventQueue Addr) : EventAction Addr → Option (EventQueue Addr)
  | .push addr evt => queue.push addr evt
  | .lock => some { queue with consumer := .testing }
  | .test => queue.test
  | .wait => some { queue with consumer := .asleep }
  | .wake => some { queue with consumer := .awake }
  | .free => queue.free
  | .stop => some { queue with running := false }
  | .broadcast => some { queue with consumer := queue.consumer.signal }

/-- A step; one without a result leaves the queue. -/
def eventStep
    (queue : EventQueue Addr)
    (action : EventAction Addr) : EventQueue Addr :=
  (queue.perform action).getD queue

/--
Where the consumer must be for each of its steps; a push needs the lock, and
`malloc` returns an address that is free.
-/
def EventEnabled
    (queue : EventQueue Addr) : EventAction Addr → Prop
  | .push addr _ => ¬ queue.consumer.Locks ∧ queue.ends.heap addr = none
  | .lock => queue.consumer = .outside ∨ queue.consumer = .awake
  | .test => queue.consumer = .testing
  | .wait => queue.consumer = .deciding
  | .wake => queue.consumer = .asleep
  | .free => ∃ evt, queue.consumer = .handling evt
  | .stop => True
  | .broadcast => True

instance {Addr : Type} : DecidablePred (@Consumer.Locks Addr)
  | .testing => .isTrue trivial
  | .deciding => .isTrue trivial
  | .outside => .isFalse id
  | .asleep => .isFalse id
  | .awake => .isFalse id
  | .handling _ => .isFalse id
  | .done => .isFalse id

instance (queue : EventQueue Addr) : DecidablePred (EventEnabled queue)
  | .push _ _ => inferInstanceAs (Decidable (¬ _ ∧ _ = none))
  | .lock => inferInstanceAs (Decidable (_ = _ ∨ _ = _))
  | .test => inferInstanceAs (Decidable (_ = _))
  | .wait => inferInstanceAs (Decidable (_ = _))
  | .wake => inferInstanceAs (Decidable (_ = _))
  | .free =>
      match isConsumer : queue.consumer with
      | .handling evt => .isTrue ⟨evt, isConsumer⟩
      | .outside => .isFalse (by simp [EventEnabled, isConsumer])
      | .testing => .isFalse (by simp [EventEnabled, isConsumer])
      | .deciding => .isFalse (by simp [EventEnabled, isConsumer])
      | .asleep => .isFalse (by simp [EventEnabled, isConsumer])
      | .awake => .isFalse (by simp [EventEnabled, isConsumer])
      | .done => .isFalse (by simp [EventEnabled, isConsumer])
  | .stop => .isTrue trivial
  | .broadcast => .isTrue trivial

end

/-! ## What every step keeps -/

/-- The event in hand, if the consumer has one. -/
def EventQueue.InHand {Addr : Type}
    (queue : EventQueue Addr)
    (nodes : List (Addr × MeshEvent))
    (events : List MeshEvent) : Prop :=
  match queue.consumer with
  | .handling evt =>
      evt ∉ addresses nodes ∧
        ∃ cell, queue.ends.heap evt = some cell ∧ events = [cell.value]
  | _ => events = []

/--
The nodes of the queue, what the consumer has in hand, and what it may rely on
when it sleeps.
-/
structure Delivers {Addr : Type}
    (queue : EventQueue Addr)
    (nodes : List (Addr × MeshEvent))
    (inHand : List MeshEvent) : Prop where
  linked : Linked queue.ends nodes
  count : queue.count = nodes.length
  held : queue.InHand nodes inHand
  inOrder : queue.handled ++ inHand ++ nodes.map Prod.snd = queue.pushed
  sleepsOnEmpty :
    queue.consumer = .deciding ∨ queue.consumer = .asleep → nodes = []
  runsUntilStopped : queue.running = true → queue.consumer ≠ .done

section

variable {Addr : Type}
variable {queue : EventQueue Addr}
variable {nodes : List (Addr × MeshEvent)}
variable {inHand : List MeshEvent}

theorem delivers_create : Delivers (eventQueueCreate Addr) [] [] where
  linked := linked_nil _
  count := rfl
  held := rfl
  inOrder := rfl
  sleepsOnEmpty := fun _ => rfl
  runsUntilStopped := fun _ => by simp [eventQueueCreate]

/-- The consumer moves on without an event, and nothing else changes. -/
theorem Delivers.setConsumer
    (delivers : Delivers queue nodes inHand)
    (before : ∀ evt, queue.consumer ≠ .handling evt)
    {consumer : Consumer Addr}
    (after : ∀ evt, consumer ≠ .handling evt)
    (sleepsOnEmpty :
      consumer = .deciding ∨ consumer = .asleep → nodes = [])
    (notDone : queue.running = true → consumer ≠ .done) :
    Delivers { queue with consumer := consumer } nodes inHand where
  linked := delivers.linked
  count := delivers.count
  held := by
    have none : inHand = [] := by
      have held := delivers.held
      unfold EventQueue.InHand at held
      split at held
      · rename_i evt isHandling
        exact absurd isHandling (before evt)
      · exact held
    unfold EventQueue.InHand
    split
    · rename_i evt isHandling
      exact absurd isHandling (after evt)
    · exact none
  inOrder := delivers.inOrder
  sleepsOnEmpty := sleepsOnEmpty
  runsUntilStopped := notDone

/-- A signal only wakes a consumer that sleeps. -/
theorem Delivers.signal
    (delivers : Delivers queue nodes inHand) :
    Delivers { queue with consumer := queue.consumer.signal } nodes
      inHand := by
  by_cases sleeps : queue.consumer = .asleep
  · have woken : queue.consumer.signal = .awake := by
      rw [sleeps]
      rfl
    rw [woken]
    exact delivers.setConsumer (by simp [sleeps]) (by simp) (by simp)
      (by simp)
  · have same : queue.consumer.signal = queue.consumer := by
      cases isConsumer : queue.consumer with
      | asleep => exact absurd isConsumer sleeps
      | _ => rfl
    rw [same]
    exact delivers

/-- The test sends the consumer to sleep, off, or on with the first event. -/
theorem Delivers.test
    (delivers : Delivers queue nodes inHand)
    (testing : queue.consumer = .testing) :
    ∃ after nodesAfter inHandAfter,
      queue.test = some after ∧ Delivers after nodesAfter inHandAfter := by
  have noneInHand : inHand = [] := by
    have held := delivers.held
    unfold EventQueue.InHand at held
    rw [testing] at held
    exact held
  unfold EventQueue.test
  by_cases waits : queue.ends.head = none ∧ queue.running = true
  · rw [if_pos waits]
    have empty := delivers.linked.head_eq_none_iff.mp waits.1
    exact ⟨_, nodes, inHand, rfl,
      delivers.setConsumer (by simp [testing]) (by simp) (fun _ => empty)
        (by simp)⟩
  · rw [if_neg waits]
    by_cases stopped : queue.running = false
    · rw [if_pos stopped]
      exact ⟨_, nodes, inHand, rfl,
        delivers.setConsumer (by simp [testing]) (by simp) (by simp)
          (by simp [stopped])⟩
    · rw [if_neg stopped]
      cases nodes with
      | nil =>
          have noHead := delivers.linked.head_eq_none_iff.mpr rfl
          exact absurd ⟨noHead, by simpa using stopped⟩ waits
      | cons first rest =>
          obtain ⟨next, points, holds, apart, linked⟩ :=
            delivers.linked.dropFirst
          refine ⟨_, rest, [first.2], by rw [points]; simp [holds]; rfl, ?_⟩
          constructor
          · exact linked
          · have counted := delivers.count
            rw [List.length_cons] at counted
            simp only [counted]
            push_cast
            omega
          · exact ⟨apart, _, holds, rfl⟩
          · rw [← delivers.inOrder, noneInHand]
            simp
          · simp
          · simp

variable [DecidableEq Addr]

/-- A push puts its event behind the others and leaves nobody asleep. -/
theorem Delivers.push
    (delivers : Delivers queue nodes inHand)
    {addr : Addr}
    {evt : MeshEvent}
    (allowed : EventEnabled queue (.push addr evt)) :
    ∃ after,
      queue.push addr evt = some after ∧
        Delivers after (nodes ++ [(addr, evt)]) inHand := by
  obtain ⟨unlocked, fresh⟩ := allowed
  have elsewhere : addr ∉ addresses nodes :=
    fun listed => delivers.linked.chain.allocated listed fresh
  obtain ⟨ends, appends, linked, kept⟩ :=
    delivers.linked.append elsewhere evt
  refine ⟨_, by rw [EventQueue.push, appends]; rfl, ?_⟩
  constructor
  · exact linked
  · simp [delivers.count]
  · have held := delivers.held
    unfold EventQueue.InHand at held ⊢
    cases isConsumer : queue.consumer with
    | handling inUse =>
        rw [isConsumer] at held
        obtain ⟨apart, cell, holds, isCell⟩ := held
        have different : inUse ≠ addr := by
          rintro rfl
          rw [fresh] at holds
          cases holds
        refine ⟨?_, cell, (kept inUse apart different).trans holds, isCell⟩
        simpa [addresses, different] using apart
    | asleep =>
        rw [isConsumer] at held
        exact held
    | _ =>
        rw [isConsumer] at held
        exact held
  · rw [← delivers.inOrder]
    simp
  · intro resting
    exfalso
    cases isConsumer : queue.consumer with
    | deciding => exact unlocked (by rw [isConsumer]; trivial)
    | _ => simp [isConsumer, Consumer.signal] at resting
  · intro running
    have notDone := delivers.runsUntilStopped running
    cases isConsumer : queue.consumer with
    | done => exact absurd isConsumer notDone
    | _ => simp [Consumer.signal]

/-- The event in hand is freed once, and counts as handled. -/
theorem Delivers.free
    (delivers : Delivers queue nodes inHand)
    {evt : Addr}
    (handling : queue.consumer = .handling evt) :
    ∃ after,
      queue.free = some after ∧ Delivers after nodes [] := by
  have held := delivers.held
  unfold EventQueue.InHand at held
  rw [handling] at held
  obtain ⟨apart, cell, holds, rfl⟩ := held
  refine ⟨_, by rw [EventQueue.free, handling]; simp [holds]; rfl, ?_⟩
  constructor
  · exact delivers.linked.set apart none
  · exact delivers.count
  · rfl
  · rw [← delivers.inOrder]
    simp
  · simp
  · simp

/-- Every step has a result, and keeps the queue. -/
theorem Delivers.perform
    (delivers : Delivers queue nodes inHand)
    {action : EventAction Addr}
    (allowed : EventEnabled queue action) :
    ∃ after nodesAfter inHandAfter,
      queue.perform action = some after ∧
        Delivers after nodesAfter inHandAfter := by
  cases action with
  | push addr evt =>
      obtain ⟨after, pushes, deliversAfter⟩ := delivers.push allowed
      exact ⟨after, _, _, pushes, deliversAfter⟩
  | lock =>
      refine ⟨_, nodes, inHand, rfl,
        delivers.setConsumer ?_ (by simp) (by simp) (by simp)⟩
      rcases allowed with isOutside | isAwake
      · simp [isOutside]
      · simp [isAwake]
  | test => exact delivers.test allowed
  | wait =>
      have isDeciding : queue.consumer = .deciding := allowed
      exact ⟨_, nodes, inHand, rfl,
        delivers.setConsumer (by simp [isDeciding]) (by simp)
          (fun _ => delivers.sleepsOnEmpty (.inl isDeciding)) (by simp)⟩
  | wake =>
      have isAsleep : queue.consumer = .asleep := allowed
      exact ⟨_, nodes, inHand, rfl,
        delivers.setConsumer (by simp [isAsleep]) (by simp) (by simp)
          (by simp)⟩
  | free =>
      obtain ⟨evt, handling⟩ := allowed
      obtain ⟨after, frees, deliversAfter⟩ := delivers.free handling
      exact ⟨after, _, _, frees, deliversAfter⟩
  | stop =>
      exact ⟨_, nodes, inHand, rfl, delivers.linked, delivers.count,
        delivers.held, delivers.inOrder, delivers.sleepsOnEmpty, by simp⟩
  | broadcast => exact ⟨_, nodes, inHand, rfl, delivers.signal⟩

end

/-- After every run there are nodes and an event in hand that fit the queue. -/
theorem exists_delivers
    {Addr : Type}
    [DecidableEq Addr]
    {actions : List (EventAction Addr)}
    {queue : EventQueue Addr}
    (run :
      StepRun.Run eventStep EventEnabled (eventQueueCreate Addr) actions
        queue) :
    ∃ nodes inHand, Delivers queue nodes inHand := by
  apply run.invariant fun queue => ∃ nodes inHand, Delivers queue nodes inHand
  · exact ⟨[], [], delivers_create⟩
  · rintro queue action ⟨nodes, inHand, delivers⟩ allowed
    obtain ⟨after, nodesAfter, inHandAfter, performs, deliversAfter⟩ :=
      delivers.perform allowed
    rw [eventStep, performs]
    exact ⟨nodesAfter, inHandAfter, deliversAfter⟩

/--
In every run of pushes and of the consumer, with spurious wake-ups and with a
stop at any time: from the head a finite list is found, with its last node at
the tail and its length in the count; the events that were handled, the one in
hand and the listed ones are those that were pushed, in order and each once;
while the queue runs, a consumer that an event waits for does not sleep and is
not about to; and every next step reads only allocated nodes.
-/
theorem eventQueue_delivers
    {Addr : Type}
    [DecidableEq Addr]
    {actions : List (EventAction Addr)}
    {queue : EventQueue Addr}
    (run :
      StepRun.Run eventStep EventEnabled (eventQueueCreate Addr) actions
        queue) :
    ∃ nodes inHand,
      Chain queue.ends.heap queue.ends.head nodes ∧
        queue.ends.tail = nodes.getLast?.map Prod.fst ∧
        queue.count = nodes.length ∧
        queue.InHand nodes inHand ∧
        queue.handled ++ inHand ++ nodes.map Prod.snd = queue.pushed ∧
        (queue.running = true → nodes ≠ [] →
          queue.consumer ≠ .deciding ∧ queue.consumer ≠ .asleep ∧
            queue.consumer ≠ .done) ∧
        ∀ action, EventEnabled queue action →
          (queue.perform action).isSome := by
  obtain ⟨nodes, inHand, delivers⟩ := exists_delivers run
  refine ⟨nodes, inHand, delivers.linked.chain, delivers.linked.tail,
    delivers.count, delivers.held, delivers.inOrder, ?_, ?_⟩
  · intro running some
    exact ⟨fun deciding => some (delivers.sleepsOnEmpty (.inl deciding)),
      fun sleeps => some (delivers.sleepsOnEmpty (.inr sleeps)),
      delivers.runsUntilStopped running⟩
  · intro action allowed
    obtain ⟨after, _, _, performs, _⟩ := delivers.perform allowed
    rw [performs]
    rfl

/-- A change of the topology that node 2 reported. -/
def changeFromSecond : MeshEvent where
  type := .topologyChanged
  nodeId := 2
  timestamp := 10

/-- The consumer sleeps, two events wake it once, and it handles the first. -/
def sleepsThenHandles : List (EventAction Nat) :=
  [.lock, .test, .wait, .push 0 changeFromSecond, .push 1 changeFromSecond,
    .lock, .test, .free]

/-- One event was handled and the other one is listed. -/
theorem eventQueue_delivers_sleepsThenHandles :
    ∃ nodes inHand,
      Chain
          (sleepsThenHandles.foldl eventStep
            (eventQueueCreate Nat)).ends.heap
          (some 1) nodes ∧
        [changeFromSecond] ++ inHand ++ nodes.map Prod.snd =
          [changeFromSecond, changeFromSecond] := by
  obtain ⟨nodes, inHand, chain, _, _, _, inOrder, _⟩ :=
    eventQueue_delivers
      (StepRun.Run.of_checkRun
        (by decide +kernel :
          StepRun.checkRun eventStep EventEnabled (eventQueueCreate Nat)
            sleepsThenHandles = true))
  exact ⟨nodes, inHand, chain, inOrder⟩

end RoutingMesh
