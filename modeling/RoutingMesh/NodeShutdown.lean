import RoutingMesh.EventQueue

/-!
# A node that is interrupted

Model of `signal_handler`, of the loops of the threads, of the joins at the
end of `node_run` and of the start of `node_destroy`.  The loop of the event
handler does not look at `g_running`, and the queue that it reads is stopped
by `node_destroy` only, which `main` calls after `node_run` has joined it.
-/

namespace RoutingMesh

/-- The threads that `node_run` joins; the one that accepts is not among them. -/
inductive NodeThread where
  | receiver
  | tx
  | event
  | tun
  | tcpRx (peer : Nat)
  | tcpKeepalive
  deriving DecidableEq, Repr

/-- The order of the joins: the TUN thread only runs with an open TUN. -/
def joinOrder (numNodes nodeId : Nat) (tunOpen : Bool) : List NodeThread :=
  [.receiver, .tx, .event] ++ (if tunOpen then [.tun] else []) ++
    ((List.range numNodes).map (· + 1) |>.filter (· ≠ nodeId)).map .tcpRx ++
    [.tcpKeepalive]

/--
What decides whether threads end: `g_running`, `node->running`, the event
queue, the threads that ended, and those that `node_run` has yet to join.
-/
structure RunningNode (Addr : Type) where
  gRunning : Bool
  running : Bool
  events : EventQueue Addr
  ended : List NodeThread
  toJoin : List NodeThread
  destroyed : Bool

/-- `node_run`, after it created the threads. -/
def nodeRun
    (Addr : Type)
    (numNodes nodeId : Nat)
    (tunOpen : Bool) : RunningNode Addr where
  gRunning := true
  running := true
  events := eventQueueCreate Addr
  ended := []
  toJoin := joinOrder numNodes nodeId tunOpen
  destroyed := false

/--
The steps: Ctrl+C, a push or a step of the event handler, the end of a loop,
the end of the event handler, a join, and `node_destroy` up to its broadcast.
-/
inductive NodeRunAction (Addr : Type) where
  | interrupt
  | queue (action : EventAction Addr)
  | leave (thread : NodeThread)
  | leaveEvents
  | join
  | destroy

section

variable {Addr : Type} [DecidableEq Addr]

/-- One step. -/
def nodeRunStep
    (node : RunningNode Addr) : NodeRunAction Addr → RunningNode Addr
  | .interrupt => { node with gRunning := false }
  | .queue action => { node with events := eventStep node.events action }
  | .leave thread => { node with ended := thread :: node.ended }
  | .leaveEvents => { node with ended := .event :: node.ended }
  | .join => { node with toJoin := node.toJoin.tail }
  | .destroy =>
      { node with
        running := false
        events := eventStep (eventStep node.events .stop) .broadcast
        destroyed := true }

/--
The event handler tests `node->running` only, before it takes the lock; the
other loops test `g_running` too.  A join waits for its thread.
-/
def NodeRunEnabled
    (node : RunningNode Addr) : NodeRunAction Addr → Prop
  | .interrupt => True
  | .queue .stop => False
  | .queue .broadcast => False
  | .queue action =>
      EventEnabled node.events action ∧
        (action = .lock → node.events.consumer = .outside →
          node.running = true)
  | .leave thread =>
      thread ≠ .event ∧ ¬ (node.running = true ∧ node.gRunning = true)
  | .leaveEvents =>
      node.events.consumer = .outside ∧ node.running = false ∨
        node.events.consumer = .done
  | .join =>
      match node.toJoin with
      | thread :: _ => thread ∈ node.ended
      | [] => False
  | .destroy => node.toJoin = []

instance (node : RunningNode Addr) : DecidablePred (NodeRunEnabled node)
  | .interrupt => .isTrue trivial
  | .queue .stop => .isFalse id
  | .queue .broadcast => .isFalse id
  | .queue (.push _ _) => inferInstanceAs (Decidable (EventEnabled _ _ ∧ _))
  | .queue .lock => inferInstanceAs (Decidable (EventEnabled _ _ ∧ _))
  | .queue .test => inferInstanceAs (Decidable (EventEnabled _ _ ∧ _))
  | .queue .wait => inferInstanceAs (Decidable (EventEnabled _ _ ∧ _))
  | .queue .wake => inferInstanceAs (Decidable (EventEnabled _ _ ∧ _))
  | .queue .free => inferInstanceAs (Decidable (EventEnabled _ _ ∧ _))
  | .leave _ => inferInstanceAs (Decidable (_ ∧ ¬ _))
  | .leaveEvents => inferInstanceAs (Decidable (_ ∧ _ ∨ _))
  | .join =>
      match toJoin : node.toJoin with
      | thread :: _ =>
          decidable_of_iff (thread ∈ node.ended) (by
            simp [NodeRunEnabled, toJoin])
      | [] => .isFalse (by simp [NodeRunEnabled, toJoin])
  | .destroy => inferInstanceAs (Decidable (_ = []))

end

/-! ## Runs -/

/-- The event handler goes on, and `node_run` has yet to join it. -/
structure KeepsRunning {Addr : Type} (node : RunningNode Addr) : Prop where
  delivers : ∃ nodes inHand, Delivers node.events nodes inHand
  eventsRun : node.events.running = true
  running : node.running = true
  notEnded : .event ∉ node.ended
  notJoined : .event ∈ node.toJoin
  notDestroyed : node.destroyed = false

section

variable {Addr : Type}
variable {node : RunningNode Addr}

theorem keepsRunning_nodeRun
    (numNodes nodeId : Nat)
    (tunOpen : Bool) :
    KeepsRunning (nodeRun Addr numNodes nodeId tunOpen) where
  delivers := ⟨[], [], delivers_create⟩
  eventsRun := rfl
  running := rfl
  notEnded := by simp [nodeRun]
  notJoined := by simp [nodeRun, joinOrder]
  notDestroyed := rfl

/-- The consumer does not end before the queue is stopped. -/
theorem KeepsRunning.notDone
    (keeps : KeepsRunning node) :
    node.events.consumer ≠ .done := by
  obtain ⟨nodes, inHand, delivers⟩ := keeps.delivers
  exact delivers.runsUntilStopped keeps.eventsRun

variable [DecidableEq Addr]

/-- No step of the queue but a stop ends the queue. -/
theorem running_eventStep
    {queue : EventQueue Addr}
    {action : EventAction Addr}
    (noStop : action ≠ .stop) :
    (eventStep queue action).running = queue.running := by
  cases performs : queue.perform action with
  | none =>
      rw [eventStep, performs]
      rfl
  | some after =>
      rw [eventStep, performs]
      change after.running = queue.running
      cases action with
      | push addr evt =>
          obtain ⟨ends, _, isAfter⟩ := Option.bind_eq_some_iff.mp performs
          rw [← Option.some.inj isAfter]
      | test =>
          simp only [EventQueue.perform, EventQueue.test] at performs
          split at performs
          · rw [← Option.some.inj performs]
          · split at performs
            · rw [← Option.some.inj performs]
            · obtain ⟨evt, _, rest⟩ := Option.bind_eq_some_iff.mp performs
              obtain ⟨cell, _, isAfter⟩ := Option.bind_eq_some_iff.mp rest
              rw [← Option.some.inj isAfter]
      | free =>
          simp only [EventQueue.perform, EventQueue.free] at performs
          split at performs
          · obtain ⟨cell, _, isAfter⟩ := Option.bind_eq_some_iff.mp performs
            rw [← Option.some.inj isAfter]
          · rw [← Option.some.inj performs]
      | stop => exact absurd rfl noStop
      | lock => rw [← Option.some.inj performs]
      | wait => rw [← Option.some.inj performs]
      | wake => rw [← Option.some.inj performs]
      | broadcast => rw [← Option.some.inj performs]

/-- A step of the queue leaves the rest of the node as it is. -/
theorem KeepsRunning.queue
    (keeps : KeepsRunning node)
    {action : EventAction Addr}
    (noStop : action ≠ .stop)
    (allowed : EventEnabled node.events action) :
    KeepsRunning (nodeRunStep node (.queue action)) where
  delivers := by
    obtain ⟨nodes, inHand, delivers⟩ := keeps.delivers
    obtain ⟨after, nodesAfter, inHandAfter, performs, deliversAfter⟩ :=
      delivers.perform allowed
    refine ⟨nodesAfter, inHandAfter, ?_⟩
    rw [nodeRunStep, eventStep, performs]
    exact deliversAfter
  eventsRun := (running_eventStep noStop).trans keeps.eventsRun
  running := keeps.running
  notEnded := keeps.notEnded
  notJoined := keeps.notJoined
  notDestroyed := keeps.notDestroyed

/-- A join takes a thread that ended, so not the event handler. -/
theorem KeepsRunning.join
    (keeps : KeepsRunning node)
    (allowed : NodeRunEnabled node .join) :
    KeepsRunning (nodeRunStep node .join) where
  delivers := keeps.delivers
  eventsRun := keeps.eventsRun
  running := keeps.running
  notEnded := keeps.notEnded
  notJoined := by
    have listed := keeps.notJoined
    simp only [nodeRunStep]
    cases toJoin : node.toJoin with
    | nil =>
        rw [toJoin] at listed
        cases listed
    | cons thread rest =>
        have ended : thread ∈ node.ended := by
          simpa [NodeRunEnabled, toJoin] using allowed
        have notFirst : .event ≠ thread := by
          rintro rfl
          exact keeps.notEnded ended
        rw [toJoin] at listed
        exact (List.mem_cons.mp listed).resolve_left notFirst
  notDestroyed := keeps.notDestroyed

/-- Every step that the threads and `main` can take keeps the handler running. -/
theorem KeepsRunning.step
    (keeps : KeepsRunning node)
    {action : NodeRunAction Addr}
    (allowed : NodeRunEnabled node action) :
    KeepsRunning (nodeRunStep node action) := by
  cases action with
  | interrupt =>
      exact ⟨keeps.delivers, keeps.eventsRun, keeps.running, keeps.notEnded,
        keeps.notJoined, keeps.notDestroyed⟩
  | queue action =>
      cases action with
      | stop => cases allowed
      | broadcast => cases allowed
      | _ => exact keeps.queue (by simp) allowed.1
  | leave thread =>
      refine ⟨keeps.delivers, keeps.eventsRun, keeps.running, ?_,
        keeps.notJoined, keeps.notDestroyed⟩
      exact List.not_mem_cons_of_ne_of_not_mem allowed.1.symm keeps.notEnded
  | leaveEvents =>
      rcases allowed with ⟨_, stopped⟩ | isDone
      · rw [keeps.running] at stopped
        cases stopped
      · exact absurd isDone keeps.notDone
  | join => exact keeps.join allowed
  | destroy =>
      have toJoin : node.toJoin = [] := allowed
      have listed := keeps.notJoined
      rw [toJoin] at listed
      cases listed

end

/--
In every run of a node, whenever it is interrupted and whatever its threads
do: the event handler never ends, so `node_run` never joins it and does not
return, `node_destroy` does not begin, and the queue still delivers what was
pushed in order.
-/
theorem nodeRun_never_returns
    {Addr : Type}
    [DecidableEq Addr]
    {numNodes nodeId : Nat}
    {tunOpen : Bool}
    {actions : List (NodeRunAction Addr)}
    {node : RunningNode Addr}
    (run :
      StepRun.Run nodeRunStep NodeRunEnabled
        (nodeRun Addr numNodes nodeId tunOpen) actions node) :
    .event ∉ node.ended ∧
      .event ∈ node.toJoin ∧
      node.destroyed = false ∧
      node.running = true ∧
      node.events.running = true ∧
      ∃ inHand listed,
        node.events.handled ++ inHand ++ listed = node.events.pushed := by
  have keeps :=
    run.invariant KeepsRunning (keepsRunning_nodeRun numNodes nodeId tunOpen)
      fun keeps allowed => keeps.step allowed
  obtain ⟨nodes, inHand, delivers⟩ := keeps.delivers
  exact ⟨keeps.notEnded, keeps.notJoined, keeps.notDestroyed, keeps.running,
    keeps.eventsRun, inHand, _, delivers.inOrder⟩

/-- Ctrl+C, and every loop that looks at it ends. -/
def interrupted : List (NodeRunAction Nat) :=
  [.queue .lock, .queue .test, .queue .wait, .interrupt, .leave .tcpKeepalive,
    .leave (.tcpRx 2), .leave .receiver, .leave .tx, .leave .tun, .join, .join]

/-- `node_run` waits for the event handler. -/
theorem nodeRun_never_returns_interrupted :
    (interrupted.foldl nodeRunStep (nodeRun Nat 2 1 true)).toJoin =
        [.event, .tun, .tcpRx 2, .tcpKeepalive] ∧
      .event ∉ (interrupted.foldl nodeRunStep (nodeRun Nat 2 1 true)).ended :=
  ⟨by decide +kernel,
    (nodeRun_never_returns
      (StepRun.Run.of_checkRun
        (by decide +kernel :
          StepRun.checkRun nodeRunStep NodeRunEnabled (nodeRun Nat 2 1 true)
            interrupted = true))).1⟩

end RoutingMesh
