import RoutingMesh.SnapshotCoherence

/-!
# A node with its event handler

Model of the threads that connect the topology to the routing table: the
receiver merges a beacon under the matrix lock and pushes an event after it
has released the lock; the event handler pops the event, copies a snapshot
under the matrix lock, and recomputes the table from the copy.  Each of these
is one step, so the operations of other threads fall between them.
-/

namespace RoutingMesh

/-- Where `event_handler_loop` stands. -/
inductive HandlerPhase where
  | waiting
  | handling
  | computing (snap : MatrixSnapshot)

/--
A node: the matrix globals, the event that the receiver has yet to push, the
queued events, the handler thread, and the routing table.  Every event that
is ever pushed is `EVENT_TOPOLOGY_CHANGED`, so the queue is a number.
-/
structure MeshNode where
  matrix : MatrixState
  pushPending : Bool
  eventQueue : Nat
  handler : HandlerPhase
  routingTable : Nat → RoutingEntry

/-- A node before its threads run. -/
def nodeStart (myId : UInt8) (time : ℚ) : MeshNode where
  matrix := matrixStart myId time
  pushPending := false
  eventQueue := 0
  handler := .waiting
  routingTable := fun _ => .cleared

/-- The steps of the threads of a node. -/
inductive NodeAction where
  | matrix (action : MatrixAction)
  | pushEvent
  | popEvent
  | takeSnapshot
  | recompute

/-- The flag `topology_changed` at the end of `matrix_update`. -/
def topologyChanged
    (nodesBefore : Nat)
    (oldMst : Nat → Nat → UInt8)
    (after : MatrixState) : Bool :=
  let nodes := after.myMatrix.numberOfActiveNodes
  decide (nodes ≠ nodesBefore) ||
    (decide (nodes ≥ 2 ∧ nodesBefore ≥ 2) &&
      (List.range nodes).any fun i =>
        (List.range nodes).any fun j =>
          oldMst i j != after.spanningTree i j)

/-- One step of one thread; a step whose thread is elsewhere does nothing. -/
def nodeStep
    (mode : LinkQualityMode)
    (node : MeshNode) : NodeAction → MeshNode
  | .matrix (.update newMat otherIp time) =>
      let after := matrixStep mode node.matrix (.update newMat otherIp time)
      { node with
        matrix := after
        pushPending :=
          topologyChanged node.matrix.myMatrix.numberOfActiveNodes
            node.matrix.spanningTree after }
  | .matrix action =>
      { node with matrix := matrixStep mode node.matrix action }
  | .pushEvent =>
      if node.pushPending then
        { node with
          pushPending := false
          eventQueue := node.eventQueue + 1 }
      else
        node
  | .popEvent =>
      match node.handler, node.eventQueue with
      | .waiting, events + 1 =>
          { node with
            eventQueue := events
            handler := .handling }
      | _, _ => node
  | .takeSnapshot =>
      match node.handler with
      | .handling =>
          { node with handler := .computing (matrixGetSnapshot node.matrix) }
      | _ => node
  | .recompute =>
      match node.handler with
      | .computing snap =>
          { node with
            handler := .waiting
            routingTable :=
              routingManagerRecompute node.matrix.myMatrix.myId snap }
      | _ => node

/-- A step is one that its thread can take next. -/
def PhaseAllows (node : MeshNode) : NodeAction → Prop
  | .matrix (.update _ _ _) => node.pushPending = false
  | .matrix _ => True
  | .pushEvent => node.pushPending = true
  | .popEvent =>
      match node.handler with
      | .waiting => 0 < node.eventQueue
      | _ => False
  | .takeSnapshot =>
      match node.handler with
      | .handling => True
      | _ => False
  | .recompute =>
      match node.handler with
      | .computing _ => True
      | _ => False

instance (node : MeshNode) : DecidablePred (PhaseAllows node)
  | .matrix (.update _ _ _) =>
      inferInstanceAs (Decidable (node.pushPending = false))
  | .matrix (.serialize _ _) => .isTrue trivial
  | .matrix (.removeDeadLinks _) => .isTrue trivial
  | .matrix (.updateLinkQuality _ _) => .isTrue trivial
  | .matrix (.setLinkQuality _ _) => .isTrue trivial
  | .pushEvent => inferInstanceAs (Decidable (node.pushPending = true))
  | .popEvent =>
      match node with
      | { handler := .waiting, eventQueue := events, .. } =>
          inferInstanceAs (Decidable (0 < events))
      | { handler := .handling, .. } => .isFalse id
      | { handler := .computing _, .. } => .isFalse id
  | .takeSnapshot =>
      match node with
      | { handler := .waiting, .. } => .isFalse id
      | { handler := .handling, .. } => .isTrue trivial
      | { handler := .computing _, .. } => .isFalse id
  | .recompute =>
      match node with
      | { handler := .waiting, .. } => .isFalse id
      | { handler := .handling, .. } => .isFalse id
      | { handler := .computing _, .. } => .isTrue trivial

/-- The operation that a step makes on the matrix globals. -/
def NodeAction.matrixAction? : NodeAction → Option MatrixAction
  | .matrix action => some action
  | _ => none

/-- Only matrix operations change the matrix globals. -/
theorem matrix_nodeStep
    (mode : LinkQualityMode)
    (node : MeshNode)
    (action : NodeAction) :
    (nodeStep mode node action).matrix =
      match action.matrixAction? with
      | some operation => matrixStep mode node.matrix operation
      | none => node.matrix := by
  cases action with
  | matrix operation =>
      cases operation <;> rfl
  | pushEvent =>
      simp only [nodeStep, NodeAction.matrixAction?]
      split <;> rfl
  | popEvent =>
      simp only [nodeStep, NodeAction.matrixAction?]
      split <;> rfl
  | takeSnapshot =>
      simp only [nodeStep, NodeAction.matrixAction?]
      split <;> rfl
  | recompute =>
      simp only [nodeStep, NodeAction.matrixAction?]
      split <;> rfl

/-- Every step of a node keeps the identifiers sorted and its own among them. -/
theorem listed_nodeStep
    {mode : LinkQualityMode}
    {me : UInt8}
    {node : MeshNode}
    {action : NodeAction}
    (listed : node.matrix.myMatrix.Listed me) :
    (nodeStep mode node action).matrix.myMatrix.Listed me := by
  rw [matrix_nodeStep]
  cases action.matrixAction? with
  | none =>
      exact listed
  | some operation =>
      exact listed_matrixStep listed

/-- Every step of a node leaves a forest. -/
theorem planted_nodeStep
    {mode : LinkQualityMode}
    {node : MeshNode}
    {action : NodeAction}
    (planted : node.matrix.Planted) :
    (nodeStep mode node action).matrix.Planted := by
  rw [matrix_nodeStep]
  cases action.matrixAction? with
  | none =>
      exact planted
  | some operation =>
      exact planted_matrixStep planted

end RoutingMesh
