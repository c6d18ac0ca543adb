import Mathlib.Logic.Function.Basic
import RoutingMesh.MeshNode

/-!
# A network of nodes

Every node runs its own matrix and routing threads; the nodes share nothing
but beacons.  A transmission serialises the matrix of its sender and leaves
the beacon in flight for good, so a beacon may reach any other node at any
later step, more than once, or never.
-/

namespace RoutingMesh

/-- The content of a transmitted matrix, as its receivers decode it. -/
def TdmaMatrix.beacon (mat : TdmaMatrix) : TdmaMatrix :=
  let number := mat.numberOfActiveNodes
  { TdmaMatrix.zeroed 0 mat.idOfActiveNodes with
    matrix := fun i j => if i < number ∧ j < number then mat.matrix i j else 0
    age := fun i => if i < number then mat.age i else 0 }

/-- A beacon in flight: who sent it, when, and what it says. -/
structure SentBeacon where
  sender : UInt8
  instant : ℚ
  content : TdmaMatrix

/-- A beacon that has reached a node. -/
structure Delivery where
  beacon : SentBeacon
  receiver : UInt8
  time : ℚ

/-- How long the beacon was in flight. -/
def Delivery.delay (delivery : Delivery) : ℚ :=
  delivery.time - delivery.beacon.instant

/--
The nodes and the beacons in flight.  No step reads the deliveries and the
last clock reading: they are what runs speak of.
-/
structure MeshNetwork where
  nodes : UInt8 → MeshNode
  sent : List SentBeacon
  delivered : List Delivery
  clock : ℚ

/-- The nodes before their threads run; each node boots at its own time. -/
def networkStart (boot : UInt8 → ℚ) (clock : ℚ) : MeshNetwork where
  nodes := fun i => nodeStart i (boot i)
  sent := []
  delivered := []
  clock := clock

/-- A transmission, the arrival of a beacon, or a step inside one node. -/
inductive NetworkAction where
  | transmit (sender : UInt8) (removalTime time : ℚ)
  | deliver (message : Nat) (receiver : UInt8) (time : ℚ)
  | thread (node : UInt8) (action : NodeAction)

/-- The clock reading of a step inside a node. -/
def NodeAction.reading (clock : ℚ) : NodeAction → ℚ
  | .matrix (.removeDeadLinks time) => time
  | _ => clock

/-- One step of the network. -/
def networkStep
    (mode : LinkQualityMode)
    (network : MeshNetwork) : NetworkAction → MeshNetwork
  | .transmit sender removalTime time =>
      let node :=
        nodeStep mode (network.nodes sender)
          (.matrix (.serialize removalTime time))
      { network with
        nodes := Function.update network.nodes sender node
        sent :=
          network.sent ++
            [{ sender := sender
               instant := time
               content := node.matrix.myMatrix.beacon }]
        clock := time }
  | .deliver message receiver time =>
      match network.sent[message]? with
      | none => network
      | some beacon =>
          { network with
            nodes :=
              Function.update network.nodes receiver
                (nodeStep mode (network.nodes receiver)
                  (.matrix (.update beacon.content beacon.sender time)))
            delivered :=
              network.delivered ++
                [{ beacon := beacon
                   receiver := receiver
                   time := time }]
            clock := time }
  | .thread node action =>
      { network with
        nodes :=
          Function.update network.nodes node
            (nodeStep mode (network.nodes node) action)
        clock := action.reading network.clock }

/-- A step that neither sends nor receives a beacon. -/
def NodeAction.StaysInside : NodeAction → Prop
  | .matrix (.update _ _ _) => False
  | .matrix (.serialize _ _) => False
  | _ => True

/--
The nodes are numbered from 1 to `numNodes`, a beacon reaches a node that did
not send it once the receiver thread has pushed the event of the one before,
and the other steps are those their threads can take next.
-/
def NetworkEnabled
    (numNodes : Nat)
    (network : MeshNetwork) : NetworkAction → Prop
  | .transmit sender _ _ => InNetwork numNodes sender
  | .deliver message receiver _ =>
      InNetwork numNodes receiver ∧
        (network.nodes receiver).pushPending = false ∧
        ∃ beacon ∈ network.sent[message]?, beacon.sender ≠ receiver
  | .thread node action =>
      InNetwork numNodes node ∧
        action.StaysInside ∧ PhaseAllows (network.nodes node) action

/--
All nodes read one clock that does not go back, and a serialisation removes
dead links and computes the ages at one instant.
-/
def CommonClock (clock : ℚ) : NetworkAction → Prop
  | .transmit _ removalTime time => removalTime = time ∧ clock ≤ time
  | .deliver _ _ time => clock ≤ time
  | .thread _ action => clock ≤ action.reading clock

instance : DecidablePred NodeAction.StaysInside
  | .matrix (.update _ _ _) => .isFalse id
  | .matrix (.serialize _ _) => .isFalse id
  | .matrix (.removeDeadLinks _) => .isTrue trivial
  | .matrix (.updateLinkQuality _ _) => .isTrue trivial
  | .matrix (.setLinkQuality _ _) => .isTrue trivial
  | .pushEvent => .isTrue trivial
  | .popEvent => .isTrue trivial
  | .takeSnapshot => .isTrue trivial
  | .recompute => .isTrue trivial

instance (numNodes : Nat) (network : MeshNetwork) :
    DecidablePred (NetworkEnabled numNodes network)
  | .transmit sender _ _ =>
      inferInstanceAs (Decidable (InNetwork numNodes sender))
  | .deliver message receiver _ =>
      inferInstanceAs
        (Decidable
          (InNetwork numNodes receiver ∧
            (network.nodes receiver).pushPending = false ∧
            ∃ beacon ∈ network.sent[message]?, beacon.sender ≠ receiver))
  | .thread node action =>
      inferInstanceAs
        (Decidable
          (InNetwork numNodes node ∧
            action.StaysInside ∧ PhaseAllows (network.nodes node) action))

instance (clock : ℚ) : DecidablePred (CommonClock clock)
  | .transmit _ removalTime time =>
      inferInstanceAs (Decidable (removalTime = time ∧ clock ≤ time))
  | .deliver _ _ time => inferInstanceAs (Decidable (clock ≤ time))
  | .thread _ action =>
      inferInstanceAs (Decidable (clock ≤ action.reading clock))

/-!
## What a step does to a node
-/

/-- A step that stays inside a node is no step of its matrix, or no merge. -/
theorem matrix_nodeStep_of_staysInside
    {mode : LinkQualityMode}
    {node : MeshNode}
    {action : NodeAction}
    (inside : action.StaysInside) :
    (nodeStep mode node action).matrix = node.matrix ∨
      ∃ operation,
        action = .matrix operation ∧
          (∀ newMat otherIp time, operation ≠ .update newMat otherIp time) ∧
          (nodeStep mode node action).matrix =
            matrixStep mode node.matrix operation := by
  rw [matrix_nodeStep]
  cases action with
  | matrix operation =>
      refine .inr ⟨operation, rfl, ?_, rfl⟩
      rintro newMat otherIp time rfl
      exact inside
  | pushEvent =>
      exact .inl rfl
  | popEvent =>
      exact .inl rfl
  | takeSnapshot =>
      exact .inl rfl
  | recompute =>
      exact .inl rfl

/-- A property that every step of a node keeps is kept at all nodes. -/
theorem nodes_networkStep
    {mode : LinkQualityMode}
    {network : MeshNetwork}
    {action : NetworkAction}
    (holds : UInt8 → MeshNode → Prop)
    (preserved :
      ∀ {me node} nodeAction,
        holds me node →
        holds me (nodeStep mode node nodeAction))
    (everywhere : ∀ i, holds i (network.nodes i)) :
    ∀ i, holds i ((networkStep mode network action).nodes i) := by
  have updated :
      ∀ (me : UInt8) (nodeAction : NodeAction) (i : UInt8),
        holds i
          (Function.update network.nodes me
            (nodeStep mode (network.nodes me) nodeAction) i) := by
    intro me nodeAction i
    by_cases isNode : i = me
    · subst isNode
      rw [Function.update_self]
      exact preserved nodeAction (everywhere i)
    · rw [Function.update_of_ne isNode]
      exact everywhere i
  cases action with
  | transmit sender removalTime time =>
      exact updated sender _
  | deliver message receiver time =>
      simp only [networkStep]
      split
      · exact everywhere
      · exact updated receiver _
  | thread node nodeAction =>
      exact updated node nodeAction

/-- At the start no node lists another one. -/
theorem eq_of_mem_networkStart
    {boot : UInt8 → ℚ}
    {clock : ℚ}
    {i k : UInt8}
    (listed :
      k ∈ ((networkStart boot clock).nodes
        i).matrix.myMatrix.idOfActiveNodes) :
    k = i := by
  simpa [networkStart, nodeStart, matrixStart, matrixInit,
    TdmaMatrix.zeroed] using listed

end RoutingMesh
