import RoutingMesh.BeaconBounds
import RoutingMesh.MeshNode
import RoutingMesh.TreeRouting

/-!
# Which identifiers a node admits

The receiver decodes whatever datagram claims to be a beacon, and neither it
nor `discoverIds` checks an identifier against the configured network.  An
identifier then travels through the union, the tree, the snapshot and the
routing table into the array index of the transmitter.  Every stage keeps to
configured identifiers exactly when the merged beacons list no others.
-/

namespace RoutingMesh

open KeyedCells

/-- A beacon as it is received, or another step of the node. -/
inductive RadioAction where
  | receive (datagram : List UInt8) (time : ℚ)
  | node (action : NodeAction)

/-- The content of the receive buffer, over a cleared one. -/
def receivedPacketOf (datagram : List UInt8) : Nat → UInt8 :=
  receiverBuffer datagram fun _ => 0

/-- The `slot_id` of a received beacon. -/
def receivedSlotId (datagram : List UInt8) : UInt8 :=
  receivedPacketOf datagram 1

/-- The matrix that `MATRIX_parsePkt` merges. -/
def receivedMatrix
    (value : UInt64 → ℚ)
    (datagram : List UInt8) : TdmaMatrix :=
  (deserializeMatrix (receivedPacketOf datagram)).toTdmaMatrix value

/-- The step of the node that an action makes. -/
def RadioAction.toNodeAction
    (value : UInt64 → ℚ) : RadioAction → NodeAction
  | receive datagram time =>
      .matrix (.update (receivedMatrix value datagram)
        (receivedSlotId datagram) time)
  | node action => action

/-- One step of a node whose beacons arrive as datagrams. -/
def radioStep
    (mode : LinkQualityMode)
    (value : UInt64 → ℚ)
    (node : MeshNode)
    (action : RadioAction) : MeshNode :=
  nodeStep mode node (action.toNodeAction value)

/-- Merges come from datagrams only. -/
def NotMerge : NodeAction → Prop
  | .matrix (.update _ _ _) => False
  | _ => True

/-- A beacon that decodes within its buffers, or a step of another thread. -/
def RadioEnabled (node : MeshNode) : RadioAction → Prop
  | .receive datagram _ =>
      datagram.head? = some matrixType ∧
        DecodesInBounds datagram (fun _ => 0) ∧ node.pushPending = false
  | .node action => NotMerge action ∧ PhaseAllows node action

instance : DecidablePred NotMerge
  | .matrix (.update _ _ _) => .isFalse id
  | .matrix (.serialize _ _) => .isTrue trivial
  | .matrix (.removeDeadLinks _) => .isTrue trivial
  | .matrix (.updateLinkQuality _ _) => .isTrue trivial
  | .matrix (.setLinkQuality _ _) => .isTrue trivial
  | .pushEvent => .isTrue trivial
  | .popEvent => .isTrue trivial
  | .takeSnapshot => .isTrue trivial
  | .recompute => .isTrue trivial

instance (node : MeshNode) : DecidablePred (RadioEnabled node)
  | .receive _ _ => inferInstanceAs (Decidable (_ ∧ _ ∧ _))
  | .node _ => inferInstanceAs (Decidable (_ ∧ _))

/-- A beacon lists configured identifiers only. -/
def ListsConfigured
    (numNodes : Nat)
    (_ : MeshNode) : RadioAction → Prop
  | .receive datagram _ =>
      ∀ id ∈ (deserializeMatrix
          (receivedPacketOf datagram)).idOfActiveNodes,
        InNetwork numNodes id
  | .node _ => True

/--
The node admits configured nodes only.  `discoverIds` never takes an
identifier back, so the length of its result bounds the positions it writes.
-/
structure AdmitsConfigured
    (numNodes : Nat)
    (node : MeshNode) : Prop where
  active :
    ∀ id ∈ node.matrix.myMatrix.idOfActiveNodes, InNetwork numNodes id
  counted : node.matrix.myMatrix.numberOfActiveNodes ≤ numNodes
  written : node.matrix.myMatrix.numberOfActiveNodes ≤ maxNodes
  indexed :
    ∀ destination,
      routingManagerLookup numNodes node.routingTable destination = 0 ∨
        InNetwork numNodes
          (routingManagerLookup numNodes node.routingTable destination)

/-!
## From the snapshot to the table
-/

/-- The entries of a table forward to configured nodes. -/
def ForwardsToConfigured
    (numNodes : Nat)
    (table : Nat → RoutingEntry) : Prop :=
  ∀ i, (table i).valid = true → InNetwork numNodes (table i).nextHop

/-- What a lookup returns is 0 or the next hop of a valid entry. -/
theorem ForwardsToConfigured.lookup
    {numNodes : Nat}
    {table : Nat → RoutingEntry}
    (forwards : ForwardsToConfigured numNodes table)
    (destination : UInt8) :
    routingManagerLookup numNodes table destination = 0 ∨
      InNetwork numNodes
        (routingManagerLookup numNodes table destination) := by
  unfold routingManagerLookup
  split
  · rename_i i isFound
    have matched := List.find?_some isFound
    simp only [Bool.and_eq_true] at matched
    exact .inr (forwards i matched.2)
  · exact .inl rfl

/-!
## Runs
-/

/-- Every stage of the node holds configured identifiers only. -/
structure HoldsConfigured
    (numNodes : Nat)
    (node : MeshNode) : Prop where
  active :
    ∀ id ∈ node.matrix.myMatrix.idOfActiveNodes, InNetwork numNodes id
  copied :
    ∀ {snap}, node.handler = .computing snap →
      ∀ id ∈ snap.idOfActiveNodes, InNetwork numNodes id
  table : ForwardsToConfigured numNodes node.routingTable

/-- No operation but a merge adds an identifier. -/
theorem mem_of_mem_matrixStep
    {mode : LinkQualityMode}
    {me : UInt8}
    {state : MatrixState}
    {action : MatrixAction}
    (listed : state.myMatrix.Listed me)
    {id : UInt8}
    (member : id ∈ (matrixStep mode state action).myMatrix.idOfActiveNodes) :
    id ∈ state.myMatrix.idOfActiveNodes ∨
      ∃ newMat otherIp time, action = .update newMat otherIp time ∧
        id ∈ newMat.idOfActiveNodes := by
  cases action with
  | update newMat otherIp time =>
      simp only [matrixStep] at member
      rw [idOfActiveNodes_mergedMatrix, mem_discoverIds] at member
      exact member.imp_right fun new => ⟨newMat, otherIp, time, rfl, new⟩
  | serialize removalTime time =>
      have kept :
          id ∈ (removeDeadLinks state.myMatrix removalTime).idOfActiveNodes :=
        member
      rw [idOfActiveNodes_removeDeadLinks listed.distinct] at kept
      exact .inl (List.mem_of_mem_filter kept)
  | removeDeadLinks time =>
      have kept :
          id ∈ (removeDeadLinks state.myMatrix time).idOfActiveNodes :=
        member
      rw [idOfActiveNodes_removeDeadLinks listed.distinct] at kept
      exact .inl (List.mem_of_mem_filter kept)
  | updateLinkQuality nodeId timeout =>
      exact .inl (by simpa [matrixStep] using member)
  | setLinkQuality nodeId quality =>
      exact .inl (by simpa [matrixStep] using member)

/-- The matrix after a step lists what it listed and what a beacon lists. -/
theorem active_radioStep
    {mode : LinkQualityMode}
    {value : UInt64 → ℚ}
    {numNodes : Nat}
    {me : UInt8}
    {node : MeshNode}
    {action : RadioAction}
    (listed : node.matrix.myMatrix.Listed me)
    (holds : HoldsConfigured numNodes node)
    (allowed : RadioEnabled node action)
    (configured : ListsConfigured numNodes node action) :
    ∀ id ∈ (radioStep mode value node action).matrix.myMatrix.idOfActiveNodes,
      InNetwork numNodes id := by
  intro id member
  rw [radioStep, matrix_nodeStep] at member
  cases action with
  | receive datagram time =>
      rcases mem_of_mem_matrixStep listed member with
        known | ⟨newMat, otherIp, time, same, new⟩
      · exact holds.active id known
      · obtain ⟨rfl, _, _⟩ := MatrixAction.update.inj same
        exact configured id new
  | node action =>
      cases action with
      | matrix operation =>
          rcases mem_of_mem_matrixStep listed member with
            known | ⟨newMat, otherIp, time, rfl, new⟩
          · exact holds.active id known
          · exact allowed.1.elim
      | pushEvent => exact holds.active id member
      | popEvent => exact holds.active id member
      | takeSnapshot => exact holds.active id member
      | recompute => exact holds.active id member

/-- A step changes the snapshot and the table only as the handler does. -/
theorem handler_nodeStep
    (mode : LinkQualityMode)
    (node : MeshNode)
    (action : NodeAction) :
    ((nodeStep mode node action).handler = node.handler ∨
        (nodeStep mode node action).handler = .waiting ∨
        (nodeStep mode node action).handler = .handling ∨
        (nodeStep mode node action).handler =
          .computing (matrixGetSnapshot node.matrix)) ∧
      ((nodeStep mode node action).routingTable = node.routingTable ∨
        ∃ snap, node.handler = .computing snap ∧
          (nodeStep mode node action).routingTable =
            routingManagerRecompute node.matrix.myMatrix.myId snap) := by
  cases action with
  | matrix operation =>
      cases operation <;> exact ⟨.inl rfl, .inl rfl⟩
  | pushEvent =>
      simp only [nodeStep]
      split <;> exact ⟨.inl rfl, .inl rfl⟩
  | popEvent =>
      simp only [nodeStep]
      split
      · exact ⟨.inr (.inr (.inl rfl)), .inl rfl⟩
      · exact ⟨.inl rfl, .inl rfl⟩
  | takeSnapshot =>
      simp only [nodeStep]
      split
      · exact ⟨.inr (.inr (.inr rfl)), .inl rfl⟩
      · exact ⟨.inl rfl, .inl rfl⟩
  | recompute =>
      simp only [nodeStep]
      split
      · rename_i snap isComputing
        exact ⟨.inr (.inl rfl), .inr ⟨snap, isComputing, rfl⟩⟩
      · exact ⟨.inl rfl, .inl rfl⟩

/-- A step that merges configured identifiers keeps every stage to them. -/
theorem HoldsConfigured.step
    {mode : LinkQualityMode}
    {value : UInt64 → ℚ}
    {numNodes : Nat}
    {me : UInt8}
    {node : MeshNode}
    {action : RadioAction}
    (listed : node.matrix.myMatrix.Listed me)
    (holds : HoldsConfigured numNodes node)
    (allowed : RadioEnabled node action)
    (configured : ListsConfigured numNodes node action) :
    HoldsConfigured numNodes (radioStep mode value node action) where
  active := active_radioStep listed holds allowed configured
  copied := by
    intro snap isComputing id member
    obtain ⟨phase, _⟩ :=
      handler_nodeStep mode node (action.toNodeAction value)
    unfold radioStep at isComputing
    rcases phase with same | isWaiting | isHandling | taken
    · exact holds.copied (same.symm.trans isComputing) id member
    · simp [isWaiting] at isComputing
    · simp [isHandling] at isComputing
    · obtain rfl := HandlerPhase.computing.inj (taken.symm.trans isComputing)
      exact holds.active id member
  table := by
    intro i isValid
    obtain ⟨_, table⟩ :=
      handler_nodeStep mode node (action.toNodeAction value)
    unfold radioStep at isValid ⊢
    rcases table with same | ⟨snap, isComputing, recomputed⟩
    · rw [same] at isValid ⊢
      exact holds.table i isValid
    · rw [recomputed] at isValid ⊢
      exact holds.copied isComputing _ (nextHop_mem_of_valid isValid)

/-- A merged identifier that is not configured becomes an active one. -/
theorem not_admits_of_unconfigured
    {mode : LinkQualityMode}
    {value : UInt64 → ℚ}
    {numNodes : Nat}
    {node : MeshNode}
    {action : RadioAction}
    (unconfigured : ¬ ListsConfigured numNodes node action) :
    ¬ AdmitsConfigured numNodes (radioStep mode value node action) := by
  cases action with
  | receive datagram time =>
      simp only [ListsConfigured, not_forall] at unconfigured
      obtain ⟨id, new, outside⟩ := unconfigured
      intro admits
      refine outside (admits.active id ?_)
      rw [radioStep, matrix_nodeStep]
      change
        id ∈ (mergedMatrix mode node.matrix.myMatrix
          (receivedMatrix value datagram) _ time).idOfActiveNodes
      rw [idOfActiveNodes_mergedMatrix, mem_discoverIds]
      exact .inr new
  | node action =>
      exact (unconfigured trivial).elim

/--
In every run of received datagrams that decode within their buffers, expiry,
event handling and transmission, the node admits configured nodes only
exactly when every merged beacon lists no other identifier.
-/
theorem admitsConfigured_iff
    (mode : LinkQualityMode)
    (value : UInt64 → ℚ)
    {numNodes : Nat}
    (fits : numNodes ≤ maxNodes)
    {me : UInt8}
    (own : InNetwork numNodes me)
    (time : ℚ)
    {actions : List RadioAction}
    {node : MeshNode}
    (run :
      StepRun.Run (radioStep mode value) RadioEnabled
        (nodeStart me time) actions node) :
    StepRun.Throughout (radioStep mode value) (nodeStart me time)
        (AdmitsConfigured numNodes) actions ↔
      StepRun.EachStep (radioStep mode value) (nodeStart me time)
        (ListsConfigured numNodes) actions := by
  refine run.throughout_iff_eachStep
    (fun visited => visited.matrix.myMatrix.Listed me)
    (HoldsConfigured numNodes)
    (listed_matrixInit me time)
    (fun listed _ => listed_nodeStep listed)
    ?_
    (fun listed holds allowed configured =>
      holds.step listed allowed configured)
    ?_
    (fun _ _ unconfigured => not_admits_of_unconfigured unconfigured)
  · refine ⟨?_, ?_, ?_⟩
    · intro id member
      have isSelf : id = me := by
        simpa [nodeStart, matrixStart, matrixInit, TdmaMatrix.zeroed]
          using member
      rw [isSelf]
      exact own
    · intro snap isComputing
      simp [nodeStart] at isComputing
    · intro i isValid
      simp [nodeStart, RoutingEntry.cleared] at isValid
  · intro visited listed holds
    have counted :
        visited.matrix.myMatrix.numberOfActiveNodes ≤ numNodes :=
      length_le_of_inNetwork listed.distinct holds.active
    exact
      { active := holds.active
        counted := counted
        written := counted.trans fits
        indexed := holds.table.lookup }

/-- A beacon with the given `slot_id` that lists one node without links. -/
def beaconListing (slotId id : UInt8) : List UInt8 :=
  [matrixType, slotId] ++ List.replicate 16 0 ++ [1, id] ++
    List.replicate 19 0

/-- Node 1 merges a beacon of that sender and recomputes its table. -/
def mergesBeaconListing (slotId id : UInt8) : List RadioAction :=
  [.receive (beaconListing slotId id) 1,
    .node .pushEvent,
    .node .popEvent,
    .node .takeSnapshot,
    .node .recompute]

/-- Node 1 of 2 admits node 2, which is configured. -/
theorem admitsConfigured_mergesBeaconListing :
    StepRun.Throughout (radioStep .test fun _ => 0) (nodeStart 1 0)
      (AdmitsConfigured 2) (mergesBeaconListing 2 2) := by
  refine (admitsConfigured_iff .test (fun _ => 0) (by decide) (by decide) 0
    (StepRun.Run.of_checkRun (by decide +kernel))).mpr ?_
  intro leading action taken
  have member : action ∈ mergesBeaconListing 2 2 :=
    taken.subset (by simp)
  have listsSecond :
      (deserializeMatrix
          (receivedPacketOf (beaconListing 2 2))).idOfActiveNodes = [2] := by
    decide +kernel
  simp only [mergesBeaconListing, List.mem_cons, List.not_mem_nil,
    or_false] at member
  rcases member with rfl | rfl | rfl | rfl | rfl
  · intro id listed
    rw [listsSecond, List.mem_singleton] at listed
    rw [listed]
    decide
  · trivial
  · trivial
  · trivial
  · trivial

/-- A beacon that lists node 200 makes node 1 of 2 forward to index 200. -/
theorem admits_unconfigured_mergesBeaconListing :
    ¬ ∀ (mode : LinkQualityMode) (value : UInt64 → ℚ) (numNodes : Nat)
        (me : UInt8) (time : ℚ) (node : MeshNode),
      numNodes ≤ maxNodes →
      InNetwork numNodes me →
      StepRun.Reachable (radioStep mode value) RadioEnabled
        (nodeStart me time) node →
      AdmitsConfigured numNodes node := by
  intro always
  have admits :=
    always .test (fun _ => 0) 2 1 0
      ((mergesBeaconListing 200 200).foldl (radioStep .test fun _ => 0)
        (nodeStart 1 0))
      (by decide) (by decide)
      ⟨mergesBeaconListing 200 200,
        StepRun.Run.of_checkRun (by decide +kernel)⟩
  have indexed := admits.indexed 200
  revert indexed
  decide +kernel

end RoutingMesh
