import Mathlib.Tactic.Ring
import RoutingMesh.MeshNetwork

/-!
# Where creation times come from

A node that holds an entry for another node has it from a chain of beacons:
the first was sent by that node itself, and every later one by a node that
the chain had reached.  Merging adds the time in flight to the creation time
and nothing else, so relays cannot make a silent node look recent.
-/

namespace RoutingMesh

open CellArray

/--
The beacons that carried a report of `k` to `holder`, in the order of their
arrival.  A relayed beacon was sent after the others had arrived, and the age
in it dates back to the first one, up to the time spent in flight.
-/
inductive CarriedBy
    (delivered : List Delivery)
    (k : UInt8) : SentBeacon → List Delivery → UInt8 → Prop where
  | heard
      {delivery : Delivery}
      (arrived : delivery ∈ delivered)
      (own : delivery.beacon.sender = k) :
      CarriedBy delivered k delivery.beacon [delivery] delivery.receiver
  | relayed
      {origin : SentBeacon}
      {chain : List Delivery}
      {delivery : Delivery}
      (carried : CarriedBy delivered k origin chain delivery.beacon.sender)
      (arrived : delivery ∈ delivered)
      (lists : k ∈ delivery.beacon.content.idOfActiveNodes)
      (inOrder : ∀ hop ∈ chain, hop.time ≤ delivery.beacon.instant)
      (reports :
        delivery.beacon.content.report.age k =
          delivery.beacon.instant -
            (origin.instant + (chain.map Delivery.delay).sum)) :
      CarriedBy delivered k origin (chain ++ [delivery]) delivery.receiver

/-- The creation time of `k` at `holder` has its chain of beacons by `now`. -/
def Provenance
    (delivered : List Delivery)
    (k holder : UInt8)
    (created now : ℚ) : Prop :=
  ∃ origin chain,
    CarriedBy delivered k origin chain holder ∧
      (∀ hop ∈ chain, hop.time ≤ now) ∧
      created = origin.instant + (chain.map Delivery.delay).sum

namespace CarriedBy

variable {delivered : List Delivery} {k holder : UInt8}
variable {origin : SentBeacon} {chain : List Delivery}

/-- Later deliveries leave a chain as it is. -/
theorem mono
    (carried : CarriedBy delivered k origin chain holder)
    (more : List Delivery) :
    CarriedBy (delivered ++ more) k origin chain holder := by
  induction carried with
  | heard arrived own =>
      exact .heard (List.mem_append_left _ arrived) own
  | relayed carried arrived lists inOrder reports inductionHypothesis =>
      exact .relayed inductionHypothesis (List.mem_append_left _ arrived)
        lists inOrder reports

/-- Every hop of a chain is a delivery. -/
theorem arrived
    (carried : CarriedBy delivered k origin chain holder) :
    ∀ hop ∈ chain, hop ∈ delivered := by
  induction carried with
  | heard arrived own =>
      intro hop listed
      rw [List.mem_singleton.mp listed]
      exact arrived
  | relayed carried arrived lists inOrder reports inductionHypothesis =>
      intro hop listed
      rcases List.mem_append.mp listed with earlier | last
      · exact inductionHypothesis hop earlier
      · rw [List.mem_singleton.mp last]
        exact arrived

/-- A chain starts with a delivery of a beacon that `k` sent itself. -/
theorem origin_spec
    (carried : CarriedBy delivered k origin chain holder) :
    origin.sender = k ∧ ∃ hop ∈ chain, hop.beacon = origin := by
  induction carried with
  | @heard delivery arrived own =>
      exact ⟨own, delivery, List.mem_singleton_self _, rfl⟩
  | relayed carried arrived lists inOrder reports inductionHypothesis =>
      obtain ⟨isSender, hop, listed, isOrigin⟩ := inductionHypothesis
      exact ⟨isSender, hop, List.mem_append_left _ listed, isOrigin⟩

end CarriedBy

namespace Provenance

variable {delivered : List Delivery} {k holder : UInt8}
variable {created now time : ℚ}

theorem mono
    (provenance : Provenance delivered k holder created now)
    (more : List Delivery) :
    Provenance (delivered ++ more) k holder created now := by
  obtain ⟨origin, chain, carried, inTime, isSum⟩ := provenance
  exact ⟨origin, chain, carried.mono more, inTime, isSum⟩

theorem later
    (provenance : Provenance delivered k holder created now)
    (forward : now ≤ time) :
    Provenance delivered k holder created time := by
  obtain ⟨origin, chain, carried, inTime, isSum⟩ := provenance
  exact ⟨origin, chain, carried,
    fun hop listed => (inTime hop listed).trans forward, isSum⟩

/-- The own beacon of `k` starts a chain. -/
theorem heard
    {delivery : Delivery}
    (arrived : delivery ∈ delivered)
    (own : delivery.beacon.sender = k) :
    Provenance delivered k delivery.receiver delivery.time
      delivery.time := by
  refine ⟨delivery.beacon, [delivery], .heard arrived own, ?_, ?_⟩
  · intro hop listed
    rw [List.mem_singleton.mp listed]
  · simp [Delivery.delay]

/-- A beacon that relays a report of `k` extends the chain by its own delay. -/
theorem relayed
    {delivery : Delivery}
    (provenance :
      Provenance delivered k delivery.beacon.sender
        (delivery.beacon.instant - delivery.beacon.content.report.age k)
        delivery.beacon.instant)
    (arrived : delivery ∈ delivered)
    (lists : k ∈ delivery.beacon.content.idOfActiveNodes)
    (forward : delivery.beacon.instant ≤ delivery.time) :
    Provenance delivered k delivery.receiver
      (delivery.time - delivery.beacon.content.report.age k)
      delivery.time := by
  obtain ⟨origin, chain, carried, inTime, isSum⟩ := provenance
  refine ⟨origin, chain ++ [delivery],
    .relayed carried arrived lists inTime (by rw [← isSum]; ring), ?_, ?_⟩
  · intro hop listed
    rcases List.mem_append.mp listed with earlier | last
    · exact (inTime hop earlier).trans forward
    · rw [List.mem_singleton.mp last]
  · rw [List.map_append, List.sum_append, ← add_assoc, ← isSum]
    simp only [List.map_cons, List.map_nil, List.sum_singleton,
      Delivery.delay]
    ring

end Provenance

/-!
## Creation times through one operation
-/

/--
A merge keeps a creation time, or sets it to the age in the report, for a
node other than the local one.
-/
theorem created_merge
    (mode : LinkQualityMode)
    {topology : Topology UInt8}
    {report : Report UInt8}
    {me other k : UInt8}
    {now : ℚ}
    (recent : ∀ id ∈ report.members, report.age id < maxAge)
    (notMe : k ≠ me)
    (listed : k ∈ (topology.merge mode report me other now).members) :
    (k ∈ topology.members ∧
        (topology.merge mode report me other now).created k =
          topology.created k) ∨
      (k ∈ report.members ∧
        (topology.merge mode report me other now).created k =
          now - report.age k) := by
  have formula :
      (topology.merge mode report me other now).created k = _ :=
    Topology.mergedCreated_of_ne notMe
  have union : k ∈ topology.members ∨ k ∈ report.members :=
    Finset.mem_union.mp listed
  by_cases sets :
      topology.Accepts report me other now k ∧
        (k = other ∨ k ∉ topology.members)
  · exact .inr ⟨sets.1.1, formula.trans (if_pos sets)⟩
  · refine .inl ⟨?_, formula.trans (if_neg sets)⟩
    -- An unknown node is reported recently, and its report is accepted.
    by_contra unknown
    have reported : k ∈ report.members := union.resolve_left unknown
    exact sets
      ⟨⟨reported, notMe, recent k reported, .inr (.inl unknown),
        .inl unknown⟩, .inr unknown⟩

/-- Any operation but a merge keeps the creation times of the nodes it keeps. -/
theorem created_topologyStep
    {mode : LinkQualityMode}
    {me : UInt8}
    {topology : Topology UInt8}
    {action : MatrixAction}
    (noMerge : ∀ newMat otherIp time, action ≠ .update newMat otherIp time)
    {k : UInt8}
    (notMe : k ≠ me)
    (listed : k ∈ (topologyStep mode me topology action).members) :
    k ∈ topology.members ∧
      (topologyStep mode me topology action).created k =
        topology.created k := by
  have expired :
      ∀ {time : ℚ}, k ∈ (topology.expire me time).members →
        k ∈ topology.members ∧
          (topology.expire me time).created k = topology.created k := by
    intro time kept
    exact ⟨(Topology.mem_alive.mp kept).1, if_pos kept⟩
  cases action with
  | update newMat otherIp time =>
      exact (noMerge newMat otherIp time rfl).elim
  | serialize removalTime time =>
      refine ⟨(expired listed).1, ?_⟩
      rw [← (expired listed).2]
      exact if_neg notMe
  | removeDeadLinks time =>
      exact expired listed
  | updateLinkQuality nodeId timeout =>
      exact ⟨listed, rfl⟩
  | setLinkQuality nodeId quality =>
      exact ⟨listed, rfl⟩

/-- A decoded beacon reports the links and the ages of the matrix it was made of. -/
theorem report_beacon (mat : TdmaMatrix) :
    mat.beacon.report =
      { members := mat.topology.members
        link := mat.topology.link
        age := mat.topology.age } := by
  apply Report.ext
  · rfl
  · funext a b
    by_cases listed :
        a ∈ mat.idOfActiveNodes ∧ b ∈ mat.idOfActiveNodes
    · refine (KeyedCells.read_congr ?_ a)
      intro i iInBounds
      refine KeyedCells.read_congr ?_ b
      intro j jInBounds
      exact if_pos ⟨iInBounds, jInBounds⟩
    · change KeyedCells.readAt mat.idOfActiveNodes _ a b =
        KeyedCells.readAt mat.idOfActiveNodes _ a b
      rw [TdmaMatrix.readAt_of_not_listed listed,
        TdmaMatrix.readAt_of_not_listed listed]
  · funext k
    refine KeyedCells.read_congr ?_ k
    intro i inBounds
    exact if_pos inBounds

/-- A serialised matrix gives the age of every other node as of its creation. -/
theorem age_serialize
    {mode : LinkQualityMode}
    {state : MatrixState}
    {me k : UInt8}
    {time : ℚ}
    (isListed : state.myMatrix.Listed me)
    (remote : k ≠ me)
    (lists :
      k ∈ (matrixStep mode state
        (.serialize time time)).myMatrix.topology.members) :
    (matrixStep mode state (.serialize time time)).myMatrix.topology.age k =
      time -
        (matrixStep mode state
          (.serialize time time)).myMatrix.topology.created k := by
  have isTopology :
      (matrixStep mode state (.serialize time time)).myMatrix.topology =
        (state.myMatrix.topology.expire me time).refresh me time :=
    topology_matrixStep isListed trivial
  rw [isTopology] at lists ⊢
  have kept : k ∈ state.myMatrix.topology.alive me time := lists
  simp [Topology.refresh, Topology.expire, Topology.restrict, kept, remote]

/-!
## The invariant
-/

/-- What a beacon says of every node it lists. -/
structure SentBeacon.Traced
    (delivered : List Delivery)
    (beacon : SentBeacon) : Prop where
  distinct : beacon.content.idOfActiveNodes.Nodup
  own : beacon.content.report.age beacon.sender = 0
  recent :
    ∀ k ∈ beacon.content.idOfActiveNodes,
      beacon.content.report.age k < maxAge
  others :
    ∀ k ∈ beacon.content.idOfActiveNodes, k ≠ beacon.sender →
      Provenance delivered k beacon.sender
        (beacon.instant - beacon.content.report.age k) beacon.instant

/-- A node holds no creation time but from a chain of beacons. -/
def MatrixState.Traced
    (delivered : List Delivery)
    (clock : ℚ)
    (me : UInt8)
    (state : MatrixState) : Prop :=
  ∀ k ∈ state.myMatrix.topology.members, k ≠ me →
    Provenance delivered k me (state.myMatrix.topology.created k) clock

/-- Everything that is held or in flight has its chain of beacons. -/
structure MeshNetwork.Traced (network : MeshNetwork) : Prop where
  listed : ∀ i, (network.nodes i).matrix.myMatrix.Listed i
  held :
    ∀ i, (network.nodes i).matrix.Traced network.delivered network.clock i
  inFlight : ∀ beacon ∈ network.sent, beacon.Traced network.delivered
  sentBefore : ∀ beacon ∈ network.sent, beacon.instant ≤ network.clock
  wasSent :
    ∀ delivery ∈ network.delivered,
      delivery.beacon ∈ network.sent ∧
        delivery.beacon.instant ≤ delivery.time

theorem SentBeacon.Traced.mono
    {delivered : List Delivery}
    {beacon : SentBeacon}
    (traced : beacon.Traced delivered)
    (more : List Delivery) :
    beacon.Traced (delivered ++ more) where
  distinct := traced.distinct
  own := traced.own
  recent := traced.recent
  others k listed notSender :=
    (traced.others k listed notSender).mono more

theorem MatrixState.Traced.mono
    {delivered : List Delivery}
    {clock : ℚ}
    {me : UInt8}
    {state : MatrixState}
    (traced : state.Traced delivered clock me)
    (more : List Delivery) :
    state.Traced (delivered ++ more) clock me :=
  fun k listed notMe => (traced k listed notMe).mono more

theorem MatrixState.Traced.later
    {delivered : List Delivery}
    {clock time : ℚ}
    {me : UInt8}
    {state : MatrixState}
    (traced : state.Traced delivered clock me)
    (forward : clock ≤ time) :
    state.Traced delivered time me :=
  fun k listed notMe => (traced k listed notMe).later forward

/-- Any operation but a merge keeps the chains of the nodes it keeps. -/
theorem MatrixState.Traced.step
    {mode : LinkQualityMode}
    {delivered : List Delivery}
    {clock : ℚ}
    {me : UInt8}
    {state : MatrixState}
    (traced : state.Traced delivered clock me)
    (isListed : state.myMatrix.Listed me)
    {action : MatrixAction}
    (noMerge : ∀ newMat otherIp time, action ≠ .update newMat otherIp time) :
    (matrixStep mode state action).Traced delivered clock me := by
  intro k listed notMe
  have distinctIds : action.DistinctIds := by
    cases action with
    | update newMat otherIp time =>
        exact (noMerge newMat otherIp time rfl).elim
    | serialize removalTime time => trivial
    | removeDeadLinks time => trivial
    | updateLinkQuality nodeId timeout => trivial
    | setLinkQuality nodeId quality => trivial
  rw [topology_matrixStep isListed distinctIds] at listed ⊢
  obtain ⟨known, sameTime⟩ := created_topologyStep noMerge notMe listed
  rw [sameTime]
  exact traced k known notMe

/-- Merging a traced beacon extends the chains by the delivery. -/
theorem MatrixState.Traced.merge
    {mode : LinkQualityMode}
    {delivered : List Delivery}
    {clock : ℚ}
    {state : MatrixState}
    (delivery : Delivery)
    (traced : state.Traced delivered clock delivery.receiver)
    (isListed : state.myMatrix.Listed delivery.receiver)
    (beaconTraced : delivery.beacon.Traced delivered)
    (sentBefore : delivery.beacon.instant ≤ clock)
    (forward : clock ≤ delivery.time) :
    (matrixStep mode state
          (.update delivery.beacon.content delivery.beacon.sender
            delivery.time)).Traced
      (delivered ++ [delivery]) delivery.time delivery.receiver := by
  intro k listed notMe
  have distinctIds :
      MatrixAction.DistinctIds
        (.update delivery.beacon.content delivery.beacon.sender
          delivery.time) :=
    beaconTraced.distinct
  rw [topology_matrixStep isListed distinctIds] at listed ⊢
  have recent :
      ∀ id ∈ delivery.beacon.content.report.members,
        delivery.beacon.content.report.age id < maxAge :=
    fun id reported =>
      beaconTraced.recent id (TdmaMatrix.mem_report_members.mp reported)
  have here : delivery ∈ delivered ++ [delivery] :=
    List.mem_append_right _ (List.mem_singleton_self _)
  rcases created_merge mode recent notMe listed with
    ⟨known, kept⟩ | ⟨reported, taken⟩
  · rw [topologyStep, kept]
    exact ((traced k known notMe).mono [delivery]).later forward
  · rw [topologyStep, taken]
    by_cases isSender : k = delivery.beacon.sender
    · rw [isSender, beaconTraced.own, sub_zero]
      exact .heard here rfl
    · have lists := TdmaMatrix.mem_report_members.mp reported
      exact .relayed
        ((beaconTraced.others k lists isSender).mono [delivery])
        here lists (sentBefore.trans forward)

/-- A serialised matrix makes a traced beacon. -/
theorem traced_transmitted
    (mode : LinkQualityMode)
    {delivered : List Delivery}
    {clock time : ℚ}
    {me : UInt8}
    {state : MatrixState}
    (traced : state.Traced delivered clock me)
    (isListed : state.myMatrix.Listed me)
    (forward : clock ≤ time) :
    SentBeacon.Traced delivered
      { sender := me
        instant := time
        content :=
          (matrixStep mode state (.serialize time time)).myMatrix.beacon } := by
  have isTopology :
      (matrixStep mode state (.serialize time time)).myMatrix.topology =
        (state.myMatrix.topology.expire me time).refresh me time :=
    topology_matrixStep isListed trivial
  have report :
      ∀ k,
        (matrixStep mode state
              (.serialize time time)).myMatrix.beacon.report.age k =
          ((state.myMatrix.topology.expire me time).refresh me time).age k := by
    intro k
    rw [report_beacon, isTopology]
  have alive :
      ∀ k ∈ (matrixStep mode state
            (.serialize time time)).myMatrix.idOfActiveNodes,
        k ∈ state.myMatrix.topology.alive me time := by
    intro k lists
    rw [← TdmaMatrix.mem_members, isTopology] at lists
    exact lists
  have ageOf :
      ∀ k ∈ state.myMatrix.topology.alive me time, k ≠ me →
        ((state.myMatrix.topology.expire me time).refresh me time).age k =
          time - state.myMatrix.topology.created k := by
    intro k kept notMe
    simp [Topology.refresh, Topology.expire, Topology.restrict, kept, notMe]
  exact
    { distinct := (listed_matrixStep isListed).distinct
      own := by
        rw [report]
        simp [Topology.refresh]
      recent := by
        intro k lists
        rw [report]
        by_cases isMe : k = me
        · simp [Topology.refresh, isMe, maxAge]
        · have kept := alive k lists
          rw [ageOf k kept isMe]
          exact (Topology.mem_alive.mp kept).2.resolve_left isMe
      others := by
        intro k lists notMe
        have kept := alive k lists
        rw [report, ageOf k kept notMe, sub_sub_cancel]
        exact (traced k (Topology.mem_alive.mp kept).1 notMe).later forward }

/-- At the start nothing is in flight and no node knows another one. -/
theorem traced_networkStart (boot : UInt8 → ℚ) (clock : ℚ) :
    (networkStart boot clock).Traced where
  listed i := listed_matrixInit i (boot i)
  held i := by
    intro k listed notMe
    rw [TdmaMatrix.mem_members] at listed
    exact absurd
      (by simpa [networkStart, nodeStart, matrixStart, matrixInit,
        TdmaMatrix.zeroed] using listed) notMe
  inFlight := by simp [networkStart]
  sentBefore := by simp [networkStart]
  wasSent := by simp [networkStart]

/-- A change of one node's matrix changes what is held at that node only. -/
private theorem traced_update
    {nodes : UInt8 → MeshNode}
    {delivered : List Delivery}
    {clock : ℚ}
    {me : UInt8}
    {node : MeshNode}
    (atNode : node.matrix.Traced delivered clock me)
    (elsewhere : ∀ i, i ≠ me → (nodes i).matrix.Traced delivered clock i)
    (i : UInt8) :
    (Function.update nodes me node i).matrix.Traced delivered clock i := by
  by_cases isNode : i = me
  · subst isNode
    rwa [Function.update_self]
  · rw [Function.update_of_ne isNode]
    exact elsewhere i isNode

/-- A step inside a node keeps the chains of the nodes it keeps. -/
private theorem traced_nodeStep
    {mode : LinkQualityMode}
    {delivered : List Delivery}
    {clock : ℚ}
    {me : UInt8}
    {node : MeshNode}
    {action : NodeAction}
    (traced : node.matrix.Traced delivered clock me)
    (isListed : node.matrix.myMatrix.Listed me)
    (inside : action.StaysInside) :
    (nodeStep mode node action).matrix.Traced delivered clock me := by
  rw [matrix_nodeStep]
  cases action with
  | matrix operation =>
      refine traced.step isListed ?_
      rintro newMat otherIp time rfl
      exact inside
  | pushEvent =>
      exact traced
  | popEvent =>
      exact traced
  | takeSnapshot =>
      exact traced
  | recompute =>
      exact traced

/-- Every step of the network leaves its own identifier listed at every node. -/
private theorem listed_networkStep
    {mode : LinkQualityMode}
    {network : MeshNetwork}
    {action : NetworkAction}
    (traced : network.Traced) :
    ∀ i, ((networkStep mode network action).nodes i).matrix.myMatrix.Listed
      i :=
  nodes_networkStep (fun i node => node.matrix.myMatrix.Listed i)
    (fun _ listed => listed_nodeStep listed) traced.listed

namespace MeshNetwork.Traced

variable {mode : LinkQualityMode}
variable {network : MeshNetwork}

/-- A transmission puts a beacon in flight with the chains of its node. -/
theorem transmit
    (traced : network.Traced)
    {time : ℚ}
    (forward : network.clock ≤ time)
    (sender : UInt8) :
    (networkStep mode network (.transmit sender time time)).Traced := by
  have held :
      ∀ i, (network.nodes i).matrix.Traced network.delivered time i :=
    fun i => (traced.held i).later forward
  exact
    { listed := listed_networkStep traced
      held :=
        traced_update
          ((held sender).step (traced.listed sender) (by simp))
          (fun i _ => held i)
      inFlight := by
        intro beacon isSent
        rcases List.mem_append.mp isSent with earlier | last
        · exact traced.inFlight beacon earlier
        · rw [List.mem_singleton.mp last]
          exact traced_transmitted mode (traced.held sender)
            (traced.listed sender) forward
      sentBefore := by
        intro beacon isSent
        rcases List.mem_append.mp isSent with earlier | last
        · exact (traced.sentBefore beacon earlier).trans forward
        · rw [List.mem_singleton.mp last]
          exact le_rfl
      wasSent := by
        intro delivery arrived
        obtain ⟨isSent, inTime⟩ := traced.wasSent delivery arrived
        exact ⟨List.mem_append_left _ isSent, inTime⟩ }

/-- A delivery extends the chains of the beacon by one hop. -/
theorem deliver
    (traced : network.Traced)
    {time : ℚ}
    (forward : network.clock ≤ time)
    {message : Nat}
    {beacon : SentBeacon}
    (found : network.sent[message]? = some beacon)
    (receiver : UInt8) :
    (networkStep mode network (.deliver message receiver time)).Traced := by
  have isSent : beacon ∈ network.sent := List.mem_of_getElem? found
  have everywhere :
      ∀ i, ((networkStep mode network
        (.deliver message receiver time)).nodes i).matrix.myMatrix.Listed i :=
    listed_networkStep traced
  simp only [networkStep, found] at everywhere ⊢
  exact
    { listed := everywhere
      held :=
        traced_update
          ((traced.held receiver).merge
            { beacon := beacon
              receiver := receiver
              time := time }
            (traced.listed receiver) (traced.inFlight beacon isSent)
            (traced.sentBefore beacon isSent) forward)
          (fun i _ => ((traced.held i).mono _).later forward)
      inFlight := fun other otherSent =>
        (traced.inFlight other otherSent).mono _
      sentBefore := fun other otherSent =>
        (traced.sentBefore other otherSent).trans forward
      wasSent := by
        intro delivery arrived
        rcases List.mem_append.mp arrived with earlier | last
        · exact traced.wasSent delivery earlier
        · rw [List.mem_singleton.mp last]
          exact ⟨isSent, (traced.sentBefore beacon isSent).trans forward⟩ }

/-- A step of a thread changes no beacon. -/
theorem thread
    (traced : network.Traced)
    {node : UInt8}
    {action : NodeAction}
    (forward : network.clock ≤ action.reading network.clock)
    (inside : action.StaysInside) :
    (networkStep mode network (.thread node action)).Traced where
  listed := listed_networkStep traced
  held :=
    traced_update
      (traced_nodeStep ((traced.held node).later forward)
        (traced.listed node) inside)
      (fun i _ => (traced.held i).later forward)
  inFlight := traced.inFlight
  sentBefore beacon isSent :=
    (traced.sentBefore beacon isSent).trans forward
  wasSent := traced.wasSent

/-- Every step of the network leaves everything with its chain of beacons. -/
theorem networkStep
    {numNodes : Nat}
    {action : NetworkAction}
    (traced : network.Traced)
    (allowed : NetworkEnabled numNodes network action)
    (inStep : CommonClock network.clock action) :
    (networkStep mode network action).Traced := by
  cases action with
  | transmit sender removalTime time =>
      obtain ⟨rfl, forward⟩ := inStep
      exact traced.transmit forward sender
  | deliver message receiver time =>
      obtain ⟨_, _, beacon, found, _⟩ := allowed
      exact traced.deliver inStep found receiver
  | thread node action =>
      obtain ⟨_, inside, _⟩ := allowed
      exact traced.thread inStep inside

end MeshNetwork.Traced

/--
In every run of a network with a common clock, the creation time that a node
holds for another one is the instant of a beacon of that other node plus the
time that a chain of beacons spent in flight.  When beacons arrive at once, a
node that has been silent for `maxAge` is in nobody else's beacon.
-/
theorem gossip_cannot_invent_freshness
    (mode : LinkQualityMode)
    (numNodes : Nat)
    (boot : UInt8 → ℚ)
    (clock : ℚ)
    {network : MeshNetwork}
    (reachable :
      StepRun.Reachable (networkStep mode)
        (fun network action =>
          NetworkEnabled numNodes network action ∧
            CommonClock network.clock action)
        (networkStart boot clock) network) :
    (∀ i pos k,
        (network.nodes i).matrix.myMatrix.idOfActiveNodes[pos]? = some k →
        k ≠ i →
        ∃ origin ∈ network.sent,
          ∃ chain,
            origin.sender = k ∧
              CarriedBy network.delivered k origin chain i ∧
              (∀ hop ∈ chain, hop.beacon ∈ network.sent ∧ 0 ≤ hop.delay) ∧
              (network.nodes i).matrix.myMatrix.creationTime pos =
                origin.instant + (chain.map Delivery.delay).sum) ∧
      ((∀ delivery ∈ network.delivered, delivery.delay = 0) →
        ∀ beacon ∈ network.sent,
          ∀ k ∈ beacon.content.idOfActiveNodes,
            k ≠ beacon.sender →
            ∃ own ∈ network.sent,
              own.sender = k ∧
                own.instant ≤ beacon.instant ∧
                beacon.instant - own.instant < maxAge) := by
  have traced : network.Traced :=
    reachable.invariant MeshNetwork.Traced (traced_networkStart boot clock)
      (fun traced allowed => traced.networkStep allowed.1 allowed.2)
  constructor
  · intro i pos k owner notMe
    obtain ⟨inBounds, rfl⟩ := List.getElem?_eq_some_iff.mp owner
    have listed :=
      TdmaMatrix.mem_members.mpr (List.getElem_mem inBounds)
    obtain ⟨origin, chain, carried, _, isSum⟩ :=
      traced.held i _ listed notMe
    obtain ⟨isSender, first, onChain, rfl⟩ := carried.origin_spec
    rw [TdmaMatrix.created_getElem (traced.listed i).distinct] at isSum
    refine ⟨first.beacon,
      (traced.wasSent first (carried.arrived first onChain)).1, chain,
      isSender, carried, ?_, isSum⟩
    intro hop listedHop
    obtain ⟨isSent, inTime⟩ :=
      traced.wasSent hop (carried.arrived hop listedHop)
    exact ⟨isSent, sub_nonneg.mpr inTime⟩
  · intro instantaneous beacon isSent k lists notSender
    obtain ⟨origin, chain, carried, inTime, isSum⟩ :=
      (traced.inFlight beacon isSent).others k lists notSender
    obtain ⟨isSender, first, onChain, rfl⟩ := carried.origin_spec
    have arrived := carried.arrived first onChain
    have noDelay : (chain.map Delivery.delay).sum = 0 := by
      apply List.sum_eq_zero
      intro delay isDelay
      obtain ⟨hop, listedHop, rfl⟩ := List.mem_map.mp isDelay
      exact instantaneous hop (carried.arrived hop listedHop)
    have recent := (traced.inFlight beacon isSent).recent k lists
    have atOnce : first.time = first.beacon.instant :=
      sub_eq_zero.mp (instantaneous first arrived)
    have before := inTime first onChain
    refine ⟨first.beacon, (traced.wasSent first arrived).1, isSender,
      by rwa [atOnce] at before, ?_⟩
    calc
      beacon.instant - first.beacon.instant
          = beacon.content.report.age k := by
        rw [noDelay, add_zero] at isSum
        rw [← isSum, sub_sub_cancel]
      _ < maxAge := recent

/-- Node 1 is heard by node 2, which tells node 3 about it. -/
def relayedOnce : List NetworkAction :=
  [.transmit 1 1 1,
    .deliver 0 2 (3 / 2),
    .thread 2 .pushEvent,
    .transmit 2 2 2,
    .deliver 1 3 (9 / 4)]

/-- Node 3 then dates node 1 to its beacon and both delays. -/
theorem gossip_cannot_invent_freshness_relayedOnce :
    ∃ (origin : SentBeacon) (chain : List Delivery),
      origin.sender = 1 ∧
        ((relayedOnce.foldl (networkStep .test)
              (networkStart (fun _ => 0) 0)).nodes
            3).matrix.myMatrix.creationTime 0 =
          origin.instant + (chain.map Delivery.delay).sum := by
  obtain ⟨origin, _, chain, isSender, _, _, isSum⟩ :=
    (gossip_cannot_invent_freshness .test 3 (fun _ => 0) 0
      ⟨relayedOnce, StepRun.Run.of_checkRun (by decide +kernel)⟩).1
      3 0 1 (by decide +kernel) (by decide)
  exact ⟨origin, chain, isSender, isSum⟩

end RoutingMesh
