import RoutingMesh.CausalPast
import RoutingMesh.GossipFreshness
import RoutingMesh.Membership

/-!
# How news of a node spreads

Before the first beacon of a node is `MAX_AGE` old, no lease that it gave rise
to can end.  In that time another node lists it exactly when it has heard of
it, directly or through relays, and a beacon lists it exactly when its sender
had.
-/

namespace RoutingMesh

open Lease

/-- What a step of the network is to the spread of news. -/
def NetworkAction.event : NetworkAction → CausalPast.Event UInt8
  | .transmit sender _ _ => .broadcast sender
  | .deliver message receiver _ => .receive message receiver
  | .thread node _ => .inside node

/-- A lease that is held exactly when there are news, and not from before `first`. -/
def HeldSince (first : ℚ) (news : Prop) : Option ℚ → Prop
  | none => ¬ news
  | some stampedAt => news ∧ first ≤ stampedAt

/-- The lease that a beacon reports for a node, as of its creation. -/
def SentBeacon.lease (node : UInt8) (beacon : SentBeacon) : Option ℚ :=
  if node ∈ beacon.content.idOfActiveNodes then
    some (beacon.instant - beacon.content.report.age node)
  else
    none

theorem SentBeacon.isSome_lease
    {node : UInt8}
    {beacon : SentBeacon} :
    (beacon.lease node).isSome = true ↔
      node ∈ beacon.content.idOfActiveNodes := by
  unfold SentBeacon.lease
  split <;> simp [*]

namespace HeldSince

variable {first now stampedAt : ℚ}
variable {news moreNews : Prop}
variable {lease : Option ℚ}

theorem isSome_iff (held : HeldSince first news lease) :
    lease.isSome = true ↔ news := by
  cases lease with
  | none =>
      exact iff_of_false Bool.false_ne_true held
  | some stampedAt =>
      exact iff_of_true rfl held.1

theorem congr
    (held : HeldSince first news lease)
    (same : news ↔ moreNews) :
    HeldSince first moreNews lease :=
  propext same ▸ held

/-- An expiry ends no lease that is younger than `maxAge`. -/
theorem expire
    (held : HeldSince first news lease)
    (within : now - first < maxAge) :
    HeldSince first news (step maxAge lease (.expire now)) := by
  cases lease with
  | none =>
      exact held
  | some stampedAt =>
      have young : now - stampedAt < maxAge := by
        have notBefore := held.2
        linarith
      rw [step_expire_some, if_pos young]
      exact held

/-- News stamp a lease, whether there were news before or not. -/
theorem stamp
    (held : HeldSince first news lease)
    (notBefore : first ≤ stampedAt)
    (isNews : moreNews) :
    HeldSince first moreNews (step maxAge lease (.stamp stampedAt)) := by
  cases lease with
  | none =>
      exact ⟨isNews, notBefore⟩
  | some earlier =>
      exact ⟨isNews, held.2.trans (le_max_left earlier stampedAt)⟩

end HeldSince

section

variable {mode : LinkQualityMode}
variable {me node : UInt8}
variable {first : ℚ}
variable {news : Prop}
variable {state : MatrixState}

/-- Operations other than merges leave the leases of young news as they are. -/
theorem heldSince_matrixStep
    {action : MatrixAction}
    (noMerge : ∀ newMat otherIp time, action ≠ .update newMat otherIp time)
    (listed : state.myMatrix.Listed me)
    (remote : node ≠ me)
    (within : ∀ now ∈ removalTimes action, now - first < maxAge)
    (held : HeldSince first news (memberLease node state.myMatrix.topology)) :
    HeldSince first news
      (memberLease node (matrixStep mode state action).myMatrix.topology) := by
  rw [memberLease_matrixStep listed
    (MatrixAction.distinctIds_of_noMerge noMerge) remote]
  cases action with
  | update newMat otherIp time =>
      exact (noMerge newMat otherIp time rfl).elim
  | serialize removalTime time =>
      exact held.expire (within removalTime (List.mem_singleton_self _))
  | removeDeadLinks time =>
      exact held.expire (within time (List.mem_singleton_self _))
  | updateLinkQuality nodeId timeout =>
      exact held
  | setLinkQuality nodeId quality =>
      exact held

/-- A step inside a node leaves the leases of young news as they are. -/
theorem heldSince_nodeStep
    {node : MeshNode}
    {source : UInt8}
    {action : NodeAction}
    {clock : ℚ}
    (listed : node.matrix.myMatrix.Listed me)
    (remote : source ≠ me)
    (inside : action.StaysInside)
    (within : action.reading clock - first < maxAge)
    (held :
      HeldSince first news
        (memberLease source node.matrix.myMatrix.topology)) :
    HeldSince first news
      (memberLease source
        (nodeStep mode node action).matrix.myMatrix.topology) := by
  rcases matrix_nodeStep_of_staysInside inside with
    same | ⟨operation, rfl, noMerge, same⟩
  · rwa [same]
  · rw [same]
    refine heldSince_matrixStep noMerge listed remote ?_ held
    intro now removes
    cases operation with
    | update newMat otherIp time =>
        exact (noMerge newMat otherIp time rfl).elim
    | serialize removalTime time =>
        exact inside.elim
    | removeDeadLinks time =>
        rwa [List.mem_singleton.mp removes]
    | updateLinkQuality nodeId timeout =>
        cases removes
    | setLinkQuality nodeId quality =>
        cases removes

/-- A merge adds the news that the beacon carries. -/
theorem heldSince_merge
    {delivered : List Delivery}
    {beacon : SentBeacon}
    {beaconNews : Prop}
    {time : ℚ}
    (listed : state.myMatrix.Listed me)
    (remote : node ≠ me)
    (traced : beacon.Traced delivered)
    (sentBefore : beacon.instant ≤ time)
    (held : HeldSince first news (memberLease node state.myMatrix.topology))
    (carried : HeldSince first beaconNews (beacon.lease node)) :
    HeldSince first (news ∨ beaconNews)
      (memberLease node
        (matrixStep mode state
          (.update beacon.content beacon.sender time)).myMatrix.topology) := by
  have distinctIds :
      MatrixAction.DistinctIds
        (.update beacon.content beacon.sender time) :=
    traced.distinct
  rw [memberLease_matrixStep listed distinctIds remote]
  simp only [leaseEvents, memberStamp]
  by_cases lists : node ∈ beacon.content.idOfActiveNodes
  · rw [SentBeacon.lease, if_pos lists] at carried
    have recent := traced.recent node lists
    rw [if_neg (not_not.mpr lists), if_neg (not_le.mpr recent)]
    by_cases taken :
        node = beacon.sender ∨ node ∉ state.myMatrix.idOfActiveNodes
    · rw [if_pos taken]
      have notBefore : first ≤ time - beacon.content.report.age node := by
        have reported := carried.2
        linarith
      exact held.stamp notBefore (.inr carried.1)
    · -- A report of a known node is no news.
      rw [if_neg taken]
      have known : node ∈ state.myMatrix.topology.members :=
        TdmaMatrix.mem_members.mpr (not_not.mp (not_or.mp taken).2)
      have old : news := by
        rw [memberLease, if_pos known] at held
        exact held.1
      exact held.congr (by simp [old])
  · rw [SentBeacon.lease, if_neg lists] at carried
    rw [if_pos lists]
    exact held.congr (by rw [or_iff_left carried])

/-- A beacon reports the lease that its sender holds. -/
theorem lease_transmitted
    {time : ℚ}
    (listed : state.myMatrix.Listed me)
    (remote : node ≠ me) :
    SentBeacon.lease node
        { sender := me
          instant := time
          content :=
            (matrixStep mode state
              (.serialize time time)).myMatrix.beacon } =
      memberLease node
        (matrixStep mode state (.serialize time time)).myMatrix.topology := by
  unfold SentBeacon.lease memberLease
  refine if_ctx_congr TdmaMatrix.mem_members.symm (fun lists => ?_)
    fun _ => rfl
  rw [report_beacon]
  dsimp only
  rw [age_serialize listed remote lists, sub_sub_cancel]

/-- Its own beacon reports a node as of now. -/
theorem lease_transmitted_self
    {time : ℚ}
    (listed : state.myMatrix.Listed me) :
    SentBeacon.lease me
        { sender := me
          instant := time
          content :=
            (matrixStep mode state
              (.serialize time time)).myMatrix.beacon } =
      some time := by
  have isTopology :
      (matrixStep mode state (.serialize time time)).myMatrix.topology =
        (state.myMatrix.topology.expire me time).refresh me time :=
    topology_matrixStep listed trivial
  have lists :
      me ∈ (matrixStep mode state
        (.serialize time time)).myMatrix.idOfActiveNodes :=
    (listed_matrixStep listed).self
  refine (if_pos lists).trans ?_
  rw [report_beacon, isTopology]
  simp [Topology.refresh]

/-- A beacon passes on the news of its sender. -/
theorem heldSince_transmitted
    {time : ℚ}
    (listed : state.myMatrix.Listed me)
    (own : node = me → news ∧ first ≤ time)
    (within : time - first < maxAge)
    (held :
      node ≠ me →
        HeldSince first news (memberLease node state.myMatrix.topology)) :
    HeldSince first news
      (SentBeacon.lease node
        { sender := me
          instant := time
          content :=
            (matrixStep mode state
              (.serialize time time)).myMatrix.beacon }) := by
  by_cases isOwn : node = me
  · subst isOwn
    rw [lease_transmitted_self listed]
    exact own rfl
  · rw [lease_transmitted listed isOwn]
    exact heldSince_matrixStep (by simp) listed isOwn
      (by simpa [removalTimes] using within) (held isOwn)

end

/--
The nodes and the beacons in flight list the source exactly when the events
so far brought or gave them news of it.
-/
structure SpreadsNews
    (source : UInt8)
    (first : ℚ)
    (events : List (CausalPast.Event UInt8))
    (network : MeshNetwork) : Prop where
  numbered : network.sent.length = CausalPast.broadcasts events
  held :
    ∀ i, source ≠ i →
      HeldSince first (CausalPast.HeardOf source events i)
        (memberLease source (network.nodes i).matrix.myMatrix.topology)
  carried :
    ∀ message beacon, network.sent[message]? = some beacon →
      HeldSince first (CausalPast.Carries source events message)
        (beacon.lease source)

/-- At the start nobody has heard of anybody else. -/
theorem spreadsNews_networkStart
    (source : UInt8)
    (first : ℚ)
    (boot : UInt8 → ℚ)
    (clock : ℚ) :
    SpreadsNews source first [] (networkStart boot clock) where
  numbered := rfl
  held i remote := by
    have unlisted :
        memberLease source
            ((networkStart boot clock).nodes i).matrix.myMatrix.topology =
          none := by
      refine if_neg fun listed => ?_
      exact remote
        (eq_of_mem_networkStart (TdmaMatrix.mem_members.mp listed))
    rw [unlisted, HeldSince, CausalPast.heardOf_iff]
    simpa using remote.symm
  carried message beacon isSent := by
    simp [networkStart] at isSent

namespace SpreadsNews

variable {mode : LinkQualityMode}
variable {source : UInt8}
variable {first : ℚ}
variable {events : List (CausalPast.Event UInt8)}
variable {network : MeshNetwork}

/-- A transmission passes on the news of its sender. -/
theorem transmit
    (spreads : SpreadsNews source first events network)
    (traced : network.Traced)
    {sender : UInt8}
    {time : ℚ}
    (since : sender = source → first ≤ time)
    (within : time - first < maxAge) :
    SpreadsNews source first (events ++ [.broadcast sender])
      (networkStep mode network (.transmit sender time time)) := by
  have sameNews :
      ∀ i,
        CausalPast.HeardOf source (events ++ [.broadcast sender]) i ↔
          CausalPast.HeardOf source events i := by
    intro i
    simp [CausalPast.heardOf_concat]
  exact
    { numbered := by
        simp [networkStep, CausalPast.broadcasts_concat, spreads.numbered]
      held := by
        intro i remote
        rw [propext (sameNews i)]
        by_cases isSender : i = sender
        · subst isSender
          simp only [networkStep, Function.update_self, matrix_nodeStep]
          exact heldSince_matrixStep (by simp) (traced.listed i) remote
            (by simpa [removalTimes] using within) (spreads.held i remote)
        · simp only [networkStep, Function.update_of_ne isSender]
          exact spreads.held i remote
      carried := by
        intro message beacon isSent
        rcases lt_or_ge message network.sent.length with earlier | last
        · have wasSent : network.sent[message]? = some beacon := by
            rw [← isSent]
            exact (List.getElem?_append_left earlier).symm
          rw [spreads.numbered] at earlier
          exact (spreads.carried message beacon wasSent).congr
            (CausalPast.carries_concat_of_lt earlier).symm
        · obtain ⟨isNumber, rfl⟩ :
              message = network.sent.length ∧
                { sender := sender
                  instant := time
                  content :=
                    (nodeStep mode (network.nodes sender)
                      (.matrix (.serialize time time))).matrix.myMatrix.beacon } =
                  beacon := by
            simp only [networkStep, List.getElem?_append_right last] at isSent
            rw [List.getElem?_singleton] at isSent
            split at isSent
            · exact ⟨by omega, Option.some.inj isSent⟩
            · cases isSent
          rw [isNumber, spreads.numbered,
            propext CausalPast.carries_broadcasts]
          simp only [matrix_nodeStep]
          refine heldSince_transmitted (traced.listed sender) ?_ within
            (spreads.held sender)
          rintro rfl
          exact ⟨.itself events, since rfl⟩ }

/-- A delivery brings the news of its beacon. -/
theorem deliver
    (spreads : SpreadsNews source first events network)
    (traced : network.Traced)
    {time : ℚ}
    (forward : network.clock ≤ time)
    {message : Nat}
    {beacon : SentBeacon}
    (found : network.sent[message]? = some beacon)
    (receiver : UInt8) :
    SpreadsNews source first (events ++ [.receive message receiver])
      (networkStep mode network (.deliver message receiver time)) := by
  have isSent : beacon ∈ network.sent := List.mem_of_getElem? found
  simp only [networkStep, found]
  exact
    { numbered := by
        simp [CausalPast.broadcasts_concat, spreads.numbered]
      held := by
        intro i remote
        by_cases isReceiver : i = receiver
        · subst isReceiver
          simp only [Function.update_self, matrix_nodeStep]
          refine
            (heldSince_merge (traced.listed i) remote
              (traced.inFlight beacon isSent)
              ((traced.sentBefore beacon isSent).trans forward)
              (spreads.held i remote)
              (spreads.carried message beacon found)).congr ?_
          simp [CausalPast.heardOf_concat]
        · simp only [Function.update_of_ne isReceiver]
          refine (spreads.held i remote).congr ?_
          simp [CausalPast.heardOf_concat, Ne.symm isReceiver]
      carried := by
        intro other otherBeacon otherSent
        refine (spreads.carried other otherBeacon otherSent).congr ?_
        simp [CausalPast.carries_concat] }

/-- A step of a thread spreads no news. -/
theorem thread
    (spreads : SpreadsNews source first events network)
    (traced : network.Traced)
    {node : UInt8}
    {action : NodeAction}
    (inside : action.StaysInside)
    (within : action.reading network.clock - first < maxAge) :
    SpreadsNews source first (events ++ [.inside node])
      (networkStep mode network (.thread node action)) where
  numbered := by
    simp [networkStep, CausalPast.broadcasts_concat, spreads.numbered]
  held := by
    intro i remote
    have sameNews :
        CausalPast.HeardOf source (events ++ [.inside node]) i ↔
          CausalPast.HeardOf source events i := by
      simp [CausalPast.heardOf_concat]
    rw [propext sameNews]
    by_cases isNode : i = node
    · subst isNode
      simp only [networkStep, Function.update_self]
      exact heldSince_nodeStep (traced.listed i) remote inside within
        (spreads.held i remote)
    · simp only [networkStep, Function.update_of_ne isNode]
      exact spreads.held i remote
  carried := by
    intro message beacon isSent
    refine (spreads.carried message beacon isSent).congr ?_
    simp [CausalPast.carries_concat]

/-- A step spreads the news that its event says. -/
theorem networkStep
    {numNodes : Nat}
    {action : NetworkAction}
    (spreads : SpreadsNews source first events network)
    (traced : network.Traced)
    (allowed : NetworkEnabled numNodes network action)
    (inStep : CommonClock network.clock action)
    (since :
      ∀ removalTime time, action = .transmit source removalTime time →
        first ≤ time)
    (within : (networkStep mode network action).clock - first < maxAge) :
    SpreadsNews source first (events ++ [action.event])
      (networkStep mode network action) := by
  cases action with
  | transmit sender removalTime time =>
      obtain ⟨rfl, _⟩ := inStep
      refine spreads.transmit traced ?_ within
      rintro rfl
      exact since removalTime removalTime rfl
  | deliver message receiver time =>
      obtain ⟨_, _, beacon, found, _⟩ := allowed
      exact spreads.deliver traced inStep found receiver
  | thread node action =>
      exact spreads.thread traced allowed.2.1 within

end SpreadsNews

/-- A clock that all nodes read does not go back in a step. -/
theorem clock_le_networkStep
    {mode : LinkQualityMode}
    {network : MeshNetwork}
    {action : NetworkAction}
    (inStep : CommonClock network.clock action) :
    network.clock ≤ (networkStep mode network action).clock := by
  cases action with
  | transmit sender removalTime time =>
      exact inStep.2
  | deliver message receiver time =>
      simp only [networkStep]
      split
      · exact le_rfl
      · exact inStep
  | thread node action =>
      exact inStep

/-- In every run all that is held or in flight has its chain of beacons. -/
theorem traced_of_run
    {mode : LinkQualityMode}
    {numNodes : Nat}
    {boot : UInt8 → ℚ}
    {clock : ℚ}
    {actions : List NetworkAction}
    {network : MeshNetwork}
    (run :
      StepRun.Run (networkStep mode)
        (fun network action =>
          NetworkEnabled numNodes network action ∧
            CommonClock network.clock action)
        (networkStart boot clock) actions network) :
    network.Traced :=
  run.invariant MeshNetwork.Traced (traced_networkStart boot clock)
    (fun traced allowed => traced.networkStep allowed.1 allowed.2)

/-- As long as the news are young, a run spreads them as its events say. -/
theorem spreadsNews_of_run
    {mode : LinkQualityMode}
    {numNodes : Nat}
    {boot : UInt8 → ℚ}
    {clock : ℚ}
    {actions : List NetworkAction}
    {network : MeshNetwork}
    (run :
      StepRun.Run (networkStep mode)
        (fun network action =>
          NetworkEnabled numNodes network action ∧
            CommonClock network.clock action)
        (networkStart boot clock) actions network)
    {source : UInt8}
    {first : ℚ}
    (since :
      ∀ removalTime time, .transmit source removalTime time ∈ actions →
        first ≤ time)
    (within : network.clock - first < maxAge) :
    SpreadsNews source first (actions.map NetworkAction.event) network := by
  induction run with
  | start =>
      exact spreadsNews_networkStart source first boot clock
  | @next actions network action earlier allowed inductionHypothesis =>
      have forward : network.clock ≤ (networkStep mode network action).clock :=
        clock_le_networkStep allowed.2
      have spreads :=
        inductionHypothesis
          (fun removalTime time listed =>
            since removalTime time (List.mem_append_left _ listed))
          (by linarith)
      rw [List.map_append, List.map_singleton]
      refine spreads.networkStep (traced_of_run earlier) allowed.1 allowed.2
        ?_ within
      rintro removalTime time rfl
      exact since removalTime time
        (List.mem_append_right _ (List.mem_singleton_self _))

/--
In every run of a network with a common clock, until `MAX_AGE` after the first
beacon of a node, the others list that node exactly when they have heard of
it, through whatever relays, delays, losses and repetitions; and a beacon
lists it exactly when its sender had heard of it.
-/
theorem listed_iff_heardOf
    {mode : LinkQualityMode}
    {numNodes : Nat}
    {boot : UInt8 → ℚ}
    {clock : ℚ}
    {actions : List NetworkAction}
    {network : MeshNetwork}
    (run :
      StepRun.Run (networkStep mode)
        (fun network action =>
          NetworkEnabled numNodes network action ∧
            CommonClock network.clock action)
        (networkStart boot clock) actions network)
    {source : UInt8}
    {first : ℚ}
    (since :
      ∀ removalTime time, .transmit source removalTime time ∈ actions →
        first ≤ time)
    (within : network.clock - first < maxAge) :
    (∀ i,
        source ∈ (network.nodes i).matrix.myMatrix.idOfActiveNodes ↔
          CausalPast.HeardOf source (actions.map NetworkAction.event) i) ∧
      ∀ message beacon, network.sent[message]? = some beacon →
        (source ∈ beacon.content.idOfActiveNodes ↔
          CausalPast.Carries source (actions.map NetworkAction.event)
            message) := by
  have spreads := spreadsNews_of_run run since within
  constructor
  · intro i
    by_cases isSource : source = i
    · subst isSource
      exact iff_of_true ((traced_of_run run).listed source).self (.itself _)
    · rw [← (spreads.held i isSource).isSome_iff, isSome_memberLease]
  · intro message beacon isSent
    rw [← (spreads.carried message beacon isSent).isSome_iff,
      SentBeacon.isSome_lease]

/-- Node 3 lists node 1, which it heard of through node 2. -/
theorem listed_iff_heardOf_relayedOnce :
    1 ∈ ((relayedOnce.foldl (networkStep .test)
      (networkStart (fun _ => 0) 0)).nodes 3).matrix.myMatrix.idOfActiveNodes := by
  have isRun :
      StepRun.Run (networkStep .test)
        (fun network action =>
          NetworkEnabled 3 network action ∧
            CommonClock network.clock action)
        (networkStart (fun _ => 0) 0) relayedOnce _ :=
    StepRun.Run.of_checkRun (by decide +kernel)
  have since :
      ∀ removalTime time, .transmit 1 removalTime time ∈ relayedOnce →
        (1 : ℚ) ≤ time := by
    simp [relayedOnce]
  have atNode2 :
      CausalPast.HeardOf (1 : UInt8)
        ([] ++ .broadcast 1 :: [] ++ .receive 0 2 :: [.inside 2]) 2 :=
    .received (.itself [])
  have atNode3 :
      CausalPast.HeardOf (1 : UInt8)
        ([.broadcast 1, .receive 0 2, .inside 2] ++ .broadcast 2 :: [] ++
          .receive 1 3 :: []) 3 :=
    .received atNode2
  exact ((listed_iff_heardOf isRun since (by decide +kernel)).1 3).mpr atNode3

end RoutingMesh
