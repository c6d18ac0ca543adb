import RoutingMesh.RowFreshness

/-!
# Advertised links were heard

A node sets a cell of its own row when it receives a beacon of the other end,
and the others have that row from beacons.  The creation times bound how old
it is: the owner advertises the link for `MAX_AGE` after that reception, and
another node holds the row for `MAX_AGE` after the time it dates the owner to.
-/

namespace RoutingMesh

open CellArray

/--
The beacons that carried the row of `a` with a link to `b` to a holder, in the
order of their arrival.
-/
inductive LinkCarriedBy
    (delivered : List Delivery)
    (a b : UInt8) : List Delivery → UInt8 → Prop where
  | own :
      LinkCarriedBy delivered a b [] a
  | relayed
      {chain : List Delivery}
      {delivery : Delivery}
      (carried : LinkCarriedBy delivered a b chain delivery.beacon.sender)
      (arrived : delivery ∈ delivered)
      (advertises : delivery.beacon.content.report.link a b ≠ 0)
      (inOrder : ∀ hop ∈ chain, hop.time ≤ delivery.beacon.instant) :
      LinkCarriedBy delivered a b (chain ++ [delivery]) delivery.receiver

/--
By `now` the holder has the link of `a` to `b` from a reception at `a`, less
than `maxAge` and the time in flight before what it dates `a` to.
-/
def LinkHeard
    (delivered : List Delivery)
    (a b holder : UInt8)
    (dated now : ℚ) : Prop :=
  ∃ last ∈ delivered, ∃ chain,
    last.beacon.sender = b ∧
      last.receiver = a ∧
      last.time ≤ now ∧
      LinkCarriedBy delivered a b chain holder ∧
      (∀ hop ∈ chain, last.time ≤ hop.beacon.instant ∧ hop.time ≤ now) ∧
      dated - last.time < maxAge + (chain.map Delivery.delay).sum

theorem LinkCarriedBy.mono
    {delivered chain : List Delivery}
    {a b holder : UInt8}
    (carried : LinkCarriedBy delivered a b chain holder)
    (more : List Delivery) :
    LinkCarriedBy (delivered ++ more) a b chain holder := by
  induction carried with
  | own =>
      exact .own
  | relayed carried arrived advertises inOrder inductionHypothesis =>
      exact .relayed inductionHypothesis (List.mem_append_left _ arrived)
        advertises inOrder

/-- Every hop of a chain is a delivery. -/
theorem LinkCarriedBy.arrived
    {delivered chain : List Delivery}
    {a b holder : UInt8}
    (carried : LinkCarriedBy delivered a b chain holder) :
    ∀ hop ∈ chain, hop ∈ delivered := by
  induction carried with
  | own =>
      simp
  | relayed carried arrived advertises inOrder inductionHypothesis =>
      intro hop listed
      rcases List.mem_append.mp listed with earlier | last
      · exact inductionHypothesis hop earlier
      · rw [List.mem_singleton.mp last]
        exact arrived

namespace LinkHeard

variable {delivered : List Delivery} {a b holder : UInt8}
variable {dated earlier now time : ℚ}

theorem mono
    (heard : LinkHeard delivered a b holder dated now)
    (more : List Delivery) :
    LinkHeard (delivered ++ more) a b holder dated now := by
  obtain ⟨last, arrived, chain, isEnd, isOwner, inTime, carried, inOrder,
    recent⟩ := heard
  exact ⟨last, List.mem_append_left _ arrived, chain, isEnd, isOwner, inTime,
    carried.mono more, inOrder, recent⟩

/-- What was heard stays heard, and may be dated earlier. -/
theorem later
    (heard : LinkHeard delivered a b holder dated now)
    (forward : now ≤ time)
    (notAfter : earlier ≤ dated) :
    LinkHeard delivered a b holder earlier time := by
  obtain ⟨last, arrived, chain, isEnd, isOwner, inTime, carried, inOrder,
    recent⟩ := heard
  refine ⟨last, arrived, chain, isEnd, isOwner, inTime.trans forward, carried,
    ?_, by linarith⟩
  intro hop listed
  exact ⟨(inOrder hop listed).1, (inOrder hop listed).2.trans forward⟩

/-- A beacon carries a link on, and the time in flight is added. -/
theorem relayed
    {delivery : Delivery}
    (heard :
      LinkHeard delivered a b delivery.beacon.sender
        (delivery.beacon.instant - delivery.beacon.content.report.age a)
        delivery.beacon.instant)
    (arrived : delivery ∈ delivered)
    (advertises : delivery.beacon.content.report.link a b ≠ 0)
    (forward : delivery.beacon.instant ≤ delivery.time) :
    LinkHeard delivered a b delivery.receiver
      (delivery.time - delivery.beacon.content.report.age a)
      delivery.time := by
  obtain ⟨last, received, chain, isEnd, isOwner, inTime, carried, inOrder,
    recent⟩ := heard
  refine ⟨last, received, chain ++ [delivery], isEnd, isOwner,
    inTime.trans forward,
    .relayed carried arrived advertises fun hop listed =>
      (inOrder hop listed).2,
    ?_, ?_⟩
  · intro hop listed
    rcases List.mem_append.mp listed with before | final
    · exact ⟨(inOrder hop before).1,
        (inOrder hop before).2.trans forward⟩
    · rw [List.mem_singleton.mp final]
      exact ⟨inTime, le_rfl⟩
  · rw [List.map_append, List.sum_append, List.map_singleton,
      List.sum_singleton, Delivery.delay]
    linarith

end LinkHeard

/-!
## The invariant
-/

/-- A node holds no link that its owner did not hear. -/
structure MatrixState.LinksHeard
    (delivered : List Delivery)
    (clock : ℚ)
    (me : UInt8)
    (state : MatrixState) : Prop where
  created :
    ∀ k ∈ state.myMatrix.topology.members, k ≠ me →
      state.myMatrix.topology.created k ≤ clock
  own :
    ∀ b, state.myMatrix.topology.link me b ≠ 0 →
      b ≠ me ∧
        ∃ last ∈ delivered,
          last.beacon.sender = b ∧
            last.receiver = me ∧
            state.myMatrix.topology.created b ≤ last.time ∧
            last.time ≤ clock
  held :
    ∀ a b, a ≠ me → state.myMatrix.topology.link a b ≠ 0 →
      LinkHeard delivered a b me (state.myMatrix.topology.created a) clock

/-- A beacon advertises no link that its owner did not hear. -/
structure SentBeacon.LinksHeard
    (delivered : List Delivery)
    (beacon : SentBeacon) : Prop where
  ages :
    ∀ k ∈ beacon.content.idOfActiveNodes, 0 ≤ beacon.content.report.age k
  advertised :
    ∀ a b, beacon.content.report.link a b ≠ 0 →
      LinkHeard delivered a b beacon.sender
        (beacon.instant - beacon.content.report.age a) beacon.instant

/-- Every link that is held or advertised was heard. -/
structure MeshNetwork.LinksHeard (network : MeshNetwork) : Prop where
  held :
    ∀ i, (network.nodes i).matrix.LinksHeard network.delivered network.clock i
  inFlight : ∀ beacon ∈ network.sent, beacon.LinksHeard network.delivered

/-- A set cell belongs to two listed nodes. -/
theorem TdmaMatrix.listed_of_link
    {mat : TdmaMatrix}
    {a b : UInt8}
    (isSet : mat.topology.link a b ≠ 0) :
    a ∈ mat.topology.members ∧ b ∈ mat.topology.members := by
  rw [mem_members, mem_members]
  by_contra unlisted
  exact isSet (readAt_of_not_listed unlisted _)

theorem SentBeacon.LinksHeard.mono
    {delivered : List Delivery}
    {beacon : SentBeacon}
    (heard : beacon.LinksHeard delivered)
    (more : List Delivery) :
    beacon.LinksHeard (delivered ++ more) where
  ages := heard.ages
  advertised a b isSet := (heard.advertised a b isSet).mono more

namespace MatrixState.LinksHeard

variable {mode : LinkQualityMode}
variable {delivered : List Delivery}
variable {clock time : ℚ}
variable {me : UInt8}
variable {state : MatrixState}

theorem mono
    (heard : state.LinksHeard delivered clock me)
    (more : List Delivery) :
    state.LinksHeard (delivered ++ more) clock me where
  created := heard.created
  own b isSet := by
    obtain ⟨remote, last, arrived, received⟩ := heard.own b isSet
    exact ⟨remote, last, List.mem_append_left _ arrived, received⟩
  held a b remote isSet := (heard.held a b remote isSet).mono more

theorem later
    (heard : state.LinksHeard delivered clock me)
    (forward : clock ≤ time) :
    state.LinksHeard delivered time me where
  created k listed remote := (heard.created k listed remote).trans forward
  own b isSet := by
    obtain ⟨remote, last, arrived, isEnd, isOwner, notBefore, inTime⟩ :=
      heard.own b isSet
    exact ⟨remote, last, arrived, isEnd, isOwner, notBefore,
      inTime.trans forward⟩
  held a b remote isSet :=
    (heard.held a b remote isSet).later forward le_rfl

/-- Any operation but a merge only clears cells and keeps creation times. -/
theorem step
    (heard : state.LinksHeard delivered clock me)
    (isListed : state.myMatrix.Listed me)
    {action : MatrixAction}
    (noMerge : ∀ newMat otherIp time, action ≠ .update newMat otherIp time) :
    (matrixStep mode state action).LinksHeard delivered clock me := by
  have isTopology :
      (matrixStep mode state action).myMatrix.topology =
        topologyStep mode me state.myMatrix.topology action :=
    topology_matrixStep isListed
      (MatrixAction.distinctIds_of_noMerge noMerge)
  have entry :
      ∀ k ∈ (matrixStep mode state action).myMatrix.topology.members,
        k ≠ me →
        k ∈ state.myMatrix.topology.members ∧
          (matrixStep mode state action).myMatrix.topology.created k =
            state.myMatrix.topology.created k := by
    intro k listed remote
    rw [isTopology] at listed ⊢
    exact created_topologyStep noMerge remote listed
  have cell :
      ∀ a b,
        (matrixStep mode state action).myMatrix.topology.link a b ≠ 0 →
        state.myMatrix.topology.link a b ≠ 0 := by
    intro a b isSet
    rw [isTopology] at isSet
    rcases link_topologyStep_or_zero noMerge a b with same | cleared
    · rwa [same] at isSet
    · exact (isSet cleared).elim
  exact
    { created := by
        intro k listed remote
        obtain ⟨known, same⟩ := entry k listed remote
        rw [same]
        exact heard.created k known remote
      own := by
        intro b isSet
        obtain ⟨remote, last, arrived, isEnd, isOwner, notBefore, inTime⟩ :=
          heard.own b (cell me b isSet)
        have listed := (TdmaMatrix.listed_of_link isSet).2
        exact ⟨remote, last, arrived, isEnd, isOwner,
          (entry b listed remote).2 ▸ notBefore, inTime⟩
      held := by
        intro a b remote isSet
        have listed := (TdmaMatrix.listed_of_link isSet).1
        rw [(entry a listed remote).2]
        exact heard.held a b remote (cell a b isSet) }

/-- A step inside a node holds links that were heard. -/
theorem nodeStep
    {node : MeshNode}
    {action : NodeAction}
    (heard : node.matrix.LinksHeard delivered clock me)
    (isListed : node.matrix.myMatrix.Listed me)
    (inside : action.StaysInside) :
    (nodeStep mode node action).matrix.LinksHeard delivered clock me := by
  rcases matrix_nodeStep_of_staysInside inside with
    same | ⟨operation, rfl, noMerge, same⟩
  · rwa [same]
  · rw [same]
    exact heard.step isListed noMerge

/-- Merging a beacon sets one own cell, and takes rows that were heard. -/
theorem merge
    (delivery : Delivery)
    (heard : state.LinksHeard delivered clock delivery.receiver)
    (isListed : state.myMatrix.Listed delivery.receiver)
    (traced : delivery.beacon.Traced delivered)
    (beaconHeard : delivery.beacon.LinksHeard delivered)
    (notOwn : delivery.beacon.sender ≠ delivery.receiver)
    (sentBefore : delivery.beacon.instant ≤ clock)
    (forward : clock ≤ delivery.time) :
    (matrixStep mode state
          (.update delivery.beacon.content delivery.beacon.sender
            delivery.time)).LinksHeard
      (delivered ++ [delivery]) delivery.time delivery.receiver := by
  have here : delivery ∈ delivered ++ [delivery] :=
    List.mem_append_right _ (List.mem_singleton_self _)
  have distinctIds :
      MatrixAction.DistinctIds
        (.update delivery.beacon.content delivery.beacon.sender
          delivery.time) :=
    traced.distinct
  have recent :
      ∀ id ∈ delivery.beacon.content.report.members,
        delivery.beacon.content.report.age id < maxAge :=
    fun id reported =>
      traced.recent id (TdmaMatrix.mem_report_members.mp reported)
  have isTopology :
      (matrixStep mode state
            (.update delivery.beacon.content delivery.beacon.sender
              delivery.time)).myMatrix.topology =
        state.myMatrix.topology.merge mode delivery.beacon.content.report
          delivery.receiver delivery.beacon.sender delivery.time :=
    topology_matrixStep isListed distinctIds
  have created :
      ∀ k ∈ (matrixStep mode state
            (.update delivery.beacon.content delivery.beacon.sender
              delivery.time)).myMatrix.topology.members,
        k ≠ delivery.receiver →
        (matrixStep mode state
            (.update delivery.beacon.content delivery.beacon.sender
              delivery.time)).myMatrix.topology.created k ≤
          delivery.time := by
    intro k listed remote
    rw [isTopology] at listed ⊢
    rcases created_merge mode recent remote listed with
      ⟨known, kept⟩ | ⟨reported, taken⟩
    · rw [kept]
      exact (heard.created k known remote).trans forward
    · have age :=
        beaconHeard.ages k (TdmaMatrix.mem_report_members.mp reported)
      rw [taken]
      linarith
  refine ⟨created, ?_, ?_⟩
  · intro b isSet
    by_cases isSender : b = delivery.beacon.sender
    · subst isSender
      exact ⟨notOwn, delivery, here, rfl, rfl,
        created _ (TdmaMatrix.listed_of_link isSet).2 notOwn, le_rfl⟩
    · rw [isTopology] at isSet ⊢
      -- No report replaces the own row.
      have wasSet :
          state.myMatrix.topology.link delivery.receiver b ≠ 0 := by
        simpa [Topology.merge, Topology.mergedLink, Topology.Accepts,
          isSender] using isSet
      obtain ⟨remote, last, arrived, isEnd, isOwner, notBefore, inTime⟩ :=
        heard.own b wasSet
      have same :
          state.myMatrix.topology.mergedCreated delivery.beacon.content.report
              delivery.receiver delivery.beacon.sender delivery.time b =
            state.myMatrix.topology.created b :=
        mergedCreated_of_known remote isSender
          (TdmaMatrix.listed_of_link wasSet).2
      exact ⟨remote, last, List.mem_append_left _ arrived, isEnd, isOwner,
        same.trans_le notBefore, inTime.trans forward⟩
  · intro a b remote isSet
    rw [isTopology] at isSet ⊢
    simp only [Topology.merge] at isSet ⊢
    by_cases accepted :
        state.myMatrix.topology.Accepts delivery.beacon.content.report
          delivery.receiver delivery.beacon.sender delivery.time a
    · rw [Topology.mergedLink_of_ne remote, if_pos accepted] at isSet
      refine LinkHeard.later
        (.relayed ((beaconHeard.advertised a b isSet).mono [delivery]) here
          isSet (sentBefore.trans forward))
        le_rfl ?_
      rw [Topology.mergedCreated_of_ne remote]
      split
      · exact le_rfl
      · rename_i keeps
        have known : a ∈ state.myMatrix.topology.members := by
          by_contra unknown
          exact keeps ⟨accepted, .inr unknown⟩
        exact (accepted.2.2.2.2.resolve_left (not_not.mpr known)).le
    · rw [Topology.mergedLink_of_ne remote, if_neg accepted] at isSet
      rw [Topology.mergedCreated_of_ne remote,
        if_neg fun both => accepted both.1]
      exact ((heard.held a b remote isSet).mono [delivery]).later forward
        le_rfl

end MatrixState.LinksHeard

/-- A serialised matrix advertises links that were heard. -/
theorem linksHeard_transmitted
    {mode : LinkQualityMode}
    {delivered : List Delivery}
    {clock time : ℚ}
    {me : UInt8}
    {state : MatrixState}
    (heard : state.LinksHeard delivered clock me)
    (traced : state.Traced delivered clock me)
    (isListed : state.myMatrix.Listed me)
    (forward : clock ≤ time) :
    SentBeacon.LinksHeard delivered
      { sender := me
        instant := time
        content :=
          (matrixStep mode state (.serialize time time)).myMatrix.beacon } := by
  have beaconTraced := traced_transmitted mode traced isListed forward
  have after :
      (matrixStep mode state (.serialize time time)).LinksHeard delivered
        clock me :=
    heard.step isListed (by simp)
  have ageOf :
      ∀ k ∈ (matrixStep mode state
            (.serialize time time)).myMatrix.topology.members,
        k ≠ me →
        (matrixStep mode state
              (.serialize time time)).myMatrix.beacon.report.age k =
          time -
            (matrixStep mode state
              (.serialize time time)).myMatrix.topology.created k := by
    intro k listed remote
    rw [report_beacon]
    exact age_serialize isListed remote listed
  constructor
  · intro k lists
    by_cases isMe : k = me
    · rw [isMe]
      exact beaconTraced.own.ge
    · have listed := TdmaMatrix.mem_members.mpr lists
      have notAfter := after.created k listed isMe
      have isAge := ageOf k listed isMe
      dsimp only
      linarith
  · intro a b advertises
    dsimp only at advertises ⊢
    have isSet :
        (matrixStep mode state
          (.serialize time time)).myMatrix.topology.link a b ≠ 0 := by
      rwa [report_beacon] at advertises
    obtain ⟨ownerListed, endListed⟩ := TdmaMatrix.listed_of_link isSet
    by_cases isMe : a = me
    · subst isMe
      obtain ⟨remote, last, arrived, isEnd, isOwner, notBefore, inTime⟩ :=
        after.own b isSet
      have young :=
        beaconTraced.recent b (TdmaMatrix.mem_members.mp endListed)
      dsimp only at young
      rw [ageOf b endListed remote] at young
      have noAge := beaconTraced.own
      dsimp only at noAge
      refine ⟨last, arrived, [], isEnd, isOwner, inTime.trans forward, .own,
        by simp, ?_⟩
      simp only [List.map_nil, List.sum_nil]
      linarith
    · rw [ageOf a ownerListed isMe, sub_sub_cancel]
      exact (after.held a b isMe isSet).later forward le_rfl

/-- At the start no link is held or advertised. -/
theorem linksHeard_networkStart (boot : UInt8 → ℚ) (clock : ℚ) :
    (networkStart boot clock).LinksHeard where
  held i := by
    have unset :
        ∀ a b,
          ((networkStart boot clock).nodes
            i).matrix.myMatrix.topology.link a b = 0 := by
      intro a b
      exact KeyedCells.readAt_zero _ a b
    exact
      { created := fun k listed remote =>
          (remote
            (eq_of_mem_networkStart (TdmaMatrix.mem_members.mp listed))).elim
        own := fun b isSet => (isSet (unset i b)).elim
        held := fun a b _ isSet => (isSet (unset a b)).elim }
  inFlight := by simp [networkStart]

namespace MeshNetwork.LinksHeard

variable {mode : LinkQualityMode}
variable {network : MeshNetwork}

/-- Every step of the network holds and advertises links that were heard. -/
theorem networkStep
    {numNodes : Nat}
    {action : NetworkAction}
    (heard : network.LinksHeard)
    (traced : network.Traced)
    (allowed : NetworkEnabled numNodes network action)
    (inStep : CommonClock network.clock action) :
    (networkStep mode network action).LinksHeard := by
  cases action with
  | transmit sender removalTime time =>
      obtain ⟨rfl, forward⟩ := inStep
      constructor
      · refine (Function.forall_update_iff _ fun i (node : MeshNode) =>
          node.matrix.LinksHeard network.delivered removalTime i).mpr
            ⟨?_, fun i _ => (heard.held i).later forward⟩
        rw [matrix_nodeStep]
        exact ((heard.held sender).later forward).step (traced.listed sender)
          (by simp)
      · intro beacon isSent
        rcases List.mem_append.mp isSent with earlier | last
        · exact heard.inFlight beacon earlier
        · rw [List.mem_singleton.mp last, matrix_nodeStep]
          exact linksHeard_transmitted (heard.held sender)
            (traced.held sender) (traced.listed sender) forward
  | deliver message receiver time =>
      obtain ⟨_, _, beacon, found, notOwn⟩ := allowed
      have isSent : beacon ∈ network.sent := List.mem_of_getElem? found
      have isBeacon : network.sent[message]? = some beacon := found
      simp only [RoutingMesh.networkStep, isBeacon]
      constructor
      · refine (Function.forall_update_iff _ fun i (node : MeshNode) =>
          node.matrix.LinksHeard (network.delivered ++ [_]) time i).mpr
            ⟨?_, fun i _ => ((heard.held i).mono _).later inStep⟩
        rw [matrix_nodeStep]
        exact (heard.held receiver).merge
          { beacon := beacon
            receiver := receiver
            time := time }
          (traced.listed receiver) (traced.inFlight beacon isSent)
          (heard.inFlight beacon isSent) notOwn
          (traced.sentBefore beacon isSent) inStep
      · intro other otherSent
        exact (heard.inFlight other otherSent).mono _
  | thread node action =>
      refine ⟨?_, heard.inFlight⟩
      exact (Function.forall_update_iff _ fun i (node : MeshNode) =>
        node.matrix.LinksHeard network.delivered
          (action.reading network.clock) i).mpr
        ⟨((heard.held node).later inStep).nodeStep (traced.listed node)
            allowed.2.1,
          fun i _ => (heard.held i).later inStep⟩

end MeshNetwork.LinksHeard

/--
In every run of a network with a common clock, a link of `a` to `b` that any
beacon advertises was heard: `a` received a beacon of `b`, and beacons carried
the row of `a` on from there.  That reception is at most the reported age of
`a`, `MAX_AGE` and the time in flight before the beacon.  When beacons arrive
at once, a link on which nothing was heard for twice `MAX_AGE` is in nobody's
beacon.
-/
theorem advertised_links_recent
    (mode : LinkQualityMode)
    (numNodes : Nat)
    (boot : UInt8 → ℚ)
    (clock : ℚ)
    {network : MeshNetwork}
    (reachable :
      StepRun.Reachable (networkStep mode)
        (fun network action =>
          NetworkEnabled numNodes network action ∧
            CommonClock network.clock action)
        (networkStart boot clock) network)
    {beacon : SentBeacon}
    (isSent : beacon ∈ network.sent)
    {a b : UInt8}
    (advertises : beacon.content.report.link a b ≠ 0) :
    ∃ last ∈ network.delivered, ∃ chain,
      last.beacon.sender = b ∧
        last.receiver = a ∧
        LinkCarriedBy network.delivered a b chain beacon.sender ∧
        (∀ hop ∈ chain,
          last.time ≤ hop.beacon.instant ∧ hop.time ≤ beacon.instant) ∧
        last.time ≤ beacon.instant ∧
        beacon.instant - last.time <
          beacon.content.report.age a + maxAge +
            (chain.map Delivery.delay).sum ∧
        beacon.content.report.age a < maxAge ∧
        ((∀ delivery ∈ network.delivered, delivery.delay = 0) →
          beacon.instant - last.time < 2 * maxAge) := by
  have invariant : network.Traced ∧ network.LinksHeard :=
    reachable.invariant (fun network => network.Traced ∧ network.LinksHeard)
      ⟨traced_networkStart boot clock, linksHeard_networkStart boot clock⟩
      (fun both allowed =>
        ⟨both.1.networkStep allowed.1 allowed.2,
          both.2.networkStep both.1 allowed.1 allowed.2⟩)
  obtain ⟨traced, heard⟩ := invariant
  obtain ⟨last, arrived, chain, isEnd, isOwner, inTime, carried, inOrder,
    recent⟩ := (heard.inFlight beacon isSent).advertised a b advertises
  have lists : a ∈ beacon.content.idOfActiveNodes := by
    by_contra unlisted
    exact advertises
      (TdmaMatrix.readAt_of_not_listed (fun both => unlisted both.1) _)
  have age := (traced.inFlight beacon isSent).recent a lists
  refine ⟨last, arrived, chain, isEnd, isOwner, carried, inOrder, inTime,
    by linarith, age, fun instantaneous => ?_⟩
  have noDelay : (chain.map Delivery.delay).sum = 0 := by
    apply List.sum_eq_zero
    intro delay isDelay
    obtain ⟨hop, listedHop, rfl⟩ := List.mem_map.mp isDelay
    exact instantaneous hop (carried.arrived hop listedHop)
  linarith

/-- Node 3 then sends a beacon of its own. -/
def relayedTwice : List NetworkAction :=
  relayedOnce ++ [.thread 3 .pushEvent, .transmit 3 (5 / 2) (5 / 2)]

/-- It advertises the link of node 2 to node 1, which node 2 had heard. -/
theorem advertised_links_recent_relayedTwice :
    ∃ last ∈ (relayedTwice.foldl (networkStep .test)
        (networkStart (fun _ => 0) 0)).delivered,
      last.beacon.sender = 1 ∧ last.receiver = 2 := by
  have isThird :
      2 < (relayedTwice.foldl (networkStep .test)
        (networkStart (fun _ => 0) 0)).sent.length := by
    decide +kernel
  have advertises :
      ((relayedTwice.foldl (networkStep .test)
        (networkStart (fun _ => 0) 0)).sent[2]).content.report.link 2 1 ≠
          0 := by
    decide +kernel +revert
  obtain ⟨last, arrived, _, isEnd, isOwner, _⟩ :=
    advertised_links_recent .test 3 (fun _ => 0) 0
      ⟨relayedTwice, StepRun.Run.of_checkRun (by decide +kernel)⟩
      (List.getElem_mem isThird) advertises
  exact ⟨last, arrived, isEnd, isOwner⟩

end RoutingMesh
