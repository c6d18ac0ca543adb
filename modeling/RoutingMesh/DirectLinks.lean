import RoutingMesh.MatrixWellFormed

/-!
# Direct links are fresh

A cell of the own row is set only by a beacon that the other node sent itself.
The joint invariant ties the cell, the creation time of the entry and the
history of merges: while the cell is set, the entry was created by the last
beacon of that node, so it expires with the silence of that node.
-/

namespace RoutingMesh

open CellArray KeyedCells

/-- `matrix[me][k] = 1`, at the positions of the two identifiers. -/
def TdmaMatrix.Hears (mat : TdmaMatrix) (k : UInt8) : Prop :=
  ∃ myPos pos,
    searchId mat mat.myId = some myPos ∧
      searchId mat k = some pos ∧
      mat.matrix myPos pos = 1

/-- The own cell of a node is the link of the stored topology. -/
theorem TdmaMatrix.hears_iff_link
    {mat : TdmaMatrix}
    {k : UInt8} :
    mat.Hears k ↔ mat.topology.link mat.myId k = 1 := by
  constructor
  · rintro ⟨myPos, pos, myFound, found, isSet⟩
    simp [topology, readAt, read_of_position myFound,
      read_of_position found, isSet]
  · intro isSet
    by_cases listed :
        mat.myId ∈ mat.idOfActiveNodes ∧ k ∈ mat.idOfActiveNodes
    · obtain ⟨myPos, myFound⟩ := exists_position listed.1
      obtain ⟨pos, found⟩ := exists_position listed.2
      refine ⟨myPos, pos, myFound, found, ?_⟩
      simpa [topology, readAt, read_of_position myFound,
        read_of_position found] using isSet
    · have unset : mat.topology.link mat.myId k = 0 :=
        readAt_of_not_listed listed _
      rw [unset] at isSet
      simp at isSet

/-- A beacon that lists its sender with age 0. -/
structure SenderBeacon
    (numNodes : Nat)
    (newMat : TdmaMatrix)
    (otherIp : UInt8) : Prop where
  distinct : newMat.idOfActiveNodes.Nodup
  inNetwork : ∀ id ∈ newMat.idOfActiveNodes, InNetwork numNodes id
  nonNegative :
    ∀ i, i < newMat.numberOfActiveNodes → 0 ≤ newMat.age i
  sender :
    ∃ i, i < newMat.numberOfActiveNodes ∧
      newMat.idOfActiveNodes[i]? = some otherIp ∧ newMat.age i = 0

theorem senderBeacon_iff
    {numNodes : Nat}
    {newMat : TdmaMatrix}
    {otherIp : UInt8} :
    SenderBeacon numNodes newMat otherIp ↔
      newMat.idOfActiveNodes.Nodup ∧
        (∀ id ∈ newMat.idOfActiveNodes, InNetwork numNodes id) ∧
        (∀ i, i < newMat.numberOfActiveNodes → 0 ≤ newMat.age i) ∧
        ∃ i, i < newMat.numberOfActiveNodes ∧
          newMat.idOfActiveNodes[i]? = some otherIp ∧ newMat.age i = 0 :=
  ⟨fun beacon =>
      ⟨beacon.distinct, beacon.inNetwork, beacon.nonNegative,
        beacon.sender⟩,
    fun ⟨distinct, inNetwork, nonNegative, sender⟩ =>
      ⟨distinct, inNetwork, nonNegative, sender⟩⟩

instance (numNodes : Nat) (newMat : TdmaMatrix) (otherIp : UInt8) :
    Decidable (SenderBeacon numNodes newMat otherIp) :=
  haveI := List.decidableBAll (InNetwork numNodes)
  decidable_of_iff' _ senderBeacon_iff

/-- The merged beacon comes from another node, which lists itself in it. -/
def ReceivesFromSender
    (numNodes : Nat)
    (me : UInt8) : MatrixAction → Prop
  | .update newMat otherIp _ =>
      otherIp ≠ me ∧ SenderBeacon numNodes newMat otherIp
  | _ => True

instance (numNodes : Nat) (me : UInt8) :
    DecidablePred (ReceivesFromSender numNodes me)
  | .update newMat otherIp _ =>
      inferInstanceAs
        (Decidable (otherIp ≠ me ∧ SenderBeacon numNodes newMat otherIp))
  | .serialize _ _ => .isTrue trivial
  | .removeDeadLinks _ => .isTrue trivial
  | .updateLinkQuality _ _ => .isTrue trivial
  | .setLinkQuality _ _ => .isTrue trivial

/-- The operations of a node whose neighbours list themselves. -/
def directEnabled
    (numNodes : Nat)
    (me : UInt8)
    (state : MatrixState)
    (action : MatrixAction) : Prop :=
  action.ClockForward state.clock ∧ ReceivesFromSender numNodes me action

instance (numNodes : Nat) (me : UInt8) (state : MatrixState) :
    DecidablePred (directEnabled numNodes me state) :=
  fun _ => inferInstanceAs (Decidable (_ ∧ _))

theorem ReceivesFromSender.distinctIds
    {numNodes : Nat}
    {me : UInt8}
    {action : MatrixAction}
    (receives : ReceivesFromSender numNodes me action) :
    action.DistinctIds := by
  cases action with
  | update newMat otherIp time => exact receives.2.distinct
  | serialize removalTime time => trivial
  | removeDeadLinks time => trivial
  | updateLinkQuality nodeId timeout => trivial
  | setLinkQuality nodeId quality => trivial

/-- What the beacon of a sender reports. -/
theorem SenderBeacon.report
    {numNodes : Nat}
    {newMat : TdmaMatrix}
    {otherIp : UInt8}
    (beacon : SenderBeacon numNodes newMat otherIp) :
    (∀ k, 0 ≤ newMat.report.age k) ∧
      otherIp ∈ newMat.report.members ∧ newMat.report.age otherIp = 0 := by
  refine ⟨?_, ?_, ?_⟩
  · intro k
    by_cases listed : k ∈ newMat.idOfActiveNodes
    · obtain ⟨i, inBounds, rfl⟩ := List.getElem_of_mem listed
      rw [TdmaMatrix.report_age_getElem beacon.distinct]
      exact beacon.nonNegative i inBounds
    · exact le_of_eq (read_of_not_mem listed _).symm
  · obtain ⟨i, _, owner, _⟩ := beacon.sender
    exact TdmaMatrix.mem_report_members.mpr (List.mem_of_getElem? owner)
  · obtain ⟨i, _, owner, isZero⟩ := beacon.sender
    have position :=
      (idxOf?_eq_some_iff_getElem? beacon.distinct).mpr owner
    exact (read_of_position position _).trans isZero

/-!
## One operation
-/

/-- The operation merges a beacon that `k` sent. -/
def MergesFrom (k : UInt8) (action : MatrixAction) : Prop :=
  ∃ newMat time, action = .update newMat k time

/-- For a node that is listed afterwards, only its own beacons set its cell. -/
theorem link_topologyStep
    {mode : LinkQualityMode}
    {numNodes : Nat}
    {me k : UInt8}
    {topology : Topology UInt8}
    {action : MatrixAction}
    (receives : ReceivesFromSender numNodes me action)
    (selfListed : me ∈ topology.members)
    (listed : k ∈ (topologyStep mode me topology action).members) :
    (topologyStep mode me topology action).link me k = 1 ↔
      MergesFrom k action ∨ topology.link me k = 1 := by
  cases action with
  | update newMat otherIp time =>
      have meRejected :
          ¬ topology.Accepts newMat.report me otherIp time me :=
        fun accepted => accepted.2.1 rfl
      have senderListed := receives.2.report.2.1
      by_cases isSender : k = otherIp
      · subst isSender
        simp [topologyStep, Topology.merge, Topology.mergedLink,
          MergesFrom, senderListed]
      · have notFrom : ¬ MergesFrom k (.update newMat otherIp time) := by
          rintro ⟨_, _, same⟩
          injection same with _ sameSender _
          exact isSender sameSender.symm
        simp [topologyStep, Topology.merge, Topology.mergedLink, isSender,
          meRejected, notFrom]
  | serialize removalTime time =>
      have notFrom : ¬ MergesFrom k (.serialize removalTime time) := by
        rintro ⟨_, _, same⟩
        cases same
      have kept :
          me ∈ topology.alive me removalTime ∧
            k ∈ topology.alive me removalTime :=
        ⟨Topology.mem_alive.mpr ⟨selfListed, .inl rfl⟩, listed⟩
      simp [topologyStep, Topology.expire, Topology.refresh,
        Topology.restrict, kept, notFrom]
  | removeDeadLinks time =>
      have notFrom : ¬ MergesFrom k (.removeDeadLinks time) := by
        rintro ⟨_, _, same⟩
        cases same
      have kept :
          me ∈ topology.alive me time ∧ k ∈ topology.alive me time :=
        ⟨Topology.mem_alive.mpr ⟨selfListed, .inl rfl⟩, listed⟩
      simp [topologyStep, Topology.expire, Topology.restrict, kept, notFrom]
  | updateLinkQuality nodeId timeout =>
      have notFrom : ¬ MergesFrom k (.updateLinkQuality nodeId timeout) := by
        rintro ⟨_, _, same⟩
        cases same
      simp [topologyStep, Topology.rate, notFrom]
  | setLinkQuality nodeId quality =>
      have notFrom : ¬ MergesFrom k (.setLinkQuality nodeId quality) := by
        rintro ⟨_, _, same⟩
        cases same
      simp [topologyStep, Topology.rate, notFrom]

/-- Creation times are no later than the clock. -/
def CreatedBefore (topology : Topology UInt8) (now : ℚ) : Prop :=
  ∀ k, topology.created k ≤ now

/-- Every operation keeps creation times behind a clock that starts at the epoch. -/
theorem createdBefore_topologyStep
    {mode : LinkQualityMode}
    {numNodes : Nat}
    {me : UInt8}
    {state : MatrixState}
    {action : MatrixAction}
    (allowed : directEnabled numNodes me state action)
    {topology : Topology UInt8}
    (epoch : 0 ≤ state.clock)
    (before : CreatedBefore topology state.clock) :
    CreatedBefore (topologyStep mode me topology action)
      (matrixStep mode state action).clock := by
  obtain ⟨forward, receives⟩ := allowed
  intro k
  have old := before k
  cases action with
  | update newMat otherIp time =>
      have age := receives.2.report.1 k
      have later : state.clock ≤ time := forward
      simp only [topologyStep, Topology.merge, Topology.mergedCreated,
        matrixStep]
      split
      · exact le_rfl
      · split
        · split
          · linarith
          · linarith
        · linarith
  | serialize removalTime time =>
      have later := forward.1.trans forward.2
      simp only [topologyStep, Topology.expire, Topology.refresh,
        Topology.restrict, matrixStep]
      split
      · exact le_rfl
      · split
        · linarith
        · linarith
  | removeDeadLinks time =>
      have later : state.clock ≤ time := forward
      simp only [topologyStep, Topology.expire, Topology.restrict,
        matrixStep]
      split
      · linarith
      · linarith
  | updateLinkQuality nodeId timeout =>
      exact old
  | setLinkQuality nodeId quality =>
      exact old

/--
While a cell of the own row is set, the entry of that node was created by a
beacon that the node sent itself.
-/
def CreatedByOwnBeacon
    (me : UInt8)
    (topology : Topology UInt8)
    (actions : List MatrixAction) : Prop :=
  ∀ k, k ≠ me → topology.link me k = 1 →
    ∃ newMat, .update newMat k (topology.created k) ∈ actions

/-- A set cell belongs to a listed node. -/
theorem TdmaMatrix.mem_of_link
    {mat : TdmaMatrix}
    {a b : UInt8}
    (isSet : mat.topology.link a b = 1) :
    b ∈ mat.idOfActiveNodes := by
  by_contra unlisted
  have unset : mat.topology.link a b = 0 :=
    readAt_of_column_not_mem unlisted _ _
  rw [unset] at isSet
  simp at isSet

/-- A beacon of `k` itself creates the entry of `k` at the time of the merge. -/
theorem mergedCreated_of_sender
    {topology : Topology UInt8}
    {report : Report UInt8}
    {me k : UInt8}
    {now clock : ℚ}
    (notSelf : k ≠ me)
    (before : CreatedBefore topology clock)
    (forward : clock ≤ now)
    (listed : k ∈ report.members)
    (isNew : report.age k = 0) :
    topology.mergedCreated report me k now k = now := by
  rw [Topology.mergedCreated_of_ne notSelf]
  split
  · rw [isNew, sub_zero]
  · rename_i rejected
    have old := before k
    by_contra different
    apply rejected
    refine ⟨⟨listed, notSelf, ?_, .inl rfl, .inr ?_⟩, .inl rfl⟩
    · rw [isNew, maxAge]
      norm_num
    · rw [isNew, sub_zero]
      exact lt_of_le_of_ne (old.trans forward) different

/-- The entry of a listed node is created anew only by its own beacons. -/
theorem mergedCreated_of_known
    {topology : Topology UInt8}
    {report : Report UInt8}
    {me other k : UInt8}
    {now : ℚ}
    (notSelf : k ≠ me)
    (notSender : k ≠ other)
    (known : k ∈ topology.members) :
    topology.mergedCreated report me other now k = topology.created k := by
  rw [Topology.mergedCreated_of_ne notSelf,
    if_neg (fun sets => sets.2.elim notSender (fun unknown => unknown known))]

/-- Every operation keeps the tie between cells, entries and own beacons. -/
theorem createdByOwnBeacon_matrixStep
    {mode : LinkQualityMode}
    {numNodes : Nat}
    {me : UInt8}
    {state : MatrixState}
    {action : MatrixAction}
    {actions : List MatrixAction}
    (allowed : directEnabled numNodes me state action)
    (before : CreatedBefore state.myMatrix.topology state.clock)
    (tied : CreatedByOwnBeacon me state.myMatrix.topology actions) :
    CreatedByOwnBeacon me
      (topologyStep mode me state.myMatrix.topology action)
      (actions ++ [action]) := by
  obtain ⟨forward, receives⟩ := allowed
  intro k notSelf isSet
  have remembered :
      ∀ {created : ℚ}, created = state.myMatrix.topology.created k →
        state.myMatrix.topology.link me k = 1 →
        ∃ newMat, .update newMat k created ∈ actions ++ [action] := by
    rintro created rfl wasSet
    obtain ⟨newMat, merged⟩ := tied k notSelf wasSet
    exact ⟨newMat, List.mem_append_left _ merged⟩
  cases action with
  | update newMat otherIp time =>
      obtain ⟨_, senderListed, isNew⟩ := receives.2.report
      by_cases isSender : k = otherIp
      · subst isSender
        refine ⟨newMat, ?_⟩
        have created :=
          mergedCreated_of_sender notSelf before forward senderListed isNew
        simp only [topologyStep, Topology.merge, created]
        simp
      · have meRejected :
            ¬ state.myMatrix.topology.Accepts newMat.report me otherIp
              time me :=
          fun accepted => accepted.2.1 rfl
        have wasSet : state.myMatrix.topology.link me k = 1 := by
          simpa [topologyStep, Topology.merge, Topology.mergedLink, isSender,
            meRejected] using isSet
        have known := TdmaMatrix.mem_members.mpr (TdmaMatrix.mem_of_link wasSet)
        exact remembered
          (mergedCreated_of_known notSelf isSender known) wasSet
  | serialize removalTime time =>
      simp only [topologyStep, Topology.expire, Topology.refresh,
        Topology.restrict, notSelf, ↓reduceIte] at isSet ⊢
      split at isSet
      · rename_i kept
        rw [if_pos kept.2]
        exact remembered rfl isSet
      · simp at isSet
  | removeDeadLinks time =>
      simp only [topologyStep, Topology.expire, Topology.restrict]
        at isSet ⊢
      split at isSet
      · rename_i kept
        rw [if_pos kept.2]
        exact remembered rfl isSet
      · simp at isSet
  | updateLinkQuality nodeId timeout =>
      exact remembered rfl isSet
  | setLinkQuality nodeId quality =>
      exact remembered rfl isSet

/-!
## Whole runs
-/

section Runs

variable {mode : LinkQualityMode} {numNodes : Nat} {me : UInt8}
variable {start : ℚ}

/-- What every run keeps, beside the history of its operations. -/
structure DirectInvariant
    (me : UInt8)
    (actions : List MatrixAction)
    (state : MatrixState) : Prop where
  listed : state.myMatrix.Listed me
  epoch : 0 ≤ state.clock
  before : CreatedBefore state.myMatrix.topology state.clock
  tied : CreatedByOwnBeacon me state.myMatrix.topology actions

theorem DirectInvariant.step
    {actions : List MatrixAction}
    {state : MatrixState}
    {action : MatrixAction}
    (invariant : DirectInvariant me actions state)
    (allowed : directEnabled numNodes me state action) :
    DirectInvariant me (actions ++ [action])
      (matrixStep mode state action) where
  listed := listed_matrixStep invariant.listed
  epoch := invariant.epoch.trans (clock_le_matrixStep allowed.1)
  before := by
    rw [topology_matrixStep invariant.listed allowed.2.distinctIds]
    exact createdBefore_topologyStep allowed invariant.epoch
      invariant.before
  tied := by
    rw [topology_matrixStep invariant.listed allowed.2.distinctIds]
    exact createdByOwnBeacon_matrixStep allowed invariant.before
      invariant.tied

/-- The invariant holds after every run that starts after the epoch. -/
theorem directInvariant_of_run
    (epoch : 0 ≤ start)
    {actions : List MatrixAction}
    {state : MatrixState}
    (run :
      StepRun.Run (matrixStep mode) (directEnabled numNodes me)
        (matrixStart me start) actions state) :
    DirectInvariant me actions state := by
  induction run with
  | start =>
      refine ⟨listed_matrixInit me start, epoch, ?_, ?_⟩
      · intro k
        by_cases isSelf : k = me
        · simp [matrixStart, matrixInit, TdmaMatrix.zeroed,
            TdmaMatrix.topology, KeyedCells.read, isSelf]
        · simpa [matrixStart, matrixInit, TdmaMatrix.zeroed,
            TdmaMatrix.topology, isSelf] using epoch
      · intro k _ isSet
        simp [matrixStart, matrixInit, TdmaMatrix.zeroed,
          TdmaMatrix.topology] at isSet
  | next action earlier allowed inductionHypothesis =>
      exact inductionHypothesis.step allowed

/-- The state after some operations. -/
def stateAfter
    (mode : LinkQualityMode)
    (me : UInt8)
    (start : ℚ)
    (actions : List MatrixAction) : MatrixState :=
  actions.foldl (matrixStep mode) (matrixStart me start)

/--
`admitting` is the operation that last admitted `k` to the list: `k` was not
listed before it and has been listed ever since.
-/
structure LastAdmits
    (mode : LinkQualityMode)
    (me : UInt8)
    (start : ℚ)
    (k : UInt8)
    (earlier : List MatrixAction)
    (admitting : MatrixAction)
    (later : List MatrixAction) : Prop where
  unlisted :
    k ∉ (stateAfter mode me start earlier).myMatrix.idOfActiveNodes
  listedSince :
    ∀ leading, leading <+: later →
      k ∈ (stateAfter mode me start
        (earlier ++ admitting :: leading)).myMatrix.idOfActiveNodes

/-- A node without an entry has no cell. -/
theorem not_hears_of_unlisted
    {mat : TdmaMatrix}
    {k : UInt8}
    (unlisted : k ∉ mat.idOfActiveNodes) :
    ¬ mat.Hears k := by
  intro hears
  exact unlisted (TdmaMatrix.mem_of_link (TdmaMatrix.hears_iff_link.mp hears))

/-- One operation of a run, read at the cell of a node it leaves listed. -/
private theorem hears_matrixStep
    {actions : List MatrixAction}
    {state : MatrixState}
    {action : MatrixAction}
    {k : UInt8}
    (invariant : DirectInvariant me actions state)
    (allowed : directEnabled numNodes me state action)
    (listed :
      k ∈ (matrixStep mode state action).myMatrix.idOfActiveNodes) :
    (matrixStep mode state action).myMatrix.Hears k ↔
      MergesFrom k action ∨ state.myMatrix.Hears k := by
  have nextListed : (matrixStep mode state action).myMatrix.Listed me :=
    listed_matrixStep invariant.listed
  have topology :
      (matrixStep mode state action).myMatrix.topology =
        topologyStep mode me state.myMatrix.topology action :=
    topology_matrixStep invariant.listed allowed.2.distinctIds
  rw [TdmaMatrix.hears_iff_link, TdmaMatrix.hears_iff_link,
    nextListed.own, invariant.listed.own, topology]
  apply link_topologyStep allowed.2
    (TdmaMatrix.mem_members.mpr invariant.listed.self)
  rw [← topology, TdmaMatrix.mem_members]
  exact listed

/-- Only a merge lists a node that was not listed. -/
private theorem exists_update_of_admitted
    {state : MatrixState}
    {action : MatrixAction}
    {k : UInt8}
    (invariant : state.myMatrix.Listed me)
    (distinctIds : action.DistinctIds)
    (unlisted : k ∉ state.myMatrix.idOfActiveNodes)
    (listed :
      k ∈ (matrixStep mode state action).myMatrix.idOfActiveNodes) :
    ∃ newMat otherIp time, action = .update newMat otherIp time := by
  rw [← TdmaMatrix.mem_members] at unlisted
  rw [← TdmaMatrix.mem_members,
    topology_matrixStep invariant distinctIds] at listed
  cases action with
  | update newMat otherIp time =>
      exact ⟨newMat, otherIp, time, rfl⟩
  | serialize removalTime time =>
      exact (unlisted (Topology.mem_alive.mp listed).1).elim
  | removeDeadLinks time =>
      exact (unlisted (Topology.mem_alive.mp listed).1).elim
  | updateLinkQuality nodeId timeout =>
      exact (unlisted listed).elim
  | setLinkQuality nodeId quality =>
      exact (unlisted listed).elim

/-- Every listed node other than the local one was last admitted by some merge. -/
private theorem exists_lastAdmits
    (epoch : 0 ≤ start)
    {actions : List MatrixAction}
    {state : MatrixState}
    (run :
      StepRun.Run (matrixStep mode) (directEnabled numNodes me)
        (matrixStart me start) actions state)
    {k : UInt8}
    (notSelf : k ≠ me)
    (listed : k ∈ state.myMatrix.idOfActiveNodes) :
    ∃ earlier newMat otherIp time later,
      actions = earlier ++ .update newMat otherIp time :: later ∧
        LastAdmits mode me start k earlier
          (.update newMat otherIp time) later := by
  induction run with
  | start =>
      simp [matrixStart, matrixInit, TdmaMatrix.zeroed, notSelf] at listed
  | @next actions state action run allowed inductionHypothesis =>
      have invariant := directInvariant_of_run epoch run
      have isFolded : state = stateAfter mode me start actions :=
        run.final_eq_foldl
      have nextFolded :
          matrixStep mode state action =
            stateAfter mode me start (actions ++ [action]) := by
        rw [isFolded, stateAfter, stateAfter, List.foldl_append]
        rfl
      by_cases wasListed : k ∈ state.myMatrix.idOfActiveNodes
      · obtain ⟨earlier, newMat, otherIp, time, later, shape, admits⟩ :=
          inductionHypothesis wasListed
        refine ⟨earlier, newMat, otherIp, time, later ++ [action],
          by simp [shape], admits.unlisted, ?_⟩
        intro leading isPrefix
        rcases List.prefix_concat_iff.mp isPrefix with whole | inLater
        · subst whole
          rw [nextFolded, shape] at listed
          simpa using listed
        · exact admits.listedSince leading inLater
      · obtain ⟨newMat, otherIp, time, rfl⟩ :=
          exists_update_of_admitted invariant.listed
            allowed.2.distinctIds wasListed listed
        refine ⟨actions, newMat, otherIp, time, [], rfl, ?_, ?_⟩
        · rw [← isFolded]
          exact wasListed
        · intro leading isPrefix
          rw [List.prefix_nil.mp isPrefix, ← nextFolded]
          exact listed

/-- Since its last admission a node has a cell once it has sent a beacon. -/
private theorem hears_iff_of_lastAdmits
    (epoch : 0 ≤ start)
    {k : UInt8}
    {earlier : List MatrixAction}
    {admitting : MatrixAction}
    {later : List MatrixAction}
    {state : MatrixState}
    (run :
      StepRun.Run (matrixStep mode) (directEnabled numNodes me)
        (matrixStart me start) (earlier ++ admitting :: later) state)
    (admits : LastAdmits mode me start k earlier admitting later) :
    state.myMatrix.Hears k ↔
      ∃ action ∈ admitting :: later, MergesFrom k action := by
  -- The last operation of a run, with the run and the state before it.
  have lastStep :
      ∀ {before : List MatrixAction} {action : MatrixAction}
          {final : MatrixState},
        StepRun.Run (matrixStep mode) (directEnabled numNodes me)
          (matrixStart me start) (before ++ [action]) final →
        k ∈ final.myMatrix.idOfActiveNodes →
        (final.myMatrix.Hears k ↔
          MergesFrom k action ∨
            (stateAfter mode me start before).myMatrix.Hears k) := by
    intro before action final fullRun listed
    obtain ⟨state, beforeRun, allowed, rfl⟩ := fullRun.last_step
    have isFolded : state = stateAfter mode me start before :=
      beforeRun.final_eq_foldl
    rw [← isFolded]
    exact hears_matrixStep (directInvariant_of_run epoch beforeRun)
      allowed listed
  induction later using List.reverseRecOn generalizing state with
  | nil =>
      have isFinal :
          state = stateAfter mode me start (earlier ++ [admitting]) :=
        run.final_eq_foldl
      have listed := admits.listedSince [] List.nil_prefix
      rw [← isFinal] at listed
      rw [lastStep run listed]
      simp [not_hears_of_unlisted admits.unlisted]
  | append_singleton rest last inductionHypothesis =>
      have isFinal :
          state =
            stateAfter mode me start
              (earlier ++ admitting :: (rest ++ [last])) :=
        run.final_eq_foldl
      have listed := admits.listedSince (rest ++ [last]) (List.prefix_refl _)
      rw [← isFinal] at listed
      have regroup :
          earlier ++ admitting :: (rest ++ [last]) =
            (earlier ++ admitting :: rest) ++ [last] := by
        simp
      rw [regroup] at run
      have admitsBefore : LastAdmits mode me start k earlier admitting rest :=
        ⟨admits.unlisted, fun leading isPrefix =>
          admits.listedSince leading (isPrefix.trans (by simp))⟩
      have before :
          (stateAfter mode me start
              (earlier ++ admitting :: rest)).myMatrix.Hears k ↔
            ∃ action ∈ admitting :: rest, MergesFrom k action :=
        inductionHypothesis run.of_append admitsBefore
      rw [lastStep run listed, before]
      simp only [List.mem_cons, List.mem_append, List.not_mem_nil, or_false]
      constructor
      · rintro (fromLast | ⟨action, member, merges⟩)
        · exact ⟨last, .inr (.inr rfl), fromLast⟩
        · exact ⟨action, member.imp_right .inl, merges⟩
      · rintro ⟨action, isAdmitting | inRest | isLast, merges⟩
        · exact .inr ⟨action, .inl isAdmitting, merges⟩
        · exact .inr ⟨action, .inr inRest, merges⟩
        · subst isLast
          exact .inl merges

end Runs

/--
Direct links are fresh.  A cell of the own row in a serialised beacon stands
for a beacon that the other node sent less than `MAX_AGE` ago, and at all
times the set cells are those of the listed nodes that have sent a beacon
since the merge that last admitted them.
-/
theorem direct_links_are_fresh
    (mode : LinkQualityMode)
    {numNodes : Nat}
    {me : UInt8}
    {start : ℚ}
    (epoch : 0 ≤ start)
    {actions : List MatrixAction}
    {state : MatrixState}
    (run :
      StepRun.Run (matrixStep mode) (directEnabled numNodes me)
        (matrixStart me start) actions state) :
    (∀ earlier removalTime time,
      actions = earlier ++ [.serialize removalTime time] →
      ∀ k, k ≠ me → state.myMatrix.Hears k →
        ∃ newMat received,
          .update newMat k received ∈ earlier ∧
            removalTime - maxAge < received) ∧
      (∀ k, k ≠ me → k ∈ state.myMatrix.idOfActiveNodes →
        ∃ earlier newMat otherIp time later,
          actions = earlier ++ .update newMat otherIp time :: later ∧
            LastAdmits mode me start k earlier
              (.update newMat otherIp time) later) ∧
      (∀ k, k ≠ me → ∀ earlier admitting later,
        actions = earlier ++ admitting :: later →
        LastAdmits mode me start k earlier admitting later →
        (state.myMatrix.Hears k ↔
          ∃ action ∈ admitting :: later, MergesFrom k action)) ∧
      ∀ k, k ∉ state.myMatrix.idOfActiveNodes →
        ¬ state.myMatrix.Hears k := by
  refine ⟨?_, ?_, ?_, ?_⟩
  · rintro earlier removalTime time rfl k notSelf hears
    obtain ⟨before, beforeRun, allowed, rfl⟩ := run.last_step
    have invariant := directInvariant_of_run epoch beforeRun
    rw [TdmaMatrix.hears_iff_link,
      (listed_matrixStep invariant.listed).own,
      topology_matrixStep invariant.listed allowed.2.distinctIds] at hears
    -- The serialised cell and its entry are those of a surviving node.
    simp only [topologyStep, Topology.expire, Topology.refresh,
      Topology.restrict] at hears
    split at hears
    · rename_i kept
      have young :=
        ((Topology.mem_alive.mp kept.2).2).resolve_left notSelf
      obtain ⟨newMat, merged⟩ := invariant.tied k notSelf hears
      exact ⟨newMat, _, merged, by linarith⟩
    · simp at hears
  · intro k notSelf listed
    exact exists_lastAdmits epoch run notSelf listed
  · rintro k notSelf earlier admitting later rfl admits
    exact hears_iff_of_lastAdmits epoch run admits
  · intro k unlisted
    exact not_hears_of_unlisted unlisted

/-- Node 1 hears node 2, which reports node 3, and then serialises. -/
def hearsOneOfTwo : List MatrixAction :=
  [.update (beaconOfRows [2, 3] [[0, 1], [1, 0]] [0, 1 / 2]) 2 1,
    .updateLinkQuality 3 true,
    .serialize 2 2]

/-- The cell of node 2 in that beacon stands for a beacon of node 2. -/
theorem direct_links_are_fresh_hearsOneOfTwo :
    ∃ newMat received,
      .update newMat 2 received ∈ hearsOneOfTwo ∧
        2 - maxAge < received := by
  have run :
      StepRun.Run (matrixStep .test) (directEnabled 3 1) (matrixStart 1 0)
        hearsOneOfTwo
        (hearsOneOfTwo.foldl (matrixStep .test) (matrixStart 1 0)) :=
    StepRun.Run.of_checkRun (by decide +kernel)
  obtain ⟨newMat, received, merged, recent⟩ :=
    (direct_links_are_fresh .test (by decide) run).1
      (hearsOneOfTwo.take 2) 2 2 rfl 2 (by decide)
      ⟨0, 1, by decide +kernel, by decide +kernel, by decide +kernel⟩
  exact ⟨newMat, received, List.mem_of_mem_take merged, recent⟩

end RoutingMesh
