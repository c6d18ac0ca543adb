import RoutingMesh.Lease
import RoutingMesh.RowFreshness

/-!
# How long a node stays listed

A remote node is listed as long as it holds a lease.  The lease is stamped by
the beacons that the node sent itself, with the time that they report, and by
the first report about a node that is not listed; reports that others make
about a listed node do not stamp it.  `removeDeadLinks` ends the leases that
are `MAX_AGE` old.  Reported ages are rationals, so that an age that is
infinite or not a number is left out.
-/

namespace RoutingMesh

open Lease KeyedCells

/-- What a merge stamps the lease of a remote node with, if it does. -/
def memberStamp
    (node : UInt8)
    (mine newMat : TdmaMatrix)
    (otherIp : UInt8)
    (time : ℚ) : Option ℚ :=
  if node ∉ newMat.idOfActiveNodes then
    none
  else if newMat.report.age node ≥ maxAge then
    -- The id is listed all the same, with the creation time of `memset`.
    if node ∈ mine.idOfActiveNodes then none else some 0
  else if node = otherIp ∨ node ∉ mine.idOfActiveNodes then
    some (time - newMat.report.age node)
  else
    none

/-- When an operation removes dead links. -/
def removalTimes : MatrixAction → List ℚ
  | .serialize removalTime _ => [removalTime]
  | .removeDeadLinks time => [time]
  | _ => []

/-- What an operation does to the lease of a remote node. -/
def leaseEvents
    (node : UInt8)
    (state : MatrixState) : MatrixAction → List (Event ℚ)
  | .update newMat otherIp time =>
      (memberStamp node state.myMatrix newMat otherIp time).toList.map .stamp
  | action => (removalTimes action).map .expire

/-- A node that is listed holds a lease since its creation time. -/
def memberLease (node : UInt8) (topology : Topology UInt8) : Option ℚ :=
  if node ∈ topology.members then some (topology.created node) else none

theorem isSome_memberLease
    {node : UInt8}
    {mat : TdmaMatrix} :
    (memberLease node mat.topology).isSome = true ↔
      node ∈ mat.idOfActiveNodes := by
  unfold memberLease
  rw [← TdmaMatrix.mem_members]
  split <;> simp [*]

section

variable {mode : LinkQualityMode}
variable {me node : UInt8}
variable {topology : Topology UInt8}

theorem memberLease_expire
    (remote : node ≠ me)
    (now : ℚ) :
    memberLease node (topology.expire me now) =
      step maxAge (memberLease node topology) (.expire now) := by
  have alive :
      node ∈ topology.alive me now ↔
        node ∈ topology.members ∧ now - topology.created node < maxAge := by
    rw [Topology.mem_alive, or_iff_right remote]
  by_cases listed : node ∈ topology.members
  · by_cases young : now - topology.created node < maxAge
    · have kept := alive.mpr ⟨listed, young⟩
      simp [memberLease, Topology.expire, Topology.restrict, listed, kept,
        young]
    · have silent : node ∉ topology.alive me now := by
        rw [alive]
        exact fun both => young both.2
      simp [memberLease, Topology.expire, Topology.restrict, listed, silent,
        young]
  · have silent : node ∉ topology.alive me now := by
      rw [alive]
      exact fun both => listed both.1
    simp [memberLease, Topology.expire, Topology.restrict, listed, silent]

theorem memberLease_refresh
    (remote : node ≠ me)
    (now : ℚ) :
    memberLease node (topology.refresh me now) = memberLease node topology := by
  simp [memberLease, Topology.refresh, remote]

/-- The creation time of a remote node that is listed after a merge. -/
theorem created_merge_of_ne
    {mine newMat : TdmaMatrix}
    (remote : node ≠ me)
    (otherIp : UInt8)
    (time : ℚ) :
    (mine.topology.merge mode newMat.report me otherIp time).created node =
      if mine.topology.Accepts newMat.report me otherIp time node ∧
          (node = otherIp ∨ node ∉ mine.topology.members) then
        time - newMat.report.age node
      else
        mine.topology.created node :=
  Topology.mergedCreated_of_ne remote

/-- A merge stamps the lease of a node that its report makes newer or known. -/
theorem memberLease_merge
    {mine newMat : TdmaMatrix}
    (remote : node ≠ me)
    (otherIp : UInt8)
    (time : ℚ) :
    memberLease node
        (mine.topology.merge mode newMat.report me otherIp time) =
      (((memberStamp node mine newMat otherIp time).toList.map
        Event.stamp).foldl (step maxAge) (memberLease node mine.topology)) := by
  have union :
      node ∈ (mine.topology.merge mode newMat.report me otherIp time).members ↔
        node ∈ mine.idOfActiveNodes ∨ node ∈ newMat.idOfActiveNodes := by
    rw [Topology.merge, Finset.mem_union, TdmaMatrix.mem_members,
      TdmaMatrix.mem_report_members]
  unfold memberLease memberStamp
  rw [if_congr union rfl rfl, created_merge_of_ne remote]
  simp only [Topology.Accepts, TdmaMatrix.mem_report_members,
    TdmaMatrix.mem_members]
  by_cases reported : node ∈ newMat.idOfActiveNodes
  · by_cases recent : newMat.report.age node < maxAge
    · by_cases listed : node ∈ mine.idOfActiveNodes
      · by_cases isDirect : node = otherIp
        · -- The newer one of the two times stays.
          subst isDirect
          simp [reported, recent, listed, remote, not_le.mpr recent,
            max_def_lt]
        · simp [reported, recent, listed, isDirect, not_le.mpr recent]
      · simp [reported, recent, listed, remote, not_le.mpr recent]
    · by_cases listed : node ∈ mine.idOfActiveNodes
      · simp [reported, recent, listed, not_lt.mp recent]
      · have unset : mine.topology.created node = 0 :=
          read_of_not_mem listed _
        simp [reported, recent, listed, not_lt.mp recent, unset]
  · simp [reported]

/-- Every operation does to the lease what its events say. -/
theorem memberLease_matrixStep
    {state : MatrixState}
    {action : MatrixAction}
    (listed : state.myMatrix.Listed me)
    (distinctIds : action.DistinctIds)
    (remote : node ≠ me) :
    memberLease node (matrixStep mode state action).myMatrix.topology =
      (leaseEvents node state action).foldl (step maxAge)
        (memberLease node state.myMatrix.topology) := by
  rw [topology_matrixStep listed distinctIds]
  cases action with
  | update newMat otherIp time =>
      exact memberLease_merge remote otherIp time
  | serialize removalTime time =>
      rw [topologyStep, memberLease_refresh remote, memberLease_expire remote]
      rfl
  | removeDeadLinks time =>
      rw [topologyStep, memberLease_expire remote]
      rfl
  | updateLinkQuality nodeId timeout =>
      rfl
  | setLinkQuality nodeId quality =>
      rfl

/-- The expiries of a run are its removals. -/
theorem expire_mem_trace_iff
    {state : MatrixState}
    {actions : List MatrixAction}
    {now : ℚ} :
    .expire now ∈
        StepRun.trace (matrixStep mode) (leaseEvents node) state actions ↔
      now ∈ actions.flatMap removalTimes := by
  induction actions generalizing state with
  | nil =>
      simp [StepRun.trace]
  | cons action rest inductionHypothesis =>
      rw [StepRun.trace, List.flatMap_cons, List.mem_append, List.mem_append,
        inductionHypothesis]
      refine or_congr_left ?_
      cases action <;> simp [leaseEvents, removalTimes]

/-- The actions of a run, with the operation that stamps a lease. -/
theorem stamp_leaseEvents
    {state : MatrixState}
    {action : MatrixAction}
    {stampedAt : ℚ}
    {first last : List (Event ℚ)}
    (recorded :
      leaseEvents node state action = first ++ .stamp stampedAt :: last) :
    (∃ newMat otherIp time,
        action = .update newMat otherIp time ∧
          memberStamp node state.myMatrix newMat otherIp time =
            some stampedAt) ∧
      first = [] ∧ last = [] := by
  have listed : Event.stamp stampedAt ∈ leaseEvents node state action := by
    rw [recorded]
    simp
  cases action with
  | update newMat otherIp time =>
      have isStamp :
          memberStamp node state.myMatrix newMat otherIp time =
            some stampedAt := by
        simpa [leaseEvents] using listed
      refine ⟨⟨newMat, otherIp, time, rfl, isStamp⟩, ?_⟩
      have lengths := congrArg List.length recorded
      simp only [leaseEvents, isStamp, Option.toList_some, List.map_cons,
        List.map_nil, List.length_append, List.length_cons,
        List.length_nil] at lengths
      exact ⟨List.length_eq_zero_iff.mp (by omega),
        List.length_eq_zero_iff.mp (by omega)⟩
  | serialize removalTime time =>
      simp [leaseEvents, removalTimes] at listed
  | removeDeadLinks time =>
      simp [leaseEvents, removalTimes] at listed
  | updateLinkQuality nodeId timeout =>
      simp [leaseEvents, removalTimes] at listed
  | setLinkQuality nodeId quality =>
      simp [leaseEvents, removalTimes] at listed

end

/-- A lease is what the events of the run since `MATRIX_init` left of it. -/
theorem memberLease_of_run
    {mode : LinkQualityMode}
    {me node : UInt8}
    (remote : node ≠ me)
    {start : ℚ}
    {actions : List MatrixAction}
    {state : MatrixState}
    (run :
      StepRun.Run (matrixStep mode) (fun _ action => action.DistinctIds)
        (matrixStart me start) actions state) :
    memberLease node state.myMatrix.topology =
      (StepRun.trace (matrixStep mode) (leaseEvents node)
        (matrixStart me start) actions).foldl (step maxAge) none := by
  induction run with
  | start =>
      have unlisted :
          node ∉ (matrixStart me start).myMatrix.topology.members := by
        rw [TdmaMatrix.mem_members]
        simpa [matrixStart, matrixInit, TdmaMatrix.zeroed] using remote
      exact if_neg unlisted
  | next action earlier allowed inductionHypothesis =>
      have listed := listed_of_reachable ⟨_, earlier⟩
      rw [memberLease_matrixStep listed allowed remote, inductionHypothesis,
        StepRun.trace_append_singleton, List.foldl_append,
        ← earlier.final_eq_foldl]

/--
In every run from `MATRIX_init`, of merges of any beacons with distinct ids,
serialisations, removals and quality updates at any times, a remote node is
listed exactly when some merge stamped it and every later removal came less
than `MAX_AGE` after the stamp.
-/
theorem listed_iff_stamped
    {mode : LinkQualityMode}
    {me node : UInt8}
    (remote : node ≠ me)
    {start : ℚ}
    {actions : List MatrixAction}
    {state : MatrixState}
    (run :
      StepRun.Run (matrixStep mode) (fun _ action => action.DistinctIds)
        (matrixStart me start) actions state) :
    node ∈ state.myMatrix.idOfActiveNodes ↔
      ∃ before newMat otherIp time after stampedAt,
        actions = before ++ .update newMat otherIp time :: after ∧
          memberStamp node
              (before.foldl (matrixStep mode) (matrixStart me start)).myMatrix
              newMat otherIp time =
            some stampedAt ∧
          ∀ now ∈ after.flatMap removalTimes, now - stampedAt < maxAge := by
  rw [← isSome_memberLease, memberLease_of_run remote run, isSome_trace_iff]
  constructor
  · rintro ⟨before, action, after, first, stampedAt, last, isSplit, recorded,
      outlasts⟩
    obtain ⟨⟨newMat, otherIp, time, rfl, isStamp⟩, rfl, rfl⟩ :=
      stamp_leaseEvents recorded
    exact ⟨before, newMat, otherIp, time, after, stampedAt, isSplit, isStamp,
      fun now removes => outlasts now (expire_mem_trace_iff.mpr removes)⟩
  · rintro ⟨before, newMat, otherIp, time, after, stampedAt, isSplit, isStamp,
      young⟩
    refine ⟨before, _, after, [], stampedAt, [], isSplit, ?_, fun now expires =>
      young now (expire_mem_trace_iff.mp expires)⟩
    simp [leaseEvents, isStamp]

/-- A beacon of the second node that also reports the third one, of some age. -/
def secondReportsThird (age : ℚ) : TdmaMatrix :=
  beaconOfRows [2, 3] [[0, 1], [1, 0]] [0, age]

/-- The second node reports the third one as new, twice in 1.5 s. -/
def reportsThirdAgain : List MatrixAction :=
  [.update (secondReportsThird 0) 2 10, .update (secondReportsThird 0) 2 (23 / 2),
    .removeDeadLinks (25 / 2)]

/-- The second node stays: its second beacon stamped it. -/
theorem listed_iff_stamped_reportsThirdAgain :
    2 ∈ (reportsThirdAgain.foldl (matrixStep .test)
      (matrixStart 1 9)).myMatrix.idOfActiveNodes := by
  have isRun :
      StepRun.Run (matrixStep .test) (fun _ action => action.DistinctIds)
        (matrixStart 1 9) reportsThirdAgain _ :=
    StepRun.Run.of_checkRun (by decide +kernel)
  exact (listed_iff_stamped (by decide) isRun).mpr
    ⟨[.update (secondReportsThird 0) 2 10], secondReportsThird 0, 2, 23 / 2,
      [.removeDeadLinks (25 / 2)], 23 / 2, rfl, by decide +kernel,
      by decide +kernel⟩

/-- A merged beacon reports no age below zero. -/
def MatrixAction.AgesNonneg : MatrixAction → Prop
  | .update newMat _ _ =>
      ∀ k ∈ newMat.idOfActiveNodes, 0 ≤ newMat.report.age k
  | _ => True

/-- Beacons list distinct ids and no age below zero, and the clock goes forward. -/
def MemberEnabled (state : MatrixState) (action : MatrixAction) : Prop :=
  action.ClockForward state.clock ∧ action.DistinctIds ∧ action.AgesNonneg

instance : DecidablePred MatrixAction.AgesNonneg
  | .update _ _ _ => inferInstanceAs (Decidable (∀ _ ∈ _, _))
  | .serialize _ _ => .isTrue trivial
  | .removeDeadLinks _ => .isTrue trivial
  | .updateLinkQuality _ _ => .isTrue trivial
  | .setLinkQuality _ _ => .isTrue trivial

instance (state : MatrixState) : DecidablePred (MemberEnabled state) :=
  fun _ => inferInstanceAs (Decidable (_ ∧ _ ∧ _))

section

variable {mode : LinkQualityMode}
variable {me node otherIp : UInt8}
variable {mine newMat : TdmaMatrix}
variable {time stampedAt : ℚ}

/-- No stamp is later than its merge. -/
theorem memberStamp_le
    (nonneg : 0 ≤ time)
    (ages : ∀ k ∈ newMat.idOfActiveNodes, 0 ≤ newMat.report.age k)
    (isStamp : memberStamp node mine newMat otherIp time = some stampedAt) :
    stampedAt ≤ time := by
  unfold memberStamp at isStamp
  split at isStamp
  · cases isStamp
  · rename_i reported
    have age := ages node (not_not.mp reported)
    split at isStamp
    · split at isStamp
      · cases isStamp
      · obtain rfl := Option.some.inj isStamp
        exact nonneg
    · split at isStamp
      · obtain rfl := Option.some.inj isStamp
        linarith
      · cases isStamp

/-- A listed node is only stamped by its own beacons. -/
theorem eq_of_memberStamp
    (listed : node ∈ mine.idOfActiveNodes)
    (isStamp : memberStamp node mine newMat otherIp time = some stampedAt) :
    otherIp = node ∧ node ∈ newMat.idOfActiveNodes ∧
      stampedAt = time - newMat.report.age node := by
  unfold memberStamp at isStamp
  split at isStamp
  · cases isStamp
  · rename_i reported
    split at isStamp
    · cases isStamp
    · split at isStamp
      · rename_i direct
        exact ⟨(direct.resolve_right (not_not.mpr listed)).symm,
          not_not.mp reported, (Option.some.inj isStamp).symm⟩
      · cases isStamp

/-- A run is not before its start, and its merges are not after its end. -/
theorem clock_of_run
    {start : ℚ}
    {actions : List MatrixAction}
    {state : MatrixState}
    (run :
      StepRun.Run (matrixStep mode) MemberEnabled (matrixStart me start)
        actions state) :
    start ≤ state.clock ∧
      ∀ newMat otherIp time, .update newMat otherIp time ∈ actions →
        start ≤ time ∧ time ≤ state.clock := by
  induction run with
  | start =>
      exact ⟨le_rfl, by simp⟩
  | @next actions state action earlier allowed inductionHypothesis =>
      obtain ⟨notBefore, merges⟩ := inductionHypothesis
      have forward : state.clock ≤ (matrixStep mode state action).clock :=
        clock_le_matrixStep allowed.1
      refine ⟨notBefore.trans forward, fun newMat otherIp time listed => ?_⟩
      rcases List.mem_append.mp listed with before | last
      · obtain ⟨after, still⟩ := merges newMat otherIp time before
        exact ⟨after, still.trans forward⟩
      · obtain rfl := List.mem_singleton.mp last
        exact ⟨notBefore.trans allowed.1, le_rfl⟩

end

/--
A remote node that stays listed for `MAX_AGE`, up to a removal, was heard
directly in that time: whatever the other nodes report, in any run, some
beacon of its own was merged, and at the removal the time that it reports is
younger than `MAX_AGE`.
-/
theorem heard_of_stays_listed
    {mode : LinkQualityMode}
    {me node : UInt8}
    (remote : node ≠ me)
    {start : ℚ}
    (nonneg : 0 ≤ start)
    {earlier later : List MatrixAction}
    {removal : MatrixAction}
    {removedAt : ℚ}
    (removes : removedAt ∈ removalTimes removal)
    {state : MatrixState}
    (run :
      StepRun.Run (matrixStep mode) MemberEnabled (matrixStart me start)
        (earlier ++ (later ++ [removal])) state)
    (longAgo :
      (earlier.foldl (matrixStep mode) (matrixStart me start)).clock + maxAge ≤
        removedAt)
    (staysListed :
      StepRun.Throughout (matrixStep mode)
        (earlier.foldl (matrixStep mode) (matrixStart me start))
        (fun state => node ∈ state.myMatrix.idOfActiveNodes)
        (later ++ [removal])) :
    ∃ newMat time,
      .update newMat node time ∈ later ∧
        node ∈ newMat.idOfActiveNodes ∧
        removedAt - (time - newMat.report.age node) < maxAge := by
  have listedAtEnd : node ∈ state.myMatrix.idOfActiveNodes := by
    have final := staysListed _ List.prefix_rfl
    rwa [← List.foldl_append, ← run.final_eq_foldl] at final
  obtain ⟨before, newMat, otherIp, time, after, stampedAt, isSplit, isStamp,
    young⟩ :=
    (listed_iff_stamped remote (run.mono fun _ _ allowed => allowed.2.1)).mp
      listedAtEnd
  -- The removal comes after the merge that stamped the lease.
  have isAfter : removal ∈ after := by
    have last := congrArg List.getLast? isSplit
    rw [← List.append_assoc, List.getLast?_concat,
      List.getLast?_append_cons] at last
    rcases List.eq_nil_or_concat after with none | ⟨rest, final, isFinal⟩
    · rw [none, List.getLast?_singleton, Option.some.injEq] at last
      rw [last] at removes
      simp [removalTimes] at removes
    · rw [isFinal, List.concat_eq_append, ← List.cons_append,
        List.getLast?_concat, Option.some.injEq] at last
      rw [isFinal, last]
      simp
  have youngAtRemoval : removedAt - stampedAt < maxAge :=
    young removedAt (List.mem_flatMap.mpr ⟨removal, isAfter, removes⟩)
  have fromLater :
      ∀ more, before = earlier ++ more →
        later ++ [removal] = more ++ .update newMat otherIp time :: after →
        ∃ newMat time,
          .update newMat node time ∈ later ∧
            node ∈ newMat.idOfActiveNodes ∧
            removedAt - (time - newMat.report.age node) < maxAge := by
    intro more isBefore isLater
    have listed := staysListed more ⟨_, isLater.symm⟩
    rw [isBefore, List.foldl_append] at isStamp
    obtain ⟨rfl, reported, rfl⟩ := eq_of_memberStamp listed isStamp
    refine ⟨newMat, time, ?_, reported, youngAtRemoval⟩
    have isMerge :
        .update newMat otherIp time ∈ later ++ [removal] := by
      rw [isLater]
      simp
    rcases List.mem_append.mp isMerge with inLater | isRemoval
    · exact inLater
    · rw [← List.mem_singleton.mp isRemoval] at removes
      simp [removalTimes] at removes
  rcases List.append_eq_append_iff.mp isSplit with
    ⟨more, isBefore, isLater⟩ | ⟨more, isEarlier, isRest⟩
  · exact fromLater more isBefore isLater
  · cases more with
    | nil =>
        rw [List.append_nil] at isEarlier
        exact fromLater [] (by rw [isEarlier, List.append_nil]) isRest.symm
    | cons first others =>
        -- A stamp of that time is too old at the removal.
        obtain ⟨rfl, _⟩ := List.cons.inj isRest
        have merged :
            .update newMat otherIp time ∈ earlier := by
          rw [isEarlier]
          simp
        obtain ⟨_, merges⟩ := clock_of_run run.of_append
        obtain ⟨afterStart, beforeEnd⟩ := merges newMat otherIp time merged
        have isPrefix :
            before ++ [.update newMat otherIp time] <+:
              earlier ++ (later ++ [removal]) :=
          ⟨after, by rw [isSplit, List.append_assoc, List.singleton_append]⟩
        obtain ⟨_, allowed⟩ := run.step_before isPrefix
        have notLater :=
          memberStamp_le (nonneg.trans afterStart) allowed.2.2 isStamp
        linarith

/-- The second node stays listed from 10 s to 12.5 s. -/
theorem heard_of_stays_listed_reportsThirdAgain :
    ∃ newMat time,
      .update newMat 2 time ∈
          [MatrixAction.update (secondReportsThird 0) 2 (23 / 2)] ∧
        2 ∈ newMat.idOfActiveNodes ∧
        25 / 2 - (time - newMat.report.age 2) < maxAge := by
  have isRun :
      StepRun.Run (matrixStep .test) MemberEnabled (matrixStart 1 9)
        ([.update (secondReportsThird 0) 2 10] ++
          ([.update (secondReportsThird 0) 2 (23 / 2)] ++
            [.removeDeadLinks (25 / 2)]))
        _ :=
    StepRun.Run.of_checkRun (by decide +kernel)
  refine heard_of_stays_listed (by decide) (by decide) (by simp [removalTimes])
    isRun (by decide +kernel) ?_
  intro leading isPrefix
  rw [← List.mem_inits] at isPrefix
  revert leading
  decide +kernel

end RoutingMesh
