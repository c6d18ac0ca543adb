import RoutingMesh.DirectLinks
import RoutingMesh.GossipFreshness

/-!
# Which report a row comes from

`matrix_update` compares the origin time of a report with the creation time of
the entry, and a relayed report of a listed node leaves that creation time as
it is.  The run is followed with the report that every row was copied from, so
that the comparison the code makes can be held against the one that orders
reports: they agree for the rows whose report set the creation time.
-/

namespace RoutingMesh

open CellArray KeyedCells

instance
    (mine newMat : TdmaMatrix)
    (otherIp : UInt8)
    (time : ℚ) :
    DecidablePred (ReplacesRow mine newMat otherIp time) :=
  fun _ => inferInstanceAs (Decidable (_ ∧ _ ∧ _ ∧ _))

/-- The report that a row was copied from. -/
structure HeldReport where
  origin : ℚ
  relayed : Bool
  row : UInt8 → UInt8

/--
The report of `k` in a beacon, when it is merged.  It counts as relayed when
it does not set the creation time: another node sent it and `k` was listed.
-/
def reportHeld
    (mine newMat : TdmaMatrix)
    (otherIp : UInt8)
    (time : ℚ)
    (k : UInt8) : HeldReport where
  origin := time - newMat.report.age k
  relayed := decide (k ≠ otherIp ∧ k ∈ mine.idOfActiveNodes)
  row := newMat.report.link k

/-- The state of `matrix.c` with the reports that its rows come from. -/
structure ReportedState where
  matrix : MatrixState
  held : UInt8 → Option HeldReport

/-- After `MATRIX_init` no row comes from a report. -/
def reportedStart (myId : UInt8) (time : ℚ) : ReportedState where
  matrix := matrixStart myId time
  held := fun _ => none

/-- The reports that the rows come from after an operation. -/
def heldReports
    (state : ReportedState) : MatrixAction → UInt8 → Option HeldReport
  | .update newMat otherIp time, k =>
      if k ≠ state.matrix.myMatrix.myId ∧
          ReplacesRow state.matrix.myMatrix newMat otherIp time k then
        some (reportHeld state.matrix.myMatrix newMat otherIp time k)
      else
        state.held k
  | _, k => state.held k

/-- One operation; a node that is no longer listed has no row. -/
def reportedStep
    (mode : LinkQualityMode)
    (state : ReportedState)
    (action : MatrixAction) : ReportedState where
  matrix := matrixStep mode state.matrix action
  held k :=
    if k ∈ (matrixStep mode state.matrix action).myMatrix.idOfActiveNodes then
      heldReports state action k
    else
      none

/-- The beacons of neighbours, which list every identifier once. -/
def reportedEnabled
    (_ : ReportedState)
    (action : MatrixAction) : Prop :=
  action.DistinctIds

/-- Every cell of a row of another node is zero or comes from its report. -/
def RowsComeFromReports (me : UInt8) (state : ReportedState) : Prop :=
  ∀ k, k ≠ me → ∀ b,
    state.matrix.myMatrix.topology.link k b = 0 ∨
      ∃ report,
        state.held k = some report ∧
          state.matrix.myMatrix.topology.link k b = report.row b

/-- A merge replaces no row by a report with an earlier origin time. -/
def ReplacesByFresher (state : ReportedState) : MatrixAction → Prop
  | .update newMat otherIp time =>
      ∀ k ∈ newMat.idOfActiveNodes, ∀ report ∈ state.held k,
        ReplacesRow state.matrix.myMatrix newMat otherIp time k →
        report.origin ≤ time - newMat.report.age k
  | _ => True

/--
No report of a relayed row's node falls into the gap between the creation time
of its entry and the origin of the relayed report: it is from before or after,
too old to be read, or sent by others about an entry that has expired.
-/
def AvoidsRelayedGap (state : ReportedState) : MatrixAction → Prop
  | .update newMat otherIp time =>
      ∀ k ∈ newMat.idOfActiveNodes, ∀ report ∈ state.held k,
        report.relayed = true →
          time - newMat.report.age k ≤
              state.matrix.myMatrix.topology.created k ∨
            report.origin ≤ time - newMat.report.age k ∨
            maxAge ≤ newMat.report.age k ∨
            (k ≠ otherIp ∧
              maxAge ≤ time - state.matrix.myMatrix.topology.created k)
  | _ => True

instance : DecidablePred MatrixAction.DistinctIds
  | .update newMat _ _ =>
      inferInstanceAs (Decidable newMat.idOfActiveNodes.Nodup)
  | .serialize _ _ => .isTrue trivial
  | .removeDeadLinks _ => .isTrue trivial
  | .updateLinkQuality _ _ => .isTrue trivial
  | .setLinkQuality _ _ => .isTrue trivial

instance (state : ReportedState) : DecidablePred (reportedEnabled state) :=
  fun action => inferInstanceAs (Decidable action.DistinctIds)

instance (state : ReportedState) : DecidablePred (ReplacesByFresher state)
  | .update newMat otherIp time =>
      inferInstanceAs
        (Decidable
          (∀ k ∈ newMat.idOfActiveNodes, ∀ report ∈ state.held k,
            ReplacesRow state.matrix.myMatrix newMat otherIp time k →
            report.origin ≤ time - newMat.report.age k))
  | .serialize _ _ => .isTrue trivial
  | .removeDeadLinks _ => .isTrue trivial
  | .updateLinkQuality _ _ => .isTrue trivial
  | .setLinkQuality _ _ => .isTrue trivial

instance (state : ReportedState) : DecidablePred (AvoidsRelayedGap state)
  | .update newMat otherIp time =>
      inferInstanceAs
        (Decidable
          (∀ k ∈ newMat.idOfActiveNodes, ∀ report ∈ state.held k,
            report.relayed = true →
              time - newMat.report.age k ≤
                  state.matrix.myMatrix.topology.created k ∨
                report.origin ≤ time - newMat.report.age k ∨
                maxAge ≤ newMat.report.age k ∨
                (k ≠ otherIp ∧
                  maxAge ≤ time - state.matrix.myMatrix.topology.created k)))
  | .serialize _ _ => .isTrue trivial
  | .removeDeadLinks _ => .isTrue trivial
  | .updateLinkQuality _ _ => .isTrue trivial
  | .setLinkQuality _ _ => .isTrue trivial

/-!
## One operation
-/

/-- Any operation but a merge keeps a cell or clears it. -/
theorem link_topologyStep_or_zero
    {mode : LinkQualityMode}
    {me : UInt8}
    {topology : Topology UInt8}
    {action : MatrixAction}
    (noMerge : ∀ newMat otherIp time, action ≠ .update newMat otherIp time)
    (a b : UInt8) :
    (topologyStep mode me topology action).link a b = topology.link a b ∨
      (topologyStep mode me topology action).link a b = 0 := by
  have expired :
      ∀ time, (topology.expire me time).link a b = topology.link a b ∨
        (topology.expire me time).link a b = 0 := by
    intro time
    simp only [Topology.expire, Topology.restrict]
    split
    · exact .inl rfl
    · exact .inr rfl
  cases action with
  | update newMat otherIp time => exact (noMerge newMat otherIp time rfl).elim
  | serialize removalTime time => exact expired removalTime
  | removeDeadLinks time => exact expired time
  | updateLinkQuality nodeId timeout => exact .inl rfl
  | setLinkQuality nodeId quality => exact .inl rfl

/-- The row of an unlisted node reads as zero. -/
theorem TdmaMatrix.link_of_unlisted
    {mat : TdmaMatrix}
    {k : UInt8}
    (unlisted : k ∉ mat.idOfActiveNodes)
    (b : UInt8) :
    mat.topology.link k b = 0 :=
  readAt_of_not_listed (fun both => unlisted both.1) _

/-- What ties the rows and creation times to the reports they come from. -/
structure HoldsReports (me : UInt8) (state : ReportedState) : Prop where
  listed : state.matrix.myMatrix.Listed me
  remote :
    ∀ k report, state.held k = some report →
      k ≠ me ∧ k ∈ state.matrix.myMatrix.idOfActiveNodes
  rows : RowsComeFromReports me state
  created :
    ∀ k report, state.held k = some report → report.relayed = false →
      state.matrix.myMatrix.topology.created k = report.origin

theorem holdsReports_reportedStart (me : UInt8) (time : ℚ) :
    HoldsReports me (reportedStart me time) where
  listed := listed_matrixInit me time
  remote := by
    intro k report held
    simp [reportedStart] at held
  rows := by
    intro k notSelf b
    refine .inl (TdmaMatrix.link_of_unlisted ?_ b)
    simpa [reportedStart, matrixStart, matrixInit, TdmaMatrix.zeroed]
      using notSelf
  created := by
    intro k report held
    simp [reportedStart] at held

/-- A node with a held report is listed, and the report is what is recorded. -/
theorem held_reportedStep
    {mode : LinkQualityMode}
    {state : ReportedState}
    {action : MatrixAction}
    {k : UInt8}
    {report : HeldReport} :
    (reportedStep mode state action).held k = some report ↔
      k ∈ (matrixStep mode state.matrix action).myMatrix.idOfActiveNodes ∧
        heldReports state action k = some report := by
  simp only [reportedStep]
  split
  · rename_i listed
    simp [listed]
  · rename_i unlisted
    simp [unlisted]

/-- A report that a row comes from is one of another node. -/
theorem HoldsReports.ne_self
    {me k : UInt8}
    {state : ReportedState}
    {action : MatrixAction}
    {report : HeldReport}
    (holds : HoldsReports me state)
    (held : heldReports state action k = some report) :
    k ≠ me := by
  cases action with
  | update newMat otherIp time =>
      simp only [heldReports] at held
      split at held
      · rename_i replaced
        rw [← holds.listed.own]
        exact replaced.1
      · exact (holds.remote k report held).1
  | serialize removalTime time => exact (holds.remote k report held).1
  | removeDeadLinks time => exact (holds.remote k report held).1
  | updateLinkQuality nodeId timeout => exact (holds.remote k report held).1
  | setLinkQuality nodeId quality => exact (holds.remote k report held).1

/--
What an operation does to the row of another node that stays listed: a merge
copies it from an accepted report, or it stays, with cells cleared perhaps.
-/
theorem row_reportedStep
    {mode : LinkQualityMode}
    {me k : UInt8}
    {state : ReportedState}
    {action : MatrixAction}
    {next : Topology UInt8}
    (listed : state.matrix.myMatrix.Listed me)
    (distinctIds : action.DistinctIds)
    (notSelf : k ≠ me)
    (stays :
      k ∈ (matrixStep mode state.matrix action).myMatrix.idOfActiveNodes)
    (isNext :
      (matrixStep mode state.matrix action).myMatrix.topology = next) :
    (∃ report,
      heldReports state action k = some report ∧
        (∀ b, next.link k b = report.row b) ∧
        (report.relayed = false → next.created k = report.origin)) ∨
      (heldReports state action k = state.held k ∧
        (∀ b, next.link k b = state.matrix.myMatrix.topology.link k b ∨
          next.link k b = 0) ∧
        next.created k = state.matrix.myMatrix.topology.created k) := by
  subst isNext
  have kept :
      (∀ newMat otherIp time, action ≠ .update newMat otherIp time) →
        (∀ b,
          (matrixStep mode state.matrix action).myMatrix.topology.link k b =
              state.matrix.myMatrix.topology.link k b ∨
            (matrixStep mode state.matrix action).myMatrix.topology.link k b =
              0) ∧
          (matrixStep mode state.matrix action).myMatrix.topology.created k =
            state.matrix.myMatrix.topology.created k := by
    intro noMerge
    rw [← TdmaMatrix.mem_members,
      topology_matrixStep listed distinctIds] at stays
    rw [topology_matrixStep listed distinctIds]
    exact ⟨link_topologyStep_or_zero noMerge k,
      (created_topologyStep noMerge notSelf stays).2⟩
  cases action with
  | update newMat otherIp time =>
      have notOwn : k ≠ state.matrix.myMatrix.myId := by
        rw [listed.own]
        exact notSelf
      by_cases replaces :
          ReplacesRow state.matrix.myMatrix newMat otherIp time k
      · obtain ⟨row, created⟩ :=
          mergedMatrix_of_replacesRow mode listed.distinct listed.selfListed
            distinctIds notOwn replaces
        refine .inl ⟨_, if_pos ⟨notOwn, replaces⟩, row, ?_⟩
        intro setsTime
        refine created.trans (if_pos ?_)
        simpa [reportHeld, or_iff_not_imp_left] using setsTime
      · obtain ⟨row, created⟩ :=
          mergedMatrix_of_not_replacesRow mode listed.distinct
            listed.selfListed distinctIds notOwn replaces
        exact .inr ⟨if_neg (fun both => replaces both.2),
          fun b => .inl (row b), created⟩
  | serialize removalTime time => exact .inr ⟨rfl, kept nofun⟩
  | removeDeadLinks time => exact .inr ⟨rfl, kept nofun⟩
  | updateLinkQuality nodeId timeout => exact .inr ⟨rfl, kept nofun⟩
  | setLinkQuality nodeId quality => exact .inr ⟨rfl, kept nofun⟩

/-- Every operation keeps the tie. -/
theorem HoldsReports.step
    {mode : LinkQualityMode}
    {me : UInt8}
    {state : ReportedState}
    {action : MatrixAction}
    (holds : HoldsReports me state)
    (allowed : reportedEnabled state action) :
    HoldsReports me (reportedStep mode state action) where
  listed := listed_matrixStep holds.listed
  remote := by
    intro k report held
    obtain ⟨listed, recorded⟩ := held_reportedStep.mp held
    exact ⟨holds.ne_self recorded, listed⟩
  rows := by
    intro k notSelf b
    by_cases listed :
        k ∈ (matrixStep mode state.matrix action).myMatrix.idOfActiveNodes
    · rcases row_reportedStep holds.listed allowed notSelf listed rfl with
        ⟨report, recorded, row, -⟩ | ⟨sameReport, cell, -⟩
      · exact .inr ⟨report, held_reportedStep.mpr ⟨listed, recorded⟩, row b⟩
      · rcases cell b with same | cleared
        · rcases holds.rows k notSelf b with isZero | ⟨report, isHeld, old⟩
          · exact .inl (same.trans isZero)
          · exact .inr ⟨report,
              held_reportedStep.mpr ⟨listed, sameReport.trans isHeld⟩,
              same.trans old⟩
        · exact .inl cleared
    · exact .inl (TdmaMatrix.link_of_unlisted listed b)
  created := by
    intro k report held isDirect
    obtain ⟨listed, recorded⟩ := held_reportedStep.mp held
    rcases row_reportedStep holds.listed allowed (holds.ne_self recorded)
      listed rfl with ⟨copied, isCopied, -, created⟩ | ⟨sameReport, -, created⟩
    · obtain rfl : copied = report :=
        Option.some.inj (isCopied.symm.trans recorded)
      exact created isDirect
    · exact created.trans
        (holds.created k report (sameReport.symm.trans recorded) isDirect)

/-!
## Fresher reports win
-/

/--
The creation time orders the reports that set it; of a relayed row it is the
origin of an earlier report, and older reports from after that one win.
-/
theorem HoldsReports.replacesByFresher_iff
    {me : UInt8}
    {state : ReportedState}
    (holds : HoldsReports me state)
    (action : MatrixAction) :
    ReplacesByFresher state action ↔ AvoidsRelayedGap state action := by
  cases action with
  | update newMat otherIp time =>
      constructor
      · intro fresher k reported report held _
        by_contra inGap
        push Not at inGap
        obtain ⟨afterCreation, older, recent, mayRevive⟩ := inGap
        have replaces :
            ReplacesRow state.matrix.myMatrix newMat otherIp time k :=
          ⟨reported, recent, .inr afterCreation, by tauto⟩
        exact older.not_ge (fresher k reported report held replaces)
      · intro avoids k reported report held
        rintro ⟨-, recent, newer, mayRevive⟩
        have known := (holds.remote k report held).2
        have afterCreation :=
          newer.resolve_left (fun unlisted => unlisted known)
        cases isRelayed : report.relayed with
        | true =>
            rcases avoids k reported report held isRelayed with
              before | fresher | expired | ⟨notDirect, entryExpired⟩
            · exact absurd afterCreation before.not_gt
            · exact fresher
            · exact absurd recent expired.not_gt
            · have alive :=
                (mayRevive.resolve_left notDirect).resolve_left
                  (fun unlisted => unlisted known)
              exact absurd alive entryExpired.not_gt
        | false =>
            rw [holds.created k report held isRelayed] at afterCreation
            exact afterCreation.le
  | serialize removalTime time => exact Iff.rfl
  | removeDeadLinks time => exact Iff.rfl
  | updateLinkQuality nodeId timeout => exact Iff.rfl
  | setLinkQuality nodeId quality => exact Iff.rfl

/--
Of two reports of a listed node that pass the tests on their own, the second
one wins when it is fresher; when it is older, the first one stays if the node
sent it itself.
-/
theorem row_after_two_merges
    (mode : LinkQualityMode)
    {mine first second : TdmaMatrix}
    {me firstIp secondIp k : UInt8}
    {firstTime secondTime : ℚ}
    (listed : mine.Listed me)
    (firstDistinct : first.idOfActiveNodes.Nodup)
    (secondDistinct : second.idOfActiveNodes.Nodup)
    (notSelf : k ≠ me)
    (known : k ∈ mine.idOfActiveNodes)
    (firstReplaces : ReplacesRow mine first firstIp firstTime k)
    (secondReplaces : ReplacesRow mine second secondIp secondTime k)
    {merged : TdmaMatrix}
    (isMerged :
      mergedMatrix mode (mergedMatrix mode mine first firstIp firstTime)
        second secondIp secondTime = merged) :
    (firstTime - first.report.age k < secondTime - second.report.age k →
        ∀ b, merged.topology.link k b = second.report.link k b) ∧
      (secondTime - second.report.age k < firstTime - first.report.age k →
        ((∀ b, merged.topology.link k b = first.report.link k b) ↔
          k = firstIp ∨
            ∀ b, second.report.link k b = first.report.link k b)) := by
  subst isMerged
  have between := listed.mergedMatrix mode first firstIp firstTime
  have notOwn : k ≠ mine.myId := by
    rw [listed.own]
    exact notSelf
  have notOwnBetween :
      k ≠ (mergedMatrix mode mine first firstIp firstTime).myId := by
    rw [myId_mergedMatrix]
    exact notOwn
  obtain ⟨firstRow, firstCreated⟩ :=
    mergedMatrix_of_replacesRow mode listed.distinct listed.selfListed
      firstDistinct notOwn firstReplaces
  have stillKnown :
      k ∈ (mergedMatrix mode mine first firstIp firstTime).idOfActiveNodes := by
    rw [idOfActiveNodes_mergedMatrix, mem_discoverIds]
    exact .inl known
  obtain ⟨reported, recent, newer, mayRevive⟩ := secondReplaces
  have secondNewer := newer.resolve_left (fun unknown => unknown known)
  have firstNewer :=
    firstReplaces.2.2.1.resolve_left (fun unknown => unknown known)
  have revives :
      k = secondIp ∨ secondTime - mine.topology.created k < maxAge := by
    tauto
  simp only [known, not_true_eq_false, or_false] at firstCreated
  constructor
  · intro fresher
    refine (mergedMatrix_of_replacesRow mode between.distinct
      between.selfListed secondDistinct notOwnBetween
      ⟨reported, recent, .inr ?_, ?_⟩).1
    · rw [firstCreated]
      split
      · exact fresher
      · exact secondNewer
    · rw [firstCreated]
      rcases revives with isDirect | isAlive
      · exact .inl isDirect
      · refine .inr (.inr ?_)
        split
        · linarith
        · exact isAlive
  · intro older
    by_cases isDirect : k = firstIp
    · have keeps :
          ¬ ReplacesRow (mergedMatrix mode mine first firstIp firstTime)
            second secondIp secondTime k := by
        rintro ⟨-, -, newer, -⟩
        have later := newer.resolve_left (fun unknown => unknown stillKnown)
        rw [firstCreated, if_pos isDirect] at later
        exact older.not_gt later
      obtain ⟨row, -⟩ :=
        mergedMatrix_of_not_replacesRow mode between.distinct
          between.selfListed secondDistinct notOwnBetween keeps
      exact iff_of_true (fun b => (row b).trans (firstRow b)) (.inl isDirect)
    · rw [if_neg isDirect] at firstCreated
      have replacesAgain :
          ReplacesRow (mergedMatrix mode mine first firstIp firstTime)
            second secondIp secondTime k := by
        refine ⟨reported, recent, .inr ?_, ?_⟩
        · rw [firstCreated]
          exact secondNewer
        · rw [firstCreated]
          tauto
      obtain ⟨row, -⟩ :=
        mergedMatrix_of_replacesRow mode between.distinct between.selfListed
          secondDistinct notOwnBetween replacesAgain
      simp only [row, isDirect, false_or]

/--
In every run of merges, expiries and ratings from `MATRIX_init`, whatever the
ages and the clock, rows are replaced by fresher reports alone exactly when no
report falls between the creation time of an entry and the origin of its
relayed row.  Of two reports that pass the tests, the fresher one stays after
the other exactly when the node sent it itself, or they agree.
-/
theorem rows_replacedByFresher_iff
    (mode : LinkQualityMode)
    (me : UInt8)
    (boot : ℚ)
    {actions : List MatrixAction}
    {state : ReportedState}
    (run :
      StepRun.Run (reportedStep mode) reportedEnabled (reportedStart me boot)
        actions state) :
    RowsComeFromReports me state ∧
      (StepRun.EachStep (reportedStep mode) (reportedStart me boot)
          ReplacesByFresher actions ↔
        StepRun.EachStep (reportedStep mode) (reportedStart me boot)
          AvoidsRelayedGap actions) ∧
      ∀ first second firstIp secondIp firstTime secondTime k,
        first.idOfActiveNodes.Nodup →
        second.idOfActiveNodes.Nodup →
        k ≠ me →
        k ∈ state.matrix.myMatrix.idOfActiveNodes →
        ReplacesRow state.matrix.myMatrix first firstIp firstTime k →
        ReplacesRow state.matrix.myMatrix second secondIp secondTime k →
        let merged :=
          mergedMatrix mode
            (mergedMatrix mode state.matrix.myMatrix first firstIp firstTime)
            second secondIp secondTime
        (firstTime - first.report.age k < secondTime - second.report.age k →
            ∀ b, merged.topology.link k b = second.report.link k b) ∧
          (secondTime - second.report.age k <
              firstTime - first.report.age k →
            ((∀ b, merged.topology.link k b = first.report.link k b) ↔
              k = firstIp ∨
                ∀ b, second.report.link k b = first.report.link k b)) := by
  have holdsAlong :
      ∀ {leading : List MatrixAction} {visited : ReportedState},
        StepRun.Run (reportedStep mode) reportedEnabled
          (reportedStart me boot) leading visited →
        HoldsReports me visited :=
    fun earlier =>
      earlier.invariant (HoldsReports me) (holdsReports_reportedStart me boot)
        (fun holds allowed => holds.step allowed)
  refine ⟨(holdsAlong run).rows, ?_, ?_⟩
  · constructor
    · intro fresher leading action isPrefix
      obtain ⟨earlier, _⟩ := run.step_before isPrefix
      exact ((holdsAlong earlier).replacesByFresher_iff action).mp
        (fresher leading action isPrefix)
    · intro stay leading action isPrefix
      obtain ⟨earlier, _⟩ := run.step_before isPrefix
      exact ((holdsAlong earlier).replacesByFresher_iff action).mpr
        (stay leading action isPrefix)
  · intro first second firstIp secondIp firstTime secondTime k firstDistinct
      secondDistinct notSelf known firstReplaces secondReplaces
    exact row_after_two_merges mode (holdsAlong run).listed firstDistinct
      secondDistinct notSelf known firstReplaces secondReplaces rfl

/--
Node 1 learns of node 3 from node 2, gets a fresher report of it from node 4
and then one from node 2 again, with the given age.
-/
def relaysThird (age : ℚ) : List MatrixAction :=
  [.update (beaconOfRows [2, 3] [[0, 1], [1, 0]] [0, 1 / 2]) 2 1,
    .update (beaconOfRows [3, 4] [[0, 1], [1, 0]] [1 / 4, 0]) 4 2,
    .update (beaconOfRows [2, 3] [[0, 1], [1, 0]] [0, age]) 2 (21 / 10)]

/--
When the last report is fresher too, every row is replaced by a fresher one,
and of two further reports of node 3 the one that node 3 sent itself stays.
-/
theorem rows_replacedByFresher_relaysThird :
    StepRun.EachStep (reportedStep .test) (reportedStart 1 0)
        ReplacesByFresher (relaysThird (1 / 10)) ∧
      ∀ b,
        (mergedMatrix .test
            (mergedMatrix .test
              ((relaysThird (1 / 10)).foldl (reportedStep .test)
                (reportedStart 1 0)).matrix.myMatrix
              (beaconOfRows [3] [[0]] [0]) 3 (22 / 10))
            (beaconOfRows [2, 3] [[0, 1], [1, 0]] [0, 1 / 4]) 2
            (23 / 10)).topology.link 3 b =
          (beaconOfRows [3] [[0]] [0]).report.link 3 b := by
  obtain ⟨-, steps, orders⟩ :=
    rows_replacedByFresher_iff .test 1 0
      (StepRun.Run.of_checkRun (by decide +kernel) :
        StepRun.Run _ _ _ (relaysThird (1 / 10)) _)
  constructor
  · refine steps.mpr fun leading action isPrefix => ?_
    have checked :
        StepRun.Run (reportedStep .test) AvoidsRelayedGap (reportedStart 1 0)
          (relaysThird (1 / 10)) _ :=
      StepRun.Run.of_checkRun (by decide +kernel)
    exact (checked.step_before isPrefix).2
  · exact ((orders (beaconOfRows [3] [[0]] [0])
      (beaconOfRows [2, 3] [[0, 1], [1, 0]] [0, 1 / 4]) 3 2 (22 / 10)
      (23 / 10) 3 (by decide) (by decide) (by decide) (by decide +kernel)
      (by decide +kernel) (by decide +kernel)).2 (by decide +kernel)).mpr
      (.inl rfl)

/--
When the last report is a second old, it overwrites the fresher one that
node 4 relayed.
-/
theorem rows_overwrittenByOlder_relaysThird :
    ¬ ∀ (mode : LinkQualityMode) (me : UInt8) (boot : ℚ)
        (actions : List MatrixAction) (state : ReportedState),
      StepRun.Run (reportedStep mode) reportedEnabled (reportedStart me boot)
        actions state →
      StepRun.EachStep (reportedStep mode) (reportedStart me boot)
        ReplacesByFresher actions := by
  intro always
  have fresher :=
    always .test 1 0 (relaysThird 1) _
      (StepRun.Run.of_checkRun (by decide +kernel))
      ((relaysThird 1).take 2)
      (.update (beaconOfRows [2, 3] [[0, 1], [1, 0]] [0, 1]) 2 (21 / 10))
      (List.prefix_refl _)
  revert fresher
  decide +kernel

end RoutingMesh
