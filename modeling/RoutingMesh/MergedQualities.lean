import RoutingMesh.MatrixState

/-!
# The qualities that a merge leaves

The qualities after `matrix_update` are a formula in the old ones and in the
merged links, whatever the beacon lists, even an identifier twice: no report
touches the row of the local node.
-/

namespace RoutingMesh

open CellArray KeyedCells

/-! ## Reports leave the other entries alone -/

/-- Considering a report of `id` changes no other entry. -/
theorem entry_acceptReport_of_ne
    {final : TdmaMatrix}
    (distinct : final.idOfActiveNodes.Nodup)
    (localMat newMat : TdmaMatrix)
    (otherIp : UInt8)
    (time : ℚ)
    {id k : UInt8}
    (differ : k ≠ id)
    (i : Nat) :
    (acceptReport localMat newMat final otherIp time id i).topology.entry k =
      final.topology.entry k := by
  unfold acceptReport
  split
  · rfl
  · dsimp only
    split
    · rfl
    · rename_i finalPos finalOwned
      split
      · rfl
      · split
        · apply Entry.ext
          · funext b
            refine (readAt_write distinct finalOwned _ _ k b).trans ?_
            rw [if_neg differ]
            refine (readAt_write distinct finalOwned _ _ k b).trans ?_
            rw [if_neg differ]
            rfl
          · refine (read_write distinct finalOwned _ _ k).trans ?_
            rw [if_neg differ]
            rfl
          · refine (read_write distinct finalOwned _ _ k).trans ?_
            rw [if_neg differ]
            rfl
        · rfl

/-- The identifiers and the entry of one node are those of `final`. -/
structure SameEntry
    (final : TdmaMatrix)
    (k : UInt8)
    (state : TdmaMatrix) : Prop where
  ids : state.idOfActiveNodes = final.idOfActiveNodes
  entry : state.topology.entry k = final.topology.entry k

/-- No report changes the entry of the local node. -/
theorem entry_acceptReports_self
    {final : TdmaMatrix}
    (distinct : final.idOfActiveNodes.Nodup)
    (localMat newMat : TdmaMatrix)
    (otherIp : UInt8)
    (time : ℚ) :
    (acceptReports localMat newMat final otherIp time).topology.entry
        localMat.myId =
      final.topology.entry localMat.myId := by
  have kept :
      ∀ {state : TdmaMatrix} {id : UInt8} {i : Nat},
        SameEntry final localMat.myId state →
        SameEntry final localMat.myId
          (acceptReport localMat newMat state otherIp time id i) := by
    rintro state id i ⟨sameIds, sameEntry⟩
    refine ⟨(idOfActiveNodes_acceptReport ..).trans sameIds, ?_⟩
    by_cases isSelf : id = localMat.myId
    · rw [acceptReport, if_pos (.inl isSelf)]
      exact sameEntry
    · have stateDistinct : state.idOfActiveNodes.Nodup := by
        rw [sameIds]
        exact distinct
      rw [entry_acceptReport_of_ne stateDistinct _ _ _ _ (Ne.symm isSelf)]
      exact sameEntry
  have started : SameEntry final localMat.myId final := ⟨rfl, rfl⟩
  exact (forEachFrom_invariant kept started).entry

/-- The entry loops keep the own entry. -/
theorem entry_acceptedMatrix_self
    {localMat : TdmaMatrix}
    (distinct : localMat.idOfActiveNodes.Nodup)
    (newMat : TdmaMatrix)
    (otherIp : UInt8)
    (time : ℚ) :
    (acceptedMatrix localMat newMat otherIp time).topology.entry
        localMat.myId =
      localMat.topology.entry localMat.myId := by
  rw [← entry_copiedMatrix distinct newMat]
  refine entry_acceptReports_self ?_ localMat newMat otherIp time
  rw [(inFrame_copiedMatrix localMat newMat).ids]
  exact nodup_discoverIds distinct newMat

/-! ## The own row and the qualities after a merge -/

section

variable {mine : TdmaMatrix}
variable (distinct : mine.idOfActiveNodes.Nodup)
variable (selfListed : mine.myId ∈ mine.idOfActiveNodes)
include distinct selfListed

/-- A merge of any beacon sets the own cell of the sender and no other. -/
theorem link_mergedMatrix_self
    (mode : LinkQualityMode)
    (newMat : TdmaMatrix)
    (otherIp : UInt8)
    (time : ℚ)
    (b : UInt8) :
    (mergedMatrix mode mine newMat otherIp time).topology.link mine.myId b =
      if b = otherIp ∧ otherIp ∈ discoverIds mine newMat then 1
      else mine.topology.link mine.myId b := by
  rw [topology_mergedMatrix_of_confirmed mode distinct selfListed]
  change (confirmedMatrix mine newMat otherIp time).topology.link _ b = _
  have localDistinct :
      (updateLinkQuality mine otherIp false).idOfActiveNodes.Nodup := by
    simpa using distinct
  have ownEntry :=
    entry_acceptedMatrix_self localDistinct newMat otherIp time
  rw [myId_updateLinkQuality,
    topology_updateLinkQuality distinct selfListed] at ownEntry
  obtain ⟨links, -⟩ :=
    cells_confirmedMatrix distinct selfListed newMat otherIp time rfl
  refine (links mine.myId b).trans ?_
  simp only [true_and]
  split
  · rfl
  · exact congrFun (congrArg Entry.row ownEntry) b

/--
The qualities after a merge of any beacon: the local ones, with the link to
the sender rated up, filled where the merged row has a link without a
quality, and boosted for the sender.
-/
theorem quality_mergedMatrix
    (mode : LinkQualityMode)
    (newMat : TdmaMatrix)
    (otherIp : UInt8)
    (time : ℚ)
    (a b : UInt8) :
    let merged := mergedMatrix mode mine newMat otherIp time
    let received :=
      (mine.topology.rate mine.myId otherIp
        (adjustQuality · false)).quality a b
    let filled :=
      if a ∈ discoverIds mine newMat ∧ b ∈ discoverIds mine newMat ∧
          a ≠ b ∧ merged.topology.link a b = 1 ∧ received = 0 then
        initialLinkQuality mode
      else
        received
    merged.topology.quality a b =
      if a = mine.myId ∧ b = otherIp ∧ otherIp ∈ discoverIds mine newMat ∧
          filled < initialLinkQuality mode + 10 then
        initialLinkQuality mode + 10
      else
        filled := by
  intro merged received filled
  have merges :=
    topology_mergedMatrix_of_confirmed mode distinct selfListed newMat
      otherIp time
  simp only [filled, received, merged, merges]

end

/-! ## The links to other nodes than the sender -/

/--
The merge changes no quality of a link from the local node to a node that was
listed before and is not the sender.
-/
def OnlySenderRated
    (mode : LinkQualityMode)
    (mine newMat : TdmaMatrix)
    (otherIp : UInt8)
    (time : ℚ) : Prop :=
  ∀ k ∈ mine.idOfActiveNodes, k ≠ mine.myId → k ≠ otherIp →
    (mergedMatrix mode mine newMat otherIp time).topology.quality
        mine.myId k =
      mine.topology.quality mine.myId k

/-- No other node that the local node hears has the quality 0. -/
def OtherLinksRated (mine : TdmaMatrix) (otherIp : UInt8) : Prop :=
  ∀ k ∈ mine.idOfActiveNodes, k ≠ mine.myId → k ≠ otherIp →
    mine.topology.link mine.myId k = 1 →
      mine.topology.quality mine.myId k ≠ 0

theorem initialLinkQuality_ne_zero (mode : LinkQualityMode) :
    initialLinkQuality mode ≠ 0 := by
  cases mode <;> decide

/-- The quality of the link to a node that did not send the beacon. -/
theorem quality_mergedMatrix_of_not_sender
    (mode : LinkQualityMode)
    {mine : TdmaMatrix}
    (distinct : mine.idOfActiveNodes.Nodup)
    (selfListed : mine.myId ∈ mine.idOfActiveNodes)
    (newMat : TdmaMatrix)
    {otherIp k : UInt8}
    (time : ℚ)
    (notSelf : k ≠ mine.myId)
    (notSender : k ≠ otherIp) :
    (mergedMatrix mode mine newMat otherIp time).topology.quality
        mine.myId k =
      if mine.topology.link mine.myId k = 1 ∧
          mine.topology.quality mine.myId k = 0 then
        initialLinkQuality mode
      else
        mine.topology.quality mine.myId k := by
  have formula :=
    quality_mergedMatrix distinct selfListed mode newMat otherIp time
      mine.myId k
  have sameLink :=
    link_mergedMatrix_self distinct selfListed mode newMat otherIp time k
  rw [if_neg (fun both => notSender both.1)] at sameLink
  have selfMember : mine.myId ∈ discoverIds mine newMat :=
    mem_discoverIds.mpr (.inl selfListed)
  have heardIsMember :
      mine.topology.link mine.myId k = 1 → k ∈ discoverIds mine newMat := by
    intro heard
    by_contra notMember
    rw [mem_discoverIds, not_or] at notMember
    have unheard : mine.topology.link mine.myId k = 0 :=
      readAt_of_column_not_mem notMember.1 _ _
    rw [unheard] at heard
    exact absurd heard (by decide)
  refine formula.trans ?_
  simp only [sameLink, selfMember, notSender, Ne.symm notSelf, Topology.rate,
    ne_eq, not_false_eq_true, true_and, false_and, and_false, ↓reduceIte]
  exact if_congr
    ⟨fun all => all.2, fun both => ⟨heardIsMember both.1, both⟩⟩ rfl rfl

/--
In every reachable state a beacon of any content re-rates no link but that of
its sender, exactly when no other link of the local node has the quality 0.
-/
theorem onlySenderRated_iff
    (mode : LinkQualityMode)
    (me : UInt8)
    (start : ℚ)
    {state : MatrixState}
    (reachable :
      StepRun.Reachable (matrixStep mode) (fun _ _ => True)
        (matrixStart me start) state)
    (newMat : TdmaMatrix)
    (otherIp : UInt8)
    (time : ℚ) :
    OnlySenderRated mode state.myMatrix newMat otherIp time ↔
      OtherLinksRated state.myMatrix otherIp := by
  have listed := listed_of_reachable reachable
  constructor
  · intro unchanged k kListed notSelf notSender heard unrated
    have same := unchanged k kListed notSelf notSender
    rw [quality_mergedMatrix_of_not_sender mode listed.distinct
      listed.selfListed newMat time notSelf notSender,
      if_pos ⟨heard, unrated⟩, unrated] at same
    exact initialLinkQuality_ne_zero mode same
  · intro rated k kListed notSelf notSender
    rw [quality_mergedMatrix_of_not_sender mode listed.distinct
      listed.selfListed newMat time notSelf notSender]
    exact if_neg fun both => rated k kListed notSelf notSender both.1 both.2

/-- Node 1 hears node 2 and then misses some of its slots. -/
def hearsThenMisses (misses : Nat) : List MatrixAction :=
  .update (beaconOfRows [2] [[0]] [0]) 2 1 ::
    List.replicate misses (.updateLinkQuality 2 true)

/-- After one missed slot a beacon of node 3 leaves the link to node 2 alone. -/
theorem onlySenderRated_missesOnce :
    OnlySenderRated .test
      ((hearsThenMisses 1).foldl (matrixStep .test)
        (matrixStart 1 0)).myMatrix
      (beaconOfRows [3] [[0]] [0]) 3 2 := by
  refine (onlySenderRated_iff .test 1 0
    ⟨hearsThenMisses 1, StepRun.Run.of_checkRun (by decide +kernel)⟩
    (beaconOfRows [3] [[0]] [0]) 3 2).mpr ?_
  unfold OtherLinksRated
  decide +kernel

/-- After three missed slots it restores the link from 0 to the initial quality. -/
theorem onlySenderRated_fails_missesThrice :
    ¬ ∀ (mode : LinkQualityMode) (me : UInt8) (start : ℚ)
        (state : MatrixState),
      StepRun.Reachable (matrixStep mode) (fun _ _ => True)
        (matrixStart me start) state →
      ∀ newMat otherIp time,
        OnlySenderRated mode state.myMatrix newMat otherIp time := by
  intro always
  have unchanged :=
    always .test 1 0
      ((hearsThenMisses 3).foldl (matrixStep .test) (matrixStart 1 0))
      ⟨hearsThenMisses 3, StepRun.Run.of_checkRun (by decide +kernel)⟩
      (beaconOfRows [3] [[0]] [0]) 3 2 2 (by decide +kernel)
      (by decide +kernel) (by decide)
  revert unchanged
  decide +kernel

/-! ## The link to the sender -/

/-- The quality of the local link to a node, as a number. -/
def ownQuality (mat : TdmaMatrix) (other : UInt8) : Nat :=
  (mat.topology.quality mat.myId other).toNat

/-- What a merge from a direct neighbour must leave of the link to it. -/
def RecoversByThree
    (mode : LinkQualityMode)
    (mine newMat : TdmaMatrix)
    (otherIp : UInt8)
    (time : ℚ) : Prop :=
  ownQuality (mergedMatrix mode mine newMat otherIp time) otherIp =
    min 100 (ownQuality mine otherIp + 3)

theorem toNat_adjustQuality_packet (quality : UInt8) :
    (adjustQuality quality false).toNat =
      if quality.toNat < 97 then quality.toNat + 3 else 100 := by
  have limit : (97 : UInt8).toNat = 97 := rfl
  have step : (3 : UInt8).toNat = 3 := rfl
  unfold adjustQuality
  simp only [Bool.false_eq_true, ↓reduceIte, UInt8.lt_iff_toNat_lt, limit]
  split
  · rw [UInt8.toNat_add, step]
    omega
  · rfl

theorem toNat_adjustQuality_miss_le (quality : UInt8) :
    (adjustQuality quality true).toNat ≤ quality.toNat := by
  unfold adjustQuality
  simp only [↓reduceIte]
  split
  · rename_i high
    rw [UInt8.toNat_sub_of_le _ _ (UInt8.le_of_lt high)]
    exact Nat.sub_le _ _
  · exact Nat.zero_le _

theorem adjustQuality_packet_ne_zero (quality : UInt8) :
    adjustQuality quality false ≠ 0 := by
  intro isZero
  have isZeroNat := congrArg UInt8.toNat isZero
  rw [toNat_adjustQuality_packet, UInt8.toNat_zero] at isZeroNat
  split at isZeroNat <;> omega

theorem toNat_boost (mode : LinkQualityMode) :
    (initialLinkQuality mode + 10).toNat =
      (initialLinkQuality mode).toNat + 10 := by
  cases mode <;> rfl

/-- The quality of the link to the sender: rated up, and boosted if lower. -/
theorem ownQuality_mergedMatrix_sender
    (mode : LinkQualityMode)
    {mine : TdmaMatrix}
    (distinct : mine.idOfActiveNodes.Nodup)
    (selfListed : mine.myId ∈ mine.idOfActiveNodes)
    (newMat : TdmaMatrix)
    {otherIp : UInt8}
    (listed : otherIp ∈ mine.idOfActiveNodes)
    (time : ℚ) :
    ownQuality (mergedMatrix mode mine newMat otherIp time) otherIp =
      max ((initialLinkQuality mode).toNat + 10)
        (if ownQuality mine otherIp < 97 then ownQuality mine otherIp + 3
          else 100) := by
  have formula :=
    quality_mergedMatrix distinct selfListed mode newMat otherIp time
      mine.myId otherIp
  have member : otherIp ∈ discoverIds mine newMat :=
    mem_discoverIds.mpr (.inl listed)
  have received :
      (mine.topology.rate mine.myId otherIp
          (adjustQuality · false)).quality mine.myId otherIp =
        adjustQuality (mine.topology.quality mine.myId otherIp) false :=
    if_pos ⟨rfl, rfl, TdmaMatrix.mem_members.mpr listed⟩
  simp only [received, adjustQuality_packet_ne_zero, member, and_false,
    ↓reduceIte, true_and] at formula
  unfold ownQuality
  rw [myId_mergedMatrix, formula, ← toNat_adjustQuality_packet,
    ← toNat_boost]
  split
  · rename_i low
    exact (max_eq_left (Nat.le_of_lt (UInt8.lt_iff_toNat_lt.mp low))).symm
  · rename_i high
    exact (max_eq_right (UInt8.le_iff_toNat_le.mp (UInt8.not_lt.mp high))).symm

/-- The operation merges a beacon of `other`. -/
def MatrixAction.isBeaconOf (other : UInt8) : MatrixAction → Bool
  | .update _ otherIp _ => otherIp == other
  | _ => false

/-- The operation is a beacon, a missed slot or a removal. -/
def MissOrBeacon : MatrixAction → Prop
  | .updateLinkQuality _ timeout => timeout = true
  | .setLinkQuality _ _ => False
  | _ => True

instance : DecidablePred MissOrBeacon
  | .update _ _ _ => .isTrue trivial
  | .serialize _ _ => .isTrue trivial
  | .removeDeadLinks _ => .isTrue trivial
  | .updateLinkQuality _ timeout =>
      inferInstanceAs (Decidable (timeout = true))
  | .setLinkQuality _ _ => .isFalse id

/--
The operation neither boosts the link to `other` by more than the three points
of a packet nor fills it after it has been degraded to 0.
-/
def RaisesByThree
    (mode : LinkQualityMode)
    (other : UInt8)
    (state : MatrixState) : MatrixAction → Prop
  | .update _ otherIp _ =>
      if otherIp = other then
        (initialLinkQuality mode).toNat + 10 ≤
          ownQuality state.myMatrix other + 3
      else
        state.myMatrix.topology.link state.myMatrix.myId other = 1 →
          ownQuality state.myMatrix other ≠ 0
  | _ => True

instance (mode : LinkQualityMode) (other : UInt8) (state : MatrixState) :
    DecidablePred (RaisesByThree mode other state)
  | .update _ otherIp _ =>
      inferInstanceAs (Decidable (if otherIp = other then _ ≤ _ else _ → _))
  | .serialize _ _ => .isTrue trivial
  | .removeDeadLinks _ => .isTrue trivial
  | .updateLinkQuality _ _ => .isTrue trivial
  | .setLinkQuality _ _ => .isTrue trivial

/-- A node with a quality is listed. -/
theorem listed_of_ownQuality_pos
    {mat : TdmaMatrix}
    {other : UInt8}
    (positive : 0 < ownQuality mat other) :
    other ∈ mat.idOfActiveNodes := by
  by_contra unlisted
  have isZero : mat.topology.quality mat.myId other = 0 :=
    readAt_of_column_not_mem unlisted _ _
  unfold ownQuality at positive
  rw [isZero] at positive
  exact absurd positive (by decide)

/-- A removal keeps the quality of a link or forgets it. -/
theorem ownQuality_removeDeadLinks_le
    {mat : TdmaMatrix}
    (distinct : mat.idOfActiveNodes.Nodup)
    (time : ℚ)
    (other : UInt8) :
    ownQuality (removeDeadLinks mat time) other ≤ ownQuality mat other := by
  unfold ownQuality
  rw [topology_removeDeadLinks distinct, myId_removeDeadLinks distinct]
  simp only [Topology.expire, Topology.restrict]
  split
  · exact le_rfl
  · exact Nat.zero_le _

/-- One operation raises the quality by three points for a beacon at most. -/
theorem ownQuality_matrixStep_le
    {mode : LinkQualityMode}
    {me other : UInt8}
    {state : MatrixState}
    {action : MatrixAction}
    (listed : state.myMatrix.Listed me)
    (notSelf : other ≠ me)
    (allowed : MissOrBeacon action)
    (raises : RaisesByThree mode other state action) :
    ownQuality (matrixStep mode state action).myMatrix other ≤
      ownQuality state.myMatrix other +
        if action.isBeaconOf other then 3 else 0 := by
  cases action with
  | update newMat otherIp time =>
      by_cases isSender : otherIp = other
      · subst isSender
        simp only [RaisesByThree, ↓reduceIte] at raises
        have known : otherIp ∈ state.myMatrix.idOfActiveNodes :=
          listed_of_ownQuality_pos (by omega)
        simp only [matrixStep, MatrixAction.isBeaconOf, beq_self_eq_true,
          ↓reduceIte]
        rw [ownQuality_mergedMatrix_sender mode listed.distinct
          listed.selfListed newMat known]
        split <;> omega
      · simp only [RaisesByThree, isSender, ↓reduceIte] at raises
        have notBeacon : (otherIp == other) = false := by
          simpa using isSender
        simp only [matrixStep, MatrixAction.isBeaconOf, notBeacon,
          Bool.false_eq_true, ↓reduceIte, Nat.add_zero]
        unfold ownQuality at raises ⊢
        rw [myId_mergedMatrix,
          quality_mergedMatrix_of_not_sender mode listed.distinct
            listed.selfListed newMat time (by rw [listed.own]; exact notSelf)
            (Ne.symm isSender), if_neg]
        rintro ⟨heard, unrated⟩
        exact raises heard (by rw [unrated]; rfl)
  | serialize removalTime time =>
      exact ownQuality_removeDeadLinks_le listed.distinct removalTime other
  | removeDeadLinks time =>
      exact ownQuality_removeDeadLinks_le listed.distinct time other
  | updateLinkQuality nodeId timeout =>
      have isMiss : timeout = true := allowed
      subst isMiss
      refine Nat.le_add_right_of_le ?_
      unfold ownQuality
      rw [matrixStep, myId_updateLinkQuality,
        topology_updateLinkQuality listed.distinct listed.selfListed]
      simp only [Topology.rate]
      split
      · exact toNat_adjustQuality_miss_le _
      · exact le_rfl
  | setLinkQuality nodeId quality => exact allowed.elim

/-- Over a run the quality rises by three points for each beacon at most. -/
theorem ownQuality_le_of_run
    {mode : LinkQualityMode}
    {me other : UInt8}
    {state : MatrixState}
    (listed : state.myMatrix.Listed me)
    (notSelf : other ≠ me)
    {actions : List MatrixAction}
    {final : MatrixState}
    (run :
      StepRun.Run (matrixStep mode) (fun _ => MissOrBeacon) state actions
        final)
    (raises :
      StepRun.EachStep (matrixStep mode) state (RaisesByThree mode other)
        actions) :
    ownQuality final.myMatrix other ≤
      ownQuality state.myMatrix other +
        3 * actions.countP (MatrixAction.isBeaconOf other) := by
  induction run with
  | start =>
      simp
  | @next earlierActions before action earlier allowed inductionHypothesis =>
      have bound :=
        inductionHypothesis fun leading last isPrefix =>
          raises leading last (isPrefix.trans (List.prefix_append _ _))
      have beforeListed : before.myMatrix.Listed me :=
        earlier.invariant (fun state => state.myMatrix.Listed me) listed
          (fun listed _ => listed_matrixStep listed)
      have raisesHere := raises earlierActions action (List.prefix_refl _)
      rw [← earlier.final_eq_foldl] at raisesHere
      have step :=
        ownQuality_matrixStep_le beforeListed notSelf allowed raisesHere
      rw [List.countP_append, List.countP_singleton]
      by_cases isBeacon : action.isBeaconOf other = true
      · simp only [isBeacon, ↓reduceIte] at step ⊢
        omega
      · simp only [isBeacon, Bool.false_eq_true, ↓reduceIte] at step ⊢
        omega

/--
In every reachable state with a direct neighbour whose link has a quality from
1 to 100, a beacon of the neighbour adds three points, up to 100, exactly when
that is not below the boost.  Over any run whose operations do not boost or
fill beyond it, a link regains at most three points for each beacon.
-/
theorem directLink_recovers_iff
    (mode : LinkQualityMode)
    (me : UInt8)
    (start : ℚ)
    {state : MatrixState}
    (reachable :
      StepRun.Reachable (matrixStep mode) (fun _ _ => True)
        (matrixStart me start) state)
    (other : UInt8) :
    (∀ newMat time,
      state.myMatrix.topology.link me other = 1 →
        1 ≤ ownQuality state.myMatrix other →
        ownQuality state.myMatrix other ≤ 100 →
          (RecoversByThree mode state.myMatrix newMat other time ↔
            (initialLinkQuality mode).toNat + 10 ≤
              min 100 (ownQuality state.myMatrix other + 3))) ∧
      (other ≠ me →
        ∀ {actions final},
          StepRun.Run (matrixStep mode) (fun _ => MissOrBeacon) state actions
            final →
          StepRun.EachStep (matrixStep mode) state
            (RaisesByThree mode other) actions →
            ownQuality final.myMatrix other ≤
              ownQuality state.myMatrix other +
                3 * actions.countP (MatrixAction.isBeaconOf other)) := by
  have listed := listed_of_reachable reachable
  refine ⟨?_, fun notSelf _ _ run raises =>
    ownQuality_le_of_run listed notSelf run raises⟩
  intro newMat time _ positive small
  unfold RecoversByThree
  rw [ownQuality_mergedMatrix_sender mode listed.distinct listed.selfListed
    newMat (listed_of_ownQuality_pos positive)]
  split <;> omega

/-- Two further beacons of node 2, and a slot that it misses. -/
def hearsTwiceMore : List MatrixAction :=
  [.update (beaconOfRows [2] [[0]] [0]) 2 2,
    .update (beaconOfRows [2] [[0]] [0]) 2 3,
    .updateLinkQuality 2 true]

/-- In the production mode a link at 60 regains three points for each beacon. -/
theorem directLink_recovers_hearsAgain :
    RecoversByThree .prod
        ((hearsThenMisses 0).foldl (matrixStep .prod)
          (matrixStart 1 0)).myMatrix
        (beaconOfRows [2] [[0]] [0]) 2 2 ∧
      ownQuality
          (hearsTwiceMore.foldl (matrixStep .prod)
            ((hearsThenMisses 0).foldl (matrixStep .prod)
              (matrixStart 1 0))).myMatrix 2 ≤
        60 + 3 * 2 := by
  obtain ⟨merges, runs⟩ :=
    directLink_recovers_iff .prod 1 0
      ⟨hearsThenMisses 0, StepRun.Run.of_checkRun (by decide +kernel)⟩ 2
  refine ⟨(merges (beaconOfRows [2] [[0]] [0]) 2 (by decide +kernel)
    (by decide +kernel) (by decide +kernel)).mpr (by decide +kernel), ?_⟩
  have raises :
      StepRun.Run (matrixStep .prod) (RaisesByThree .prod 2)
        ((hearsThenMisses 0).foldl (matrixStep .prod) (matrixStart 1 0))
        hearsTwiceMore _ :=
    StepRun.Run.of_checkRun (by decide +kernel)
  have bound :=
    runs (by decide) (StepRun.Run.of_checkRun (by decide +kernel))
      (fun _ _ isPrefix => (raises.step_before isPrefix).2)
  exact bound.trans (by decide +kernel)

/-- A link that one missed slot degraded to 70 is back at 110 at once. -/
theorem directLink_recovers_fails_missesOnce :
    ¬ ∀ (mode : LinkQualityMode) (me : UInt8) (start : ℚ)
        (state : MatrixState),
      StepRun.Reachable (matrixStep mode) (fun _ _ => True)
        (matrixStart me start) state →
      ∀ other newMat time,
        state.myMatrix.topology.link me other = 1 →
          1 ≤ ownQuality state.myMatrix other →
          ownQuality state.myMatrix other ≤ 100 →
            RecoversByThree mode state.myMatrix newMat other time := by
  intro always
  have recovers :=
    always .test 1 0
      ((hearsThenMisses 1).foldl (matrixStep .test) (matrixStart 1 0))
      ⟨hearsThenMisses 1, StepRun.Run.of_checkRun (by decide +kernel)⟩
      2 (beaconOfRows [2] [[0]] [0]) 2 (by decide +kernel)
      (by decide +kernel) (by decide +kernel)
  unfold RecoversByThree at recovers
  revert recovers
  decide +kernel

end RoutingMesh
