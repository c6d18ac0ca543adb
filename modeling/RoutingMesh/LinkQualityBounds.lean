import RoutingMesh.MatrixState

/-!
# Link qualities as percentages

Every write of a quality cell saturates between 0 and 100 except the boost of
the link to the sender, which stores `INITIAL_LINK_QUALITY + 10`.  In the
test mode that is 110, so qualities are percentages in every state of a run
exactly when the mode is another one or nothing is ever boosted.
-/

namespace RoutingMesh

open CellArray KeyedCells

/-- A quality that is a percentage. -/
def IsPercent (quality : UInt8) : Prop :=
  quality.toNat ≤ 100

instance : DecidablePred IsPercent :=
  fun _ => inferInstanceAs (Decidable (_ ≤ _))

/-- The active qualities are percentages, and so are the costs of the links. -/
structure QualityInRange
    (mode : LinkQualityMode)
    (mat : TdmaMatrix) : Prop where
  cells :
    ∀ i, i < mat.numberOfActiveNodes →
      ∀ j, j < mat.numberOfActiveNodes → IsPercent (mat.linkQuality i j)
  costs :
    ∀ u, u < mat.numberOfActiveNodes →
      ∀ v, v < mat.numberOfActiveNodes →
        linked mat u v = true →
          0 ≤ linkCost mode mat u v ∧ linkCost mode mat u v ≤ 100

/-- A row of percentages. -/
def PercentRow (row : Nat → UInt8) : Prop :=
  ∀ j, IsPercent (row j)

/-- A table of percentages. -/
def PercentTable (table : Nat → Nat → UInt8) : Prop :=
  ∀ i, PercentRow (table i)

/-- Every quality cell is a percentage, stale ones included. -/
def Percentages (mat : TdmaMatrix) : Prop :=
  PercentTable mat.linkQuality

/-- A table of percentages stays one when a percentage is stored. -/
theorem PercentTable.writeAt
    {table : Nat → Nat → UInt8}
    (percent : PercentTable table)
    (row column : Nat)
    {value : UInt8}
    (stored : IsPercent value) :
    PercentTable (writeAt table row column value) := by
  intro i j
  rw [writeAt_apply]
  split
  · exact stored
  · exact percent i j

/-!
## Updates and removals
-/

theorem IsPercent.sub
    {quality step : UInt8}
    (percent : IsPercent quality)
    (high : step < quality) :
    IsPercent (quality - step) := by
  unfold IsPercent at *
  rw [UInt8.toNat_sub_of_le _ _ (UInt8.le_of_lt high)]
  exact (Nat.sub_le _ _).trans percent

theorem IsPercent.adjustQuality
    {quality : UInt8}
    (percent : IsPercent quality)
    (timeout : Bool) :
    IsPercent (adjustQuality quality timeout) := by
  unfold RoutingMesh.adjustQuality
  split
  · split
    · rename_i high
      exact percent.sub high
    · decide
  · split
    · rename_i low
      have small : quality.toNat < 97 := UInt8.lt_iff_toNat_lt.mp low
      have three : (3 : UInt8).toNat = 3 := rfl
      unfold IsPercent
      rw [UInt8.toNat_add]
      omega
    · decide

theorem percentages_updateLinkQuality
    {mat : TdmaMatrix}
    (percent : Percentages mat)
    (nodeId : UInt8)
    (timeout : Bool) :
    Percentages (updateLinkQuality mat nodeId timeout) := by
  unfold updateLinkQuality
  split
  · exact percent.writeAt _ _ ((percent _ _).adjustQuality timeout)
  · exact percent

theorem percentages_setLinkQuality
    {mat : TdmaMatrix}
    (percent : Percentages mat)
    (nodeId : UInt8)
    {quality : UInt8}
    (inRange : IsPercent quality) :
    Percentages (setLinkQuality mat nodeId quality) := by
  unfold setLinkQuality
  split
  · exact percent.writeAt _ _ inRange
  · exact percent

theorem percentages_removeNode
    {mat : TdmaMatrix}
    (percent : Percentages mat)
    (pos : Nat) :
    Percentages (removeNode mat pos) := by
  have penalized : Percentages (penalizeNode mat pos) := by
    unfold penalizeNode
    split
    · exact percent
    · refine percent.writeAt _ _ ?_
      split
      · rename_i high
        exact (percent _ _).sub high
      · decide
  have removed :
      Percentages (removeIdMatrix (penalizeNode mat pos) pos) := by
    intro i
    have moved :
        PercentRow (moveDown (penalizeNode mat pos).linkQuality pos
          ((penalizeNode mat pos).numberOfActiveNodes - pos - 1) i) :=
      moveDown_forall penalized _ _ i
    simp only [removeIdMatrix]
    split
    · unfold removeColumn
      rw [moveDownLoop_eq_moveDown]
      exact write_forall (moveDown_forall moved _ _) _ (by decide)
    · exact moved
  exact removed

theorem percentages_removeDeadLinks
    {mat : TdmaMatrix}
    (percent : Percentages mat)
    (time : ℚ) :
    Percentages (removeDeadLinks mat time) := by
  have loop :
      ∀ {passes : Nat} {mat : TdmaMatrix} {i : Nat}, Percentages mat →
        Percentages (removeDeadLinksLoop time passes mat i) := by
    intro passes
    induction passes with
    | zero =>
        intro mat i percent
        exact percent
    | succ passes inductionHypothesis =>
        intro mat i percent
        rw [removeDeadLinksLoop]
        split
        · split
          · exact inductionHypothesis (percentages_removeNode percent i)
          · exact inductionHypothesis percent
        · exact percent
  exact loop percent

/-!
## Merges
-/

/-- The merged matrix before the boost: copied and filled qualities. -/
def filledMatrix
    (mode : LinkQualityMode)
    (mine newMat : TdmaMatrix)
    (otherIp : UInt8)
    (time : ℚ) : TdmaMatrix :=
  let localMat := updateLinkQuality mine otherIp false
  fillLinkQualities mode
    (copyLinkQualities localMat
      (confirmDirectLink
        (acceptReports localMat newMat
          (copyLocalLines localMat
            (TdmaMatrix.zeroed localMat.myId (discoverIds localMat newMat))
            localMat.idOfActiveNodes 0)
          otherIp time)
        otherIp time))

theorem mergedMatrix_eq_boost
    (mode : LinkQualityMode)
    (mine newMat : TdmaMatrix)
    (otherIp : UInt8)
    (time : ℚ) :
    mergedMatrix mode mine newMat otherIp time =
      boostDirectLink mode (filledMatrix mode mine newMat otherIp time)
        otherIp :=
  rfl

theorem isPercent_initialLinkQuality (mode : LinkQualityMode) :
    IsPercent (initialLinkQuality mode) := by
  cases mode <;> decide

/-- Before the boost a merge keeps percentages in every mode. -/
theorem percentages_filledMatrix
    (mode : LinkQualityMode)
    {mine : TdmaMatrix}
    (percent : Percentages mine)
    (newMat : TdmaMatrix)
    (otherIp : UInt8)
    (time : ℚ) :
    Percentages (filledMatrix mode mine newMat otherIp time) := by
  have localPercent := percentages_updateLinkQuality percent otherIp false
  unfold filledMatrix
  generalize updateLinkQuality mine otherIp false = localMat at localPercent ⊢
  dsimp only
  have blank :
      InFrame (discoverIds localMat newMat) localMat.myId (fun _ _ => 0)
        (TdmaMatrix.zeroed localMat.myId (discoverIds localMat newMat)) :=
    ⟨rfl, rfl, rfl⟩
  have copied :
      InFrame (discoverIds localMat newMat) localMat.myId (fun _ _ => 0)
        (copyLocalLines localMat
          (TdmaMatrix.zeroed localMat.myId (discoverIds localMat newMat))
          localMat.idOfActiveNodes 0) :=
    blank.copyLocalLines
  have accepted := copied.acceptReports localMat newMat otherIp time
  obtain ⟨confirmed, _⟩ := confirmDirectLink_frame _ otherIp time
  have zero := confirmed.linkQuality.trans accepted.linkQuality
  generalize confirmDirectLink _ otherIp time = final at zero ⊢
  have oneLine :
      ∀ {table : Nat → Nat → UInt8} {id : UInt8} {i : Nat},
        PercentTable table →
        PercentTable (copyQualityLine localMat final.idOfActiveNodes table
          id i) := by
    intro table id i tablePercent
    unfold copyQualityLine
    split
    · exact tablePercent
    · rename_i finalPos _
      exact write_forall tablePercent finalPos
        (copyPresent_forall (localPercent i) (tablePercent finalPos))
  have unrated : PercentTable final.linkQuality := by
    have isPercent : IsPercent 0 := by
      decide
    intro i j
    rw [zero]
    exact isPercent
  have rated : Percentages (copyLinkQualities localMat final) :=
    forEachFrom_invariant oneLine unrated
  intro i j
  simp only [fillLinkQualities]
  split
  · exact isPercent_initialLinkQuality mode
  · exact rated i j

/-- The boost stores a percentage in every mode but the test mode. -/
theorem percentages_boostDirectLink
    {mode : LinkQualityMode}
    {mat : TdmaMatrix}
    {otherIp : UInt8}
    (percent : Percentages mat)
    (unboosted : mode ≠ .test ∨ otherIp ∉ mat.idOfActiveNodes) :
    Percentages (boostDirectLink mode mat otherIp) := by
  unfold boostDirectLink
  split
  · rename_i otherIpPos _ otherFound
    have listed : otherIp ∈ mat.idOfActiveNodes := by
      rw [← List.isSome_idxOf?]
      exact Option.isSome_of_eq_some otherFound
    have notTest : mode ≠ .test :=
      unboosted.resolve_right (fun absent => absent listed)
    split
    · refine percent.writeAt _ _ ?_
      cases mode with
      | critical => decide
      | test => exact (notTest rfl).elim
      | prod => decide
    · exact percent
  · exact percent

/-- In the test mode the boosted quality of a listed sender is at least 110. -/
theorem exists_boosted
    {mat : TdmaMatrix}
    (selfListed : mat.myId ∈ mat.idOfActiveNodes)
    {otherIp : UInt8}
    (listed : otherIp ∈ mat.idOfActiveNodes) :
    ∃ i, i < mat.numberOfActiveNodes ∧
      ∃ j, j < mat.numberOfActiveNodes ∧
        ¬ IsPercent ((boostDirectLink .test mat otherIp).linkQuality i j) := by
  have position :
      ∀ {id : UInt8}, id ∈ mat.idOfActiveNodes →
        ∃ place, searchId mat id = some place ∧
          place < mat.numberOfActiveNodes := by
    intro id isListed
    obtain ⟨place, found⟩ := exists_position isListed
    obtain ⟨bound, _⟩ := List.idxOf?_eq_some_iff.mp found
    exact ⟨place, found, bound⟩
  obtain ⟨i, foundSelf, iInBounds⟩ := position selfListed
  obtain ⟨j, foundOther, jInBounds⟩ := position listed
  refine ⟨i, iInBounds, j, jInBounds, ?_⟩
  unfold boostDirectLink
  simp only [foundSelf, foundOther]
  split
  · simp only [writeAt_apply, and_self, ↓reduceIte]
    decide
  · rename_i high
    have boosted : 110 ≤ (mat.linkQuality i j).toNat :=
      UInt8.le_iff_toNat_le.mp (UInt8.not_lt.mp high)
    unfold IsPercent
    omega

/-!
## Runs
-/

/-- The qualities that `MATRIX_setLinkQuality` is called with are percentages. -/
def StoresPercent : MatrixAction → Prop
  | .setLinkQuality _ quality => IsPercent quality
  | _ => True

instance : DecidablePred StoresPercent
  | .update _ _ _ => .isTrue trivial
  | .serialize _ _ => .isTrue trivial
  | .removeDeadLinks _ => .isTrue trivial
  | .updateLinkQuality _ _ => .isTrue trivial
  | .setLinkQuality _ quality =>
      inferInstanceAs (Decidable (IsPercent quality))

/-- The operation does not boost in the test mode. -/
def NotBoosted
    (mode : LinkQualityMode)
    (state : MatrixState) : MatrixAction → Prop
  | .update newMat otherIp _ =>
      mode ≠ .test ∨
        otherIp ∉ state.myMatrix.idOfActiveNodes ∧
          otherIp ∉ newMat.idOfActiveNodes
  | _ => True

/-- The identifiers that the boost looks up are those of the union. -/
theorem idOfActiveNodes_filledMatrix
    (mode : LinkQualityMode)
    (mine newMat : TdmaMatrix)
    (otherIp : UInt8)
    (time : ℚ) :
    (filledMatrix mode mine newMat otherIp time).idOfActiveNodes =
      discoverIds mine newMat := by
  rw [← idOfActiveNodes_mergedMatrix mode mine newMat otherIp time,
    mergedMatrix_eq_boost]
  exact (boostDirectLink_frame mode _ otherIp).1.symm

/-- An operation that does not boost keeps percentages. -/
theorem percentages_matrixStep
    {mode : LinkQualityMode}
    {state : MatrixState}
    {action : MatrixAction}
    (percent : Percentages state.myMatrix)
    (stores : StoresPercent action)
    (notBoosted : NotBoosted mode state action) :
    Percentages (matrixStep mode state action).myMatrix := by
  cases action with
  | update newMat otherIp time =>
      have filled :=
        percentages_filledMatrix mode percent newMat otherIp time
      have unlisted :
          otherIp ∉ state.myMatrix.idOfActiveNodes ∧
              otherIp ∉ newMat.idOfActiveNodes →
            otherIp ∉
              (filledMatrix mode state.myMatrix newMat otherIp
                time).idOfActiveNodes := by
        rw [idOfActiveNodes_filledMatrix, mem_discoverIds]
        exact not_or.mpr
      exact percentages_boostDirectLink filled (notBoosted.imp_right unlisted)
  | serialize removalTime time =>
      exact percentages_removeDeadLinks percent removalTime
  | removeDeadLinks time =>
      exact percentages_removeDeadLinks percent time
  | updateLinkQuality nodeId timeout =>
      exact percentages_updateLinkQuality percent nodeId timeout
  | setLinkQuality nodeId quality =>
      exact percentages_setLinkQuality percent nodeId stores

/-- A boost in the test mode leaves a quality above 100. -/
theorem not_inRange_of_boosted
    {mode : LinkQualityMode}
    {me : UInt8}
    {state : MatrixState}
    {action : MatrixAction}
    (listed : state.myMatrix.Listed me)
    (boosted : ¬ NotBoosted mode state action) :
    ¬ QualityInRange mode (matrixStep mode state action).myMatrix := by
  cases action with
  | update newMat otherIp time =>
      simp only [NotBoosted, not_or, not_and_or, not_not] at boosted
      obtain ⟨rfl, known⟩ := boosted
      have merged :=
        listed.mergedMatrix .test newMat otherIp time
      have sameIds :=
        idOfActiveNodes_filledMatrix .test state.myMatrix newMat otherIp time
      have sameOwn :
          (filledMatrix .test state.myMatrix newMat otherIp time).myId =
            (mergedMatrix .test state.myMatrix newMat otherIp time).myId :=
        (boostDirectLink_frame .test _ otherIp).2.1.symm
      have selfListed :
          (filledMatrix .test state.myMatrix newMat otherIp time).myId ∈
            (filledMatrix .test state.myMatrix newMat otherIp
              time).idOfActiveNodes := by
        rw [sameOwn, merged.own, sameIds, mem_discoverIds]
        exact .inl listed.self
      have senderListed :
          otherIp ∈
            (filledMatrix .test state.myMatrix newMat otherIp
              time).idOfActiveNodes := by
        rw [sameIds, mem_discoverIds]
        exact known
      obtain ⟨i, iInBounds, j, jInBounds, above⟩ :=
        exists_boosted selfListed senderListed
      have sameNumber :
          (mergedMatrix .test state.myMatrix newMat otherIp
              time).numberOfActiveNodes =
            (filledMatrix .test state.myMatrix newMat otherIp
              time).numberOfActiveNodes :=
        congrArg List.length
          (boostDirectLink_frame .test
            (filledMatrix .test state.myMatrix newMat otherIp time)
            otherIp).1
      intro inRange
      refine above (inRange.cells i ?_ j ?_)
      · exact iInBounds.trans_eq sameNumber.symm
      · exact jInBounds.trans_eq sameNumber.symm
  | serialize removalTime time => exact (boosted trivial).elim
  | removeDeadLinks time => exact (boosted trivial).elim
  | updateLinkQuality nodeId timeout => exact (boosted trivial).elim
  | setLinkQuality nodeId quality => exact (boosted trivial).elim

/-- Percentages make percentage costs. -/
theorem inRange_of_percentages
    (mode : LinkQualityMode)
    {mat : TdmaMatrix}
    (percent : Percentages mat) :
    QualityInRange mode mat where
  cells i _ j _ := percent i j
  costs u _ v _ _ := by
    have isPercent : IsPercent (effectiveQuality mode mat u v) := by
      have weighed :
          ∀ {quality : UInt8} {penalized : Bool}, IsPercent quality →
            IsPercent
              (if penalized && decide (quality > 20) then quality - 20
                else quality) := by
        intro quality penalized qualityPercent
        split
        · rename_i both
          simp only [Bool.and_eq_true, decide_eq_true_eq] at both
          exact qualityPercent.sub both.2
        · exact qualityPercent
      have reported :
          IsPercent
            (if mat.linkQuality u v = 0 then mat.linkQuality v u
              else mat.linkQuality u v) := by
        split
        · exact percent v u
        · exact percent u v
      unfold effectiveQuality
      dsimp only
      refine weighed ?_
      generalize (if mat.linkQuality u v = 0 then _ else _) = quality
        at reported ⊢
      split
      · exact isPercent_initialLinkQuality mode
      · exact reported
    unfold IsPercent at isPercent
    unfold linkCost
    omega

/--
In a run from `MATRIX_init` whose PDR values are percentages, the qualities
and costs of every state are percentages exactly when the mode is not the
test mode at any merge whose sender is listed.
-/
theorem linkQuality_inRange_iff
    (mode : LinkQualityMode)
    (me : UInt8)
    (time : ℚ)
    {actions : List MatrixAction}
    {state : MatrixState}
    (run :
      StepRun.Run (matrixStep mode) (fun _ => StoresPercent)
        (matrixStart me time) actions state) :
    StepRun.Throughout (matrixStep mode) (matrixStart me time)
        (fun visited => QualityInRange mode visited.myMatrix) actions ↔
      StepRun.EachStep (matrixStep mode) (matrixStart me time)
        (NotBoosted mode) actions := by
  have started : Percentages (matrixStart me time).myMatrix := by
    intro i j
    exact Nat.zero_le 100
  exact run.throughout_iff_eachStep
    (fun visited => visited.myMatrix.Listed me)
    (fun visited => Percentages visited.myMatrix)
    (listed_matrixInit me time)
    (fun listed _ => listed_matrixStep listed)
    started
    (fun _ percent stores notBoosted =>
      percentages_matrixStep percent stores notBoosted)
    (fun _ percent => inRange_of_percentages mode percent)
    (fun listed _ boosted => not_inRange_of_boosted listed boosted)

/-- Node 1 hears node 2 twice, misses one slot and stores a PDR. -/
def hearsAndMisses : List MatrixAction :=
  [.update (beaconOfRows [2] [[0]] [0]) 2 1,
    .update (beaconOfRows [2] [[0]] [0]) 2 2,
    .updateLinkQuality 2 true,
    .setLinkQuality 2 95]

/-- In the production mode its qualities are percentages throughout. -/
theorem linkQuality_inRange_hearsAndMisses :
    StepRun.Throughout (matrixStep .prod) (matrixStart 1 0)
      (fun visited => QualityInRange .prod visited.myMatrix)
      hearsAndMisses := by
  refine (linkQuality_inRange_iff .prod 1 0
    (StepRun.Run.of_checkRun (by decide +kernel))).mpr ?_
  intro leading action _
  cases action with
  | update newMat otherIp time => exact .inl (by decide)
  | serialize removalTime time => trivial
  | removeDeadLinks time => trivial
  | updateLinkQuality nodeId timeout => trivial
  | setLinkQuality nodeId quality => trivial

/-- In the test mode the first merged beacon stores the quality 110. -/
theorem linkQuality_exceeds_hearsAndMisses :
    ¬ ∀ (mode : LinkQualityMode) (me : UInt8) (time : ℚ) (state : MatrixState),
      StepRun.Reachable (matrixStep mode) (fun _ => StoresPercent)
        (matrixStart me time) state →
      QualityInRange mode state.myMatrix := by
  intro always
  have inRange :=
    always .test 1 0
      ((hearsAndMisses.take 1).foldl (matrixStep .test) (matrixStart 1 0))
      ⟨hearsAndMisses.take 1, StepRun.Run.of_checkRun (by decide +kernel)⟩
  have boosted := inRange.cells 0 (by decide +kernel) 1 (by decide +kernel)
  revert boosted
  decide +kernel

end RoutingMesh
