import RoutingMesh.MergedQualities
import RoutingMesh.PrimOptimality

/-!
# Weights of links

The weight of a link is read from the cell of the end that is explored first.
Only the row of the local node holds measurements: the other rows hold 0 or
the initial quality in every state.  So the two ends agree on every link that
does not touch the local node, and on the others exactly when the measured
cell or the reverse cell is 0, or both weigh the same.
-/

namespace RoutingMesh

open CellArray KeyedCells

/--
What `effectiveQuality` makes of the own cell of a link, of the reverse cell
and of whether both directions are confirmed.
-/
def weighedQuality
    (mode : LinkQualityMode)
    (measured reverse : UInt8)
    (confirmed : Bool) : UInt8 :=
  let reported := if measured = 0 then reverse else measured
  let quality := if reported = 0 then initialLinkQuality mode else reported
  if !confirmed && quality > 20 then quality - 20 else quality

/-- Both directions of a link are reported. -/
def confirmed (mat : TdmaMatrix) (u v : Nat) : Bool :=
  mat.matrix u v != 0 && mat.matrix v u != 0

theorem effectiveQuality_eq
    (mode : LinkQualityMode)
    (mat : TdmaMatrix)
    (u v : Nat) :
    effectiveQuality mode mat u v =
      weighedQuality mode (mat.linkQuality u v) (mat.linkQuality v u)
        (confirmed mat u v) :=
  rfl

theorem confirmed_comm (mat : TdmaMatrix) (u v : Nat) :
    confirmed mat u v = confirmed mat v u :=
  Bool.and_comm _ _

theorem linkCost_eq_iff
    {mode : LinkQualityMode}
    {mat : TdmaMatrix}
    {u v : Nat} :
    linkCost mode mat u v = linkCost mode mat v u ↔
      weighedQuality mode (mat.linkQuality u v) (mat.linkQuality v u)
          (confirmed mat u v) =
        weighedQuality mode (mat.linkQuality v u) (mat.linkQuality u v)
          (confirmed mat u v) := by
  unfold linkCost
  rw [effectiveQuality_eq, effectiveQuality_eq, confirmed_comm mat v u,
    ← UInt8.toNat_inj]
  omega

/-- A cell that is 0 leaves one quality for both ends. -/
theorem weighedQuality_zero_comm
    (mode : LinkQualityMode)
    (quality : UInt8)
    (confirmed : Bool) :
    weighedQuality mode quality 0 confirmed =
      weighedQuality mode 0 quality confirmed := by
  unfold weighedQuality
  by_cases isZero : quality = 0
  · simp [isZero]
  · simp [isZero]

/-- The penalty of a link that one direction confirms, as a number. -/
theorem toNat_penalty (quality : UInt8) :
    (if quality > 20 then quality - 20 else quality).toNat =
      if 20 < quality.toNat then quality.toNat - 20 else quality.toNat := by
  have twenty : (20 : UInt8).toNat = 20 := rfl
  by_cases high : quality > 20
  · have highNat : 20 < quality.toNat := UInt8.lt_iff_toNat_lt.mp high
    rw [if_pos high, if_pos highNat,
      UInt8.toNat_sub_of_le _ _ (UInt8.le_of_lt high), twenty]
  · have lowNat : ¬ 20 < quality.toNat :=
      fun highNat => high (UInt8.lt_iff_toNat_lt.mpr highNat)
    rw [if_neg high, if_neg lowNat]

/-- The qualities that weigh as much as the initial one. -/
theorem weighedQuality_initial_comm_iff
    {mode : LinkQualityMode}
    {quality : UInt8}
    (measured : quality ≠ 0)
    {confirmed : Bool} :
    weighedQuality mode quality (initialLinkQuality mode) confirmed =
        weighedQuality mode (initialLinkQuality mode) quality confirmed ↔
      quality = initialLinkQuality mode ∨
        (mode = .critical ∧ confirmed = false ∧ quality = 40) := by
  unfold weighedQuality
  simp only [measured, initialLinkQuality_ne_zero, ↓reduceIte]
  cases confirmed with
  | true =>
      simp
  | false =>
      simp only [Bool.not_false, Bool.true_and, decide_eq_true_eq, true_and]
      rw [← UInt8.toNat_inj, toNat_penalty, toNat_penalty,
        ← UInt8.toNat_inj, ← UInt8.toNat_inj]
      have forty : (40 : UInt8).toNat = 40 := rfl
      rw [forty]
      cases mode with
      | critical =>
          have initial : (initialLinkQuality .critical).toNat = 20 := rfl
          rw [initial]
          split <;> simp <;> omega
      | test =>
          have initial : (initialLinkQuality .test).toNat = 100 := rfl
          rw [initial]
          split <;> simp <;> omega
      | prod =>
          have initial : (initialLinkQuality .prod).toNat = 50 := rfl
          rw [initial]
          split <;> simp <;> omega

/-! ## The rows of the other nodes -/

/-- The rows of other nodes hold no measurements. -/
def UnmeasuredRows
    (mode : LinkQualityMode)
    (me : UInt8)
    (quality : UInt8 → UInt8 → UInt8) : Prop :=
  ∀ a b, a ≠ me → quality a b = 0 ∨ quality a b = initialLinkQuality mode

/-- Every operation keeps the rows of the other nodes free of measurements. -/
theorem unmeasuredRows_matrixStep
    {mode : LinkQualityMode}
    {me : UInt8}
    {state : MatrixState}
    {action : MatrixAction}
    (listed : state.myMatrix.Listed me)
    (unmeasured : UnmeasuredRows mode me state.myMatrix.topology.quality) :
    UnmeasuredRows mode me
      (matrixStep mode state action).myMatrix.topology.quality := by
  have rated :
      ∀ (other : UInt8) (change : UInt8 → UInt8),
        UnmeasuredRows mode me
          (state.myMatrix.topology.rate me other change).quality := by
    intro other change a b notSelf
    simp only [Topology.rate, notSelf, false_and, ↓reduceIte]
    exact unmeasured a b notSelf
  have expired :
      ∀ time, UnmeasuredRows mode me
        (state.myMatrix.topology.expire me time).quality := by
    intro time a b notSelf
    simp only [Topology.expire, Topology.restrict]
    split
    · exact unmeasured a b notSelf
    · exact .inl rfl
  cases action with
  | update newMat otherIp time =>
      intro a b notSelf
      have formula :=
        quality_mergedMatrix listed.distinct listed.selfListed mode newMat
          otherIp time a b
      have received := rated otherIp (adjustQuality · false) a b notSelf
      rw [listed.own] at formula
      simp only [notSelf, false_and, ↓reduceIte] at formula
      rw [matrixStep, formula]
      split
      · exact .inr rfl
      · exact received
  | serialize removalTime time =>
      rw [matrixStep, topology_serializedMatrix listed.distinct
        listed.selfListed, listed.own]
      exact expired removalTime
  | removeDeadLinks time =>
      rw [matrixStep, topology_removeDeadLinks listed.distinct, listed.own]
      exact expired time
  | updateLinkQuality nodeId timeout =>
      rw [matrixStep, topology_updateLinkQuality listed.distinct
        listed.selfListed, listed.own]
      exact rated nodeId (adjustQuality · timeout)
  | setLinkQuality nodeId quality =>
      rw [matrixStep, topology_setLinkQuality listed.distinct
        listed.selfListed, listed.own]
      exact rated nodeId (fun _ => quality)

/-- So does every run. -/
theorem unmeasuredRows_of_reachable
    {mode : LinkQualityMode}
    {me : UInt8}
    {start : ℚ}
    {enabled : MatrixState → MatrixAction → Prop}
    {state : MatrixState}
    (reachable :
      StepRun.Reachable (matrixStep mode) enabled (matrixStart me start)
        state) :
    state.myMatrix.Listed me ∧
      UnmeasuredRows mode me state.myMatrix.topology.quality := by
  have started :
      UnmeasuredRows mode me
        (matrixStart me start).myMatrix.topology.quality := by
    intro a b _
    left
    exact readAt_zero _ a b
  exact reachable.invariant
    (fun state =>
      state.myMatrix.Listed me ∧
        UnmeasuredRows mode me state.myMatrix.topology.quality)
    ⟨listed_matrixInit me start, started⟩
    (fun {_ _} invariant _ =>
      ⟨listed_matrixStep invariant.1,
        unmeasuredRows_matrixStep invariant.1 invariant.2⟩)

/--
Every link of the local node has a cell that is 0, or the initial quality as
its measured one; in the critical mode the penalty of a link that only one
direction confirms brings 40 down to the initial quality.
-/
def OwnLinksWeighAlike
    (mode : LinkQualityMode)
    (mat : TdmaMatrix) : Prop :=
  ∀ own v, searchId mat mat.myId = some own →
    v < mat.numberOfActiveNodes → v ≠ own → linked mat own v = true →
      mat.linkQuality own v = 0 ∨ mat.linkQuality v own = 0 ∨
        mat.linkQuality own v = initialLinkQuality mode ∨
        (mode = .critical ∧ confirmed mat own v = false ∧
          mat.linkQuality own v = 40)

/-- When the reverse cell is no measurement, the ends agree by their cells. -/
theorem linkCost_comm_iff
    {mode : LinkQualityMode}
    {mat : TdmaMatrix}
    {u v : Nat}
    (unmeasured :
      mat.linkQuality v u = 0 ∨
        mat.linkQuality v u = initialLinkQuality mode) :
    linkCost mode mat u v = linkCost mode mat v u ↔
      mat.linkQuality u v = 0 ∨ mat.linkQuality v u = 0 ∨
        mat.linkQuality u v = initialLinkQuality mode ∨
        (mode = .critical ∧ confirmed mat u v = false ∧
          mat.linkQuality u v = 40) := by
  rw [linkCost_eq_iff]
  by_cases isZero : mat.linkQuality u v = 0
  · rw [isZero, ← weighedQuality_zero_comm]
    simp
  · rcases unmeasured with reverseZero | reverseInitial
    · rw [reverseZero, weighedQuality_zero_comm]
      simp
    · rw [reverseInitial, weighedQuality_initial_comm_iff isZero]
      simp [isZero, initialLinkQuality_ne_zero]

/-- The cells of another node than the local one are no measurements. -/
theorem linkQuality_of_unmeasuredRows
    {mode : LinkQualityMode}
    {me : UInt8}
    {mat : TdmaMatrix}
    (listed : mat.Listed me)
    (unmeasured : UnmeasuredRows mode me mat.topology.quality)
    {own u v : Nat}
    (found : searchId mat mat.myId = some own)
    (uInBounds : u < mat.numberOfActiveNodes)
    (vInBounds : v < mat.numberOfActiveNodes)
    (notOwn : u ≠ own) :
    mat.linkQuality u v = 0 ∨
      mat.linkQuality u v = initialLinkQuality mode := by
  have cell :
      mat.topology.quality mat.idOfActiveNodes[u] mat.idOfActiveNodes[v] =
        mat.linkQuality u v :=
    readAt_getElem listed.distinct uInBounds vInBounds _
  have notSelf : mat.idOfActiveNodes[u] ≠ me := by
    intro isSelf
    have position :=
      (idxOf?_eq_some_iff_getElem? listed.distinct).mpr
        (List.getElem?_eq_getElem uInBounds)
    rw [isSelf, ← listed.own] at position
    exact notOwn (Option.some.inj (position.symm.trans found))
  rw [← cell]
  exact unmeasured _ _ notSelf

/--
In every reachable state both ends of every link compute the same cost exactly
when that holds of the links of the local node, by what their cells are.
-/
theorem linkCosts_agree_iff
    (mode : LinkQualityMode)
    (me : UInt8)
    (start : ℚ)
    {state : MatrixState}
    (reachable :
      StepRun.Reachable (matrixStep mode) (fun _ _ => True)
        (matrixStart me start) state) :
    LinkCostsAgree mode state.myMatrix ↔
      OwnLinksWeighAlike mode state.myMatrix := by
  obtain ⟨listed, unmeasured⟩ := unmeasuredRows_of_reachable reachable
  obtain ⟨own, found⟩ := exists_position listed.selfListed
  have ownInBounds : own < state.myMatrix.numberOfActiveNodes :=
    (List.idxOf?_eq_some_iff.mp found).1
  have noMeasurement :
      ∀ {u v}, u < state.myMatrix.numberOfActiveNodes →
        v < state.myMatrix.numberOfActiveNodes → u ≠ own →
          state.myMatrix.linkQuality u v = 0 ∨
            state.myMatrix.linkQuality u v = initialLinkQuality mode :=
    fun uInBounds vInBounds notOwn =>
      linkQuality_of_unmeasuredRows listed unmeasured found uInBounds
        vInBounds notOwn
  constructor
  · intro agree position v isOwn vInBounds notOwn isLinked
    obtain rfl : own = position := Option.some.inj (found.symm.trans isOwn)
    exact (linkCost_comm_iff (noMeasurement vInBounds ownInBounds notOwn)).mp
      (agree own v ownInBounds vInBounds isLinked)
  · intro alike u v uInBounds vInBounds isLinked
    have ownAgrees :
        ∀ w, w < state.myMatrix.numberOfActiveNodes → w ≠ own →
          linked state.myMatrix own w = true →
            linkCost mode state.myMatrix own w =
              linkCost mode state.myMatrix w own :=
      fun w wInBounds notOwn link =>
        (linkCost_comm_iff (noMeasurement wInBounds ownInBounds notOwn)).mpr
          (alike own w found wInBounds notOwn link)
    by_cases isLoop : u = v
    · rw [isLoop]
    by_cases uIsOwn : u = own
    · subst uIsOwn
      exact ownAgrees v vInBounds (Ne.symm isLoop) isLinked
    by_cases vIsOwn : v = own
    · subst vIsOwn
      rw [linked_comm] at isLinked
      exact (ownAgrees u uInBounds isLoop isLinked).symm
    -- Neither end is the local node, so neither cell is a measurement.
    rw [linkCost_comm_iff (noMeasurement vInBounds uInBounds vIsOwn)]
    rcases noMeasurement uInBounds vInBounds uIsOwn with isZero | isInitial
    · exact .inl isZero
    · exact .inr (.inr (.inl isInitial))

/-- Node 1 hears node 2, which hears node 1 or does not. -/
def hearsOneNeighbour (heard : UInt8) : List MatrixAction :=
  [.update (beaconOfRows [1, 2] [[0, 0], [heard, 0]] [1, 0]) 2 1]

/-- A link that only node 1 reports costs the same from both ends. -/
theorem linkCosts_agree_hearsOneNeighbour :
    LinkCostsAgree .test
      ((hearsOneNeighbour 0).foldl (matrixStep .test)
        (matrixStart 1 0)).myMatrix := by
  refine (linkCosts_agree_iff .test 1 0
    ⟨hearsOneNeighbour 0, StepRun.Run.of_checkRun (by decide +kernel)⟩).mpr ?_
  intro own v found inBounds _ _
  have isFirst : own = 0 :=
    Option.some.inj (found.symm.trans (by decide +kernel))
  subst isFirst
  right
  left
  revert inBounds v
  decide +kernel

/-- A link confirmed both ways costs -10 from node 1 and 0 from node 2. -/
theorem linkCosts_differ_hearsOneNeighbour :
    ¬ ∀ (mode : LinkQualityMode) (me : UInt8) (start : ℚ)
        (state : MatrixState),
      StepRun.Reachable (matrixStep mode) (fun _ _ => True)
        (matrixStart me start) state →
      LinkCostsAgree mode state.myMatrix := by
  intro always
  have agree :=
    always .test 1 0
      ((hearsOneNeighbour 1).foldl (matrixStep .test) (matrixStart 1 0))
      ⟨hearsOneNeighbour 1, StepRun.Run.of_checkRun (by decide +kernel)⟩
      0 1 (by decide +kernel) (by decide +kernel) (by decide +kernel)
  revert agree
  decide +kernel

end RoutingMesh
