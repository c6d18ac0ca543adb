import Mathlib.Tactic.IntervalCases
import RoutingMesh.CostlierLinks
import RoutingMesh.LinkWeights

/-!
# Lower measurements of a link

Lowering the measured quality of a link of the local node raises its cost,
except where 0 gives way to another quality and where the penalty of a link
that only one direction confirms stops.  A higher cost never takes the link
into the tree; a lower one does so in some topology around the link.
-/

namespace RoutingMesh

open CellArray KeyedCells

/--
When the tree lacks the link to `id` at the higher measurement, it lacks the
link at the lower one.
-/
def NeverAttracts
    (mode : LinkQualityMode)
    (mat : TdmaMatrix)
    (id lower higher : UInt8) : Prop :=
  ∀ own v, searchId mat mat.myId = some own → searchId mat id = some v →
    linked mat own v = true →
      primAlgorithmWeighted mode (setLinkQuality mat id higher) own v ≠ 1 →
        primAlgorithmWeighted mode (setLinkQuality mat id lower) own v ≠ 1

/-- What a matrix holds of the link to `id` beside its measured quality. -/
def HasLinkCells
    (mat : TdmaMatrix)
    (id forward backward reverse : UInt8) : Prop :=
  ∃ own v, searchId mat mat.myId = some own ∧ searchId mat id = some v ∧
    mat.matrix own v = forward ∧ mat.matrix v own = backward ∧
      mat.linkQuality v own = reverse

/-! ## A lower weight never attracts -/

theorem setLinkQuality_of_found
    {mat : TdmaMatrix}
    {id : UInt8}
    {own v : Nat}
    (foundSelf : searchId mat mat.myId = some own)
    (foundOther : searchId mat id = some v)
    (quality : UInt8) :
    setLinkQuality mat id quality =
      { mat with linkQuality := writeAt mat.linkQuality own v quality } := by
  simp only [setLinkQuality, foundSelf, foundOther]

/-- The link between two positions, in either direction. -/
def IsLinkOf (a b u v : Nat) : Prop :=
  (u = a ∧ v = b) ∨ (u = b ∧ v = a)

/-- What the far end weighs follows what the local end weighs. -/
theorem weighedQuality_reverse_mono
    {mode : LinkQualityMode}
    {reverse lower higher : UInt8}
    {confirmed : Bool}
    (lighter :
      weighedQuality mode lower reverse confirmed ≤
        weighedQuality mode higher reverse confirmed) :
    weighedQuality mode reverse lower confirmed ≤
      weighedQuality mode reverse higher confirmed := by
  by_cases unmeasured : reverse = 0
  · rw [unmeasured, weighedQuality_zero_comm, weighedQuality_zero_comm]
      at lighter
    rw [unmeasured]
    exact lighter
  · unfold weighedQuality
    simp only [unmeasured, ↓reduceIte]
    exact UInt8.le_refl _

section Measured

variable {mode : LinkQualityMode} {mat : TdmaMatrix} {id : UInt8}
variable {own v : Nat}
variable (foundSelf : searchId mat mat.myId = some own)
variable (foundOther : searchId mat id = some v)
variable (different : own ≠ v)
include foundSelf foundOther different

/-- A measurement is weighed by both ends of its link and by no other. -/
theorem effectiveQuality_setLinkQuality
    (quality : UInt8)
    (a b : Nat) :
    effectiveQuality mode (setLinkQuality mat id quality) a b =
      if a = own ∧ b = v then
        weighedQuality mode quality (mat.linkQuality v own)
          (confirmed mat own v)
      else if a = v ∧ b = own then
        weighedQuality mode (mat.linkQuality v own) quality
          (confirmed mat own v)
      else
        effectiveQuality mode mat a b := by
  rw [setLinkQuality_of_found foundSelf foundOther, effectiveQuality_eq,
    effectiveQuality_eq]
  simp only [writeAt_apply]
  by_cases isForward : a = own ∧ b = v
  · rw [isForward.1, isForward.2]
    simp [Ne.symm different, confirmed]
  · by_cases isReverse : a = v ∧ b = own
    · rw [isReverse.1, isReverse.2, confirmed_comm mat own]
      simp [Ne.symm different, confirmed]
    · have notSwapped : ¬ (b = own ∧ a = v) := fun both =>
        isReverse both.symm
      simp [isForward, isReverse, notSwapped, confirmed]

/-- A measurement that weighs less makes the link dearer and nothing else. -/
theorem costlier_setLinkQuality
    {lower higher : UInt8}
    (lighter :
      weighedQuality mode lower (mat.linkQuality v own)
          (confirmed mat own v) ≤
        weighedQuality mode higher (mat.linkQuality v own)
          (confirmed mat own v)) :
    Costlier mode (IsLinkOf own v) (setLinkQuality mat id higher)
      (setLinkQuality mat id lower) := by
  refine ⟨by simp [TdmaMatrix.numberOfActiveNodes], ?_, ?_, ?_⟩
  · intro a b
    rw [setLinkQuality_of_found foundSelf foundOther,
      setLinkQuality_of_found foundSelf foundOther]
    rfl
  · intro a b
    have qualities :
        effectiveQuality mode (setLinkQuality mat id lower) a b ≤
          effectiveQuality mode (setLinkQuality mat id higher) a b := by
      rw [effectiveQuality_setLinkQuality foundSelf foundOther different,
        effectiveQuality_setLinkQuality foundSelf foundOther different]
      split
      · exact lighter
      · split
        · exact weighedQuality_reverse_mono lighter
        · exact UInt8.le_refl _
    have numbers := UInt8.le_iff_toNat_le.mp qualities
    unfold linkCost
    omega
  · intro a b notLink
    have notForward : ¬ (a = own ∧ b = v) := fun both => notLink (.inl both)
    have notReverse : ¬ (a = v ∧ b = own) := fun both => notLink (.inr both)
    unfold linkCost
    rw [effectiveQuality_setLinkQuality foundSelf foundOther different,
      effectiveQuality_setLinkQuality foundSelf foundOther different,
      if_neg notForward, if_neg notReverse, if_neg notForward,
      if_neg notReverse]

end Measured

/-- The root has no parent, so every parent is planted. -/
theorem plantedEdge_of_parent
    {mode : LinkQualityMode}
    {mat : TdmaMatrix}
    {v p : Nat}
    (isParent : (primResult mode mat).parent v = some p) :
    PlantedEdge mode mat v p := by
  obtain ⟨selected, rank, invariant⟩ := primResult_invariant mode mat
  obtain ⟨inBounds, _⟩ := invariant.parentEdge isParent
  obtain ⟨grown, growth, _⟩ :=
    primResult_growth mode (by omega : 0 < mat.numberOfActiveNodes)
  refine ⟨⟨?_, inBounds⟩, isParent⟩
  by_contra isRoot
  have sameRoot : v = 0 := by
    omega
  rw [sameRoot, growth.rootOrphan] at isParent
  exact absurd isParent (by simp)

/-- A lower measurement that weighs no more never takes the link into the tree. -/
theorem neverAttracts_of_lighter
    {mode : LinkQualityMode}
    {mat : TdmaMatrix}
    {id forward backward reverse lower higher : UInt8}
    (cells : HasLinkCells mat id forward backward reverse)
    (lighter :
      weighedQuality mode lower reverse (forward != 0 && backward != 0) ≤
        weighedQuality mode higher reverse (forward != 0 && backward != 0)) :
    NeverAttracts mode mat id lower higher := by
  obtain ⟨own, v, foundSelf, foundOther, rfl, rfl, rfl⟩ := cells
  intro position place isOwn isPlace _ absent
  obtain rfl : own = position := Option.some.inj (foundSelf.symm.trans isOwn)
  obtain rfl : v = place := Option.some.inj (foundOther.symm.trans isPlace)
  by_cases same : own = v
  · have loopless :=
      (isForest_primAlgorithmWeighted mode
        (setLinkQuality mat id lower)).loopless own
    rw [← same, loopless]
    decide
  · have costlier :
        Costlier mode (IsLinkOf own v) (setLinkQuality mat id higher)
          (setLinkQuality mat id lower) :=
      costlier_setLinkQuality foundSelf foundOther same lighter
    have notPlanted :
        ∀ w p, (primResult mode (setLinkQuality mat id higher)).parent w =
            some p →
          ¬ IsLinkOf own v p w := by
      intro w p isParent isLink
      have planted := plantedEdge_of_parent isParent
      refine absent (primAlgorithmWeighted_eq_one.mpr ?_)
      rcases isLink with ⟨rfl, rfl⟩ | ⟨rfl, rfl⟩
      · exact .inr planted
      · exact .inl planted
    rw [primAlgorithmWeighted_eq_of_costlier costlier notPlanted]
    exact absent

/-! ## A higher weight attracts in some topology -/

/--
Node 1 is linked to node 3, and both are linked to node 2 by confirmed links
of one quality.
-/
def detour (forward backward reverse via : UInt8) : TdmaMatrix :=
  { TdmaMatrix.zeroed 1 [1, 2, 3] with
    matrix := fun i j =>
      if i = j then 0
      else if i = 0 ∧ j = 2 then forward
      else if i = 2 ∧ j = 0 then backward
      else 1
    linkQuality := fun i j => if i = 2 ∧ j = 0 then reverse else via }

/-- The root offers its links to every linked position. -/
theorem cells_addToMst_root
    (mode : LinkQualityMode)
    {mat : TdmaMatrix}
    {v : Nat}
    (inBounds : v < mat.numberOfActiveNodes)
    (notRoot : v ≠ 0)
    (isLinked : linked mat 0 v = true) :
    (addToMst mode mat primStart 0).inMst v = false ∧
      (addToMst mode mat primStart 0).parent v = some 0 ∧
      (addToMst mode mat primStart 0).key v = linkCost mode mat 0 v := by
  obtain ⟨sameMst, cells⟩ := addToMst_spec mode mat primStart 0
  have outside : write primStart.inMst 0 true v = false :=
    write_other _ notRoot true
  have unreached : primStart.key v = unreachedKey := by
    simp [primStart, notRoot]
  have cheaper : linkCost mode mat 0 v < primStart.key v := by
    rw [unreached]
    exact linkCost_lt_unreachedKey mode mat 0 v
  have cell := cells v
  rw [if_pos ⟨inBounds, isLinked, outside, cheaper⟩, Prod.mk.injEq] at cell
  refine ⟨?_, cell⟩
  rw [sameMst]
  exact outside

/--
Among three linked positions of which the way over position 1 costs the same
on both its links, position 2 is reached over position 1 when that is cheaper
than the direct link, and directly when it costs as much.
-/
theorem parent_of_detour
    {mode : LinkQualityMode}
    {mat : TdmaMatrix}
    (three : mat.numberOfActiveNodes = 3)
    (links :
      linked mat 0 1 = true ∧ linked mat 0 2 = true ∧ linked mat 1 2 = true)
    (sameCost : linkCost mode mat 1 2 = linkCost mode mat 0 1)
    (direct : linkCost mode mat 0 1 ≤ linkCost mode mat 0 2) :
    (primResult mode mat).parent 2 =
      if linkCost mode mat 0 1 < linkCost mode mat 0 2 then some 1
      else some 0 := by
  have rootChosen : selectMin 3 primStart = some 0 :=
    selectMin_primStart (by decide)
  obtain ⟨outsideOne, _, keyOne⟩ :=
    cells_addToMst_root mode (by omega) one_ne_zero links.1
  obtain ⟨outsideTwo, parentTwo, keyTwo⟩ :=
    cells_addToMst_root mode (by omega) two_ne_zero links.2.1
  have rootSelected := (parent_addToMst_self mode mat primStart 0).1
  have unfolded :
      primResult mode mat =
        primLoop mode mat 2 (addToMst mode mat primStart 0) := by
    rw [primResult, three, primLoop, three, rootChosen]
  rw [unfolded]
  generalize addToMst mode mat primStart 0 = first at *
  have middleChosen : selectMin 3 first = some 1 := by
    refine selectMin_eq_some_iff.mpr
      ⟨by decide, outsideOne, ?_, ?_, ?_⟩
    · rw [keyOne]
      exact linkCost_lt_unreachedKey mode mat 0 1
    · intro v inBounds outside
      interval_cases v
      · rw [rootSelected] at outside
        exact absurd outside (by simp)
      · exact le_rfl
      · rw [keyOne, keyTwo]
        exact direct
    · intro v before outside
      interval_cases v
      rw [rootSelected] at outside
      exact absurd outside (by simp)
  obtain ⟨middleMst, middleCells⟩ := addToMst_spec mode mat first 1
  have target := middleCells 2
  have outsideMiddle : write first.inMst 1 true 2 = false := by
    rw [write_other _ (by decide)]
    exact outsideTwo
  simp only [three, links.2.2, outsideMiddle, sameCost, keyTwo, parentTwo,
    Nat.lt_add_one, true_and] at target
  have lastParent :
      (primLoop mode mat 1 (addToMst mode mat first 1)).parent 2 =
        (addToMst mode mat first 1).parent 2 := by
    rw [primLoop]
    split
    · rfl
    · rename_i u chosen
      rw [three] at chosen
      obtain ⟨uInBounds, uOutside, _⟩ := selectMin_eq_some chosen
      rw [middleMst] at uOutside
      have isLast : u = 2 := by
        interval_cases u
        · rw [write_other _ (by decide), rootSelected] at uOutside
          exact absurd uOutside (by simp)
        · rw [write_same] at uOutside
          exact absurd uOutside (by simp)
        · rfl
      rw [isLast]
      exact (parent_addToMst_self mode mat _ 2).2
  rw [primLoop, three, middleChosen]
  refine lastParent.trans ?_
  split at target
  · rename_i cheaper
    rw [if_pos cheaper]
    exact (Prod.mk.inj target).1
  · rename_i notCheaper
    rw [if_neg notCheaper]
    exact (Prod.mk.inj target).1

/-- The direct link of the detour is one when either direction reports it. -/
theorem linked_detour
    {forward backward : UInt8}
    (isLink : forward ≠ 0 ∨ backward ≠ 0)
    (reverse via : UInt8) :
    linked (detour forward backward reverse via) 0 2 = true := by
  have cells :
      linked (detour forward backward reverse via) 0 2 =
        (forward != 0 || backward != 0) :=
    rfl
  rw [cells]
  simpa using isLink

section Detour

variable {mode : LinkQualityMode}
variable {forward backward reverse via : UInt8}
variable (measured : via ≠ 0)
include measured

/-- What the links of the detour cost when the direct one is measured. -/
theorem linkCost_detour (quality : UInt8) :
    let mat := setLinkQuality (detour forward backward reverse via) 3 quality
    linkCost mode mat 0 1 = 100 - (via.toNat : Int) ∧
      linkCost mode mat 1 2 = 100 - (via.toNat : Int) ∧
      linkCost mode mat 0 2 =
        100 -
          ((weighedQuality mode quality reverse
            (forward != 0 && backward != 0)).toNat : Int) := by
  have foundSelf :
      searchId (detour forward backward reverse via) 1 = some 0 :=
    rfl
  have foundOther :
      searchId (detour forward backward reverse via) 3 = some 2 :=
    rfl
  have weighs :
      ∀ a b, effectiveQuality mode
          (setLinkQuality (detour forward backward reverse via) 3 quality)
          a b = _ :=
    effectiveQuality_setLinkQuality foundSelf foundOther (by decide) quality
  have aside : weighedQuality mode via via true = via := by
    simp [weighedQuality, measured]
  have firstQuality :
      effectiveQuality mode (detour forward backward reverse via) 0 1 = via :=
    aside
  have secondQuality :
      effectiveQuality mode (detour forward backward reverse via) 1 2 = via :=
    aside
  refine ⟨?_, ?_, ?_⟩
  · rw [linkCost, weighs, if_neg (by decide), if_neg (by decide),
      firstQuality]
  · rw [linkCost, weighs, if_neg (by decide), if_neg (by decide),
      secondQuality]
  · rw [linkCost, weighs, if_pos ⟨rfl, rfl⟩]
    rfl

/-- The direct link is in the tree exactly when it weighs as much. -/
theorem detour_eq_one_iff
    (isLink : forward ≠ 0 ∨ backward ≠ 0)
    {quality : UInt8}
    (atMost :
      weighedQuality mode quality reverse (forward != 0 && backward != 0) ≤
        via) :
    primAlgorithmWeighted mode
          (setLinkQuality (detour forward backward reverse via) 3 quality)
          0 2 = 1 ↔
      weighedQuality mode quality reverse (forward != 0 && backward != 0) =
        via := by
  let mat := setLinkQuality (detour forward backward reverse via) 3 quality
  have three : mat.numberOfActiveNodes = 3 := rfl
  have links :
      linked mat 0 1 = true ∧ linked mat 0 2 = true ∧
        linked mat 1 2 = true :=
    ⟨rfl, linked_detour isLink reverse via, rfl⟩
  obtain ⟨costFirst, costSecond, costDirect⟩ :
      linkCost mode mat 0 1 = _ ∧ linkCost mode mat 1 2 = _ ∧
        linkCost mode mat 0 2 = _ :=
    linkCost_detour measured quality
  have atMostNat := UInt8.le_iff_toNat_le.mp atMost
  have parent :=
    parent_of_detour three links (costSecond.trans costFirst.symm) (by omega)
  rw [primAlgorithmWeighted_eq_one, PlantedEdge, PlantedEdge, three, parent,
    ← UInt8.toNat_inj]
  constructor
  · rintro (⟨⟨absurdity, _⟩, _⟩ | ⟨_, isParent⟩)
    · omega
    · split at isParent
      · simp at isParent
      · omega
  · intro same
    exact .inr ⟨by decide, if_neg (by omega)⟩

end Detour

/-- No link weighs nothing. -/
theorem weighedQuality_ne_zero
    (mode : LinkQualityMode)
    (measured reverse : UInt8)
    (confirmed : Bool) :
    weighedQuality mode measured reverse confirmed ≠ 0 := by
  unfold weighedQuality
  generalize (if measured = 0 then reverse else measured) = reported
  have positive :
      ∀ {quality : UInt8}, quality ≠ 0 →
        (if !confirmed && decide (quality > 20) then quality - 20
          else quality) ≠ 0 := by
    intro quality notZero isZero
    split at isZero
    · rename_i penalized
      simp only [Bool.and_eq_true, decide_eq_true_eq] at penalized
      have above := UInt8.lt_iff_toNat_lt.mp penalized.2
      have twenty : (20 : UInt8).toNat = 20 := rfl
      have isZeroNat := congrArg UInt8.toNat isZero
      rw [UInt8.toNat_sub_of_le _ _ (UInt8.le_of_lt penalized.2),
        UInt8.toNat_zero] at isZeroNat
      omega
    · exact notZero isZero
  dsimp only
  refine positive ?_
  split
  · exact initialLinkQuality_ne_zero mode
  · assumption

/--
For a link with any cells, lowering its measurement takes it into the tree in
no topology around it exactly when the lower measurement weighs no more, after
0 has given way to the reverse or initial quality and the penalty of a link
that one direction confirms has been taken.
-/
theorem worseMeasurement_neverAttracts_iff
    (mode : LinkQualityMode)
    {forward backward : UInt8}
    (isLink : forward ≠ 0 ∨ backward ≠ 0)
    (reverse lower higher : UInt8) :
    (∀ mat id, HasLinkCells mat id forward backward reverse →
        NeverAttracts mode mat id lower higher) ↔
      weighedQuality mode lower reverse (forward != 0 && backward != 0) ≤
        weighedQuality mode higher reverse
          (forward != 0 && backward != 0) := by
  constructor
  · intro never
    by_contra heavier
    rw [UInt8.not_le] at heavier
    have measured :=
      weighedQuality_ne_zero mode lower reverse
        (forward != 0 && backward != 0)
    have absent :=
      (detour_eq_one_iff measured isLink (UInt8.le_of_lt heavier)).not.mpr
        (UInt8.ne_of_lt heavier)
    have present :=
      (detour_eq_one_iff measured isLink (UInt8.le_refl _)).mpr rfl
    generalize
      weighedQuality mode lower reverse (forward != 0 && backward != 0) = via
        at absent present
    have cells :
        HasLinkCells (detour forward backward reverse via) 3 forward backward
          reverse :=
      ⟨0, 2, rfl, rfl, rfl, rfl, rfl⟩
    exact never (detour forward backward reverse via) 3 cells 0 2 rfl rfl
      (linked_detour isLink reverse via) absent present
  · intro lighter mat id cells
    exact neverAttracts_of_lighter cells lighter

/-- On a confirmed link a measurement of 40 attracts nothing that 80 did not. -/
theorem worseMeasurement_neverAttracts_fortyForEighty :
    NeverAttracts .test (detour 1 1 100 90) 3 40 80 :=
  (worseMeasurement_neverAttracts_iff .test (.inl (by decide)) 100 40
    80).mpr (by decide) (detour 1 1 100 90) 3 ⟨0, 2, rfl, rfl, rfl, rfl, rfl⟩

/-- A measurement of 0 gives way to the reverse cell and takes the link in. -/
theorem worseMeasurement_attracts_zeroForEighty :
    ¬ ∀ (mode : LinkQualityMode) (mat : TdmaMatrix)
        (id lower higher : UInt8),
      lower < higher → NeverAttracts mode mat id lower higher := by
  intro never
  have absent :=
    never .test (detour 1 1 100 90) 3 0 80 (by decide) 0 2 rfl rfl rfl
      (by decide +kernel)
  revert absent
  decide +kernel

end RoutingMesh
