import RoutingMesh.PrimOptimality

/-!
# Links that the tree does not use

Two runs of Prim's algorithm over the same links, the second with some links
dearer.  As long as the tree of the first run uses none of those, the two
runs select the same positions in the same order: a dearer link can only have
been a pending offer that a better one replaced.  So both plant the same tree.
-/

namespace RoutingMesh

open CellArray

/-- The second matrix has the same links, some of them at a higher cost. -/
structure Costlier
    (mode : LinkQualityMode)
    (raised : Nat → Nat → Prop)
    (mat dear : TdmaMatrix) : Prop where
  sameNumber : dear.numberOfActiveNodes = mat.numberOfActiveNodes
  sameLinks : ∀ u v, linked dear u v = linked mat u v
  costs : ∀ u v, linkCost mode mat u v ≤ linkCost mode dear u v
  others :
    ∀ u v, ¬ raised u v → linkCost mode dear u v = linkCost mode mat u v

/-- The offer that a position outside the tree holds is a raised link. -/
structure PendingOffer
    (raised : Nat → Nat → Prop)
    (num : Nat)
    (cheap dear : PrimState)
    (v : Nat) : Prop where
  inBounds : v < num
  outside : cheap.inMst v = false
  reached : cheap.key v < unreachedKey
  lower : cheap.key v ≤ dear.key v
  isRaised : ∃ p, cheap.parent v = some p ∧ raised p v

/-- The two runs differ in pending offers only. -/
structure RunsAlongside
    (raised : Nat → Nat → Prop)
    (num : Nat)
    (cheap dear : PrimState) : Prop where
  sameMst : dear.inMst = cheap.inMst
  cells :
    ∀ v,
      (dear.parent v = cheap.parent v ∧ dear.key v = cheap.key v) ∨
        PendingOffer raised num cheap dear v

/-!
## Selections
-/

/-- The first position with the smallest key is the one selected. -/
theorem selectMin_eq_some_iff
    {num : Nat}
    {state : PrimState}
    {u : Nat} :
    selectMin num state = some u ↔
      u < num ∧ state.inMst u = false ∧ state.key u < unreachedKey ∧
        (∀ v, v < num → state.inMst v = false →
          state.key u ≤ state.key v) ∧
        ∀ v, v < u → state.inMst v = false → state.key u < state.key v := by
  constructor
  · exact selectMin_eq_some
  · rintro ⟨inBounds, outside, reached, least, first⟩
    cases chosen : selectMin num state with
    | none =>
        have unreached :=
          unreached_of_selectMin_eq_none chosen inBounds outside
        omega
    | some w =>
        obtain ⟨wInBounds, wOutside, _, wLeast, wFirst⟩ :=
          selectMin_eq_some chosen
        have below := least w wInBounds wOutside
        have above := wLeast u inBounds outside
        rcases Nat.lt_trichotomy w u with before | same | after
        · have strict := first w before wOutside
          omega
        · rw [same]
        · have strict := wFirst u after outside
          omega

/-- A selection keeps the parent of the selected position. -/
theorem parent_addToMst_self
    (mode : LinkQualityMode)
    (mat : TdmaMatrix)
    (state : PrimState)
    (u : Nat) :
    (addToMst mode mat state u).inMst u = true ∧
      (addToMst mode mat state u).parent u = state.parent u := by
  obtain ⟨sameMst, cells⟩ := addToMst_spec mode mat state u
  have cell := cells u
  rw [if_neg (by simp), Prod.mk.injEq] at cell
  exact ⟨by rw [sameMst, write_same], cell.1⟩

/-- The parent of a selected position is final. -/
theorem parent_primLoop_of_inMst
    {mode : LinkQualityMode}
    {mat : TdmaMatrix}
    {count : Nat} :
    ∀ {state : PrimState} {v : Nat}, state.inMst v = true →
      (primLoop mode mat count state).parent v = state.parent v := by
  induction count with
  | zero =>
      intro state v _
      rfl
  | succ count inductionHypothesis =>
      intro state v inside
      rw [primLoop]
      split
      · rfl
      · rename_i u _
        obtain ⟨sameMst, cells⟩ := addToMst_spec mode mat state u
        have stillInside : (addToMst mode mat state u).inMst v = true := by
          rw [sameMst]
          unfold write
          split
          · rfl
          · exact inside
        rw [inductionHypothesis stillInside]
        have cell := cells v
        rw [if_neg] at cell
        · exact congrArg Prod.fst cell
        · rw [sameMst] at stillInside
          simp [stillInside]

/-- A pending offer stays pending while its cells stay and no key gets lower. -/
theorem PendingOffer.of_cells
    {raised : Nat → Nat → Prop}
    {num v : Nat}
    {cheap dear nextCheap nextDear : PrimState}
    (pending : PendingOffer raised num cheap dear v)
    (outside : nextCheap.inMst v = false)
    (sameParent : nextCheap.parent v = cheap.parent v)
    (sameKey : nextCheap.key v = cheap.key v)
    (lower : cheap.key v ≤ nextDear.key v) :
    PendingOffer raised num nextCheap nextDear v where
  inBounds := pending.inBounds
  outside := outside
  reached := by
    rw [sameKey]
    exact pending.reached
  lower := by
    rw [sameKey]
    exact lower
  isRaised := by
    rw [sameParent]
    exact pending.isRaised

/-- No key of the second run is lower. -/
theorem RunsAlongside.key_le
    {raised : Nat → Nat → Prop}
    {num : Nat}
    {cheap dear : PrimState}
    (alongside : RunsAlongside raised num cheap dear)
    (v : Nat) :
    cheap.key v ≤ dear.key v := by
  rcases alongside.cells v with same | pending
  · exact le_of_eq same.2.symm
  · exact pending.lower

section Runs

variable {mode : LinkQualityMode} {raised : Nat → Nat → Prop}
variable {mat dear : TdmaMatrix}
variable {cheapState dearState : PrimState}

/-- A selection of the first run that is no pending offer is made by both. -/
theorem RunsAlongside.selects
    {num : Nat}
    (alongside : RunsAlongside raised num cheapState dearState)
    {u : Nat}
    (chosen : selectMin num cheapState = some u)
    (settled : ¬ PendingOffer raised num cheapState dearState u) :
    selectMin num dearState = some u := by
  have keyOfU : dearState.key u = cheapState.key u :=
    ((alongside.cells u).resolve_right settled).2
  rw [selectMin_eq_some_iff] at chosen ⊢
  rw [alongside.sameMst, keyOfU]
  obtain ⟨inBounds, outside, reached, least, first⟩ := chosen
  refine ⟨inBounds, outside, reached, ?_, ?_⟩
  · intro v vInBounds vOutside
    exact (least v vInBounds vOutside).trans (alongside.key_le v)
  · intro v before vOutside
    exact (first v before vOutside).trans_le (alongside.key_le v)

/-- An offer to a position outside the tree keeps its cells alongside. -/
theorem RunsAlongside.offer
    (costlier : Costlier mode raised mat dear)
    (alongside :
      RunsAlongside raised mat.numberOfActiveNodes cheapState dearState)
    {u v : Nat}
    (inBounds : v < mat.numberOfActiveNodes)
    (isLinked : linked mat u v = true)
    (outside : write cheapState.inMst u true v = false) :
    ((addToMst mode dear dearState u).parent v =
          (addToMst mode mat cheapState u).parent v ∧
        (addToMst mode dear dearState u).key v =
          (addToMst mode mat cheapState u).key v) ∨
      PendingOffer raised mat.numberOfActiveNodes
        (addToMst mode mat cheapState u) (addToMst mode dear dearState u)
        v := by
  obtain ⟨cheapMst, cheapCells⟩ := addToMst_spec mode mat cheapState u
  have cheapCell := cheapCells v
  have dearCell := (addToMst_spec mode dear dearState u).2 v
  rw [costlier.sameNumber, costlier.sameLinks, alongside.sameMst] at dearCell
  simp only [inBounds, isLinked, outside, true_and] at cheapCell dearCell
  have costs := costlier.costs u v
  have stillOutside : (addToMst mode mat cheapState u).inMst v = false := by
    rw [cheapMst]
    exact outside
  have dearer := alongside.key_le v
  by_cases taken : linkCost mode mat u v < cheapState.key v
  · rw [if_pos taken, Prod.mk.injEq] at cheapCell
    by_cases isRaised : raised u v
    · right
      refine ⟨inBounds, stillOutside, ?_, ?_, u, cheapCell.1, isRaised⟩
      · rw [cheapCell.2]
        exact linkCost_lt_unreachedKey mode mat u v
      · rw [cheapCell.2]
        split at dearCell
        · rw [(Prod.mk.inj dearCell).2]
          exact costs
        · rw [(Prod.mk.inj dearCell).2]
          omega
    · left
      have sameCost := costlier.others u v isRaised
      rw [if_pos (by omega), Prod.mk.injEq] at dearCell
      rw [cheapCell.1, cheapCell.2, dearCell.1, dearCell.2, sameCost]
      exact ⟨rfl, rfl⟩
  · rw [if_neg taken, Prod.mk.injEq] at cheapCell
    rcases alongside.cells v with same | pending
    · left
      rw [if_neg (by omega), Prod.mk.injEq] at dearCell
      rw [cheapCell.1, cheapCell.2, dearCell.1, dearCell.2]
      exact same
    · right
      refine pending.of_cells stillOutside cheapCell.1 cheapCell.2 ?_
      have lower := pending.lower
      split at dearCell
      · rw [(Prod.mk.inj dearCell).2]
        omega
      · rw [(Prod.mk.inj dearCell).2]
        exact lower

/-- Adding the same position keeps the runs alongside each other. -/
theorem RunsAlongside.add
    (costlier : Costlier mode raised mat dear)
    (alongside :
      RunsAlongside raised mat.numberOfActiveNodes cheapState dearState)
    {u : Nat}
    (settled :
      ¬ PendingOffer raised mat.numberOfActiveNodes cheapState dearState u) :
    RunsAlongside raised mat.numberOfActiveNodes
      (addToMst mode mat cheapState u) (addToMst mode dear dearState u) := by
  obtain ⟨cheapMst, cheapCells⟩ := addToMst_spec mode mat cheapState u
  obtain ⟨dearMst, dearCells⟩ := addToMst_spec mode dear dearState u
  refine ⟨by rw [cheapMst, dearMst, alongside.sameMst], ?_⟩
  intro v
  by_cases offered :
      v < mat.numberOfActiveNodes ∧ linked mat u v = true ∧
        write cheapState.inMst u true v = false
  · exact alongside.offer costlier offered.1 offered.2.1 offered.2.2
  · have cheapCell := cheapCells v
    have dearCell := dearCells v
    rw [costlier.sameNumber, costlier.sameLinks, alongside.sameMst]
      at dearCell
    rw [if_neg (fun all => offered ⟨all.1, all.2.1, all.2.2.1⟩),
      Prod.mk.injEq] at cheapCell dearCell
    rcases alongside.cells v with same | pending
    · left
      rw [cheapCell.1, cheapCell.2, dearCell.1, dearCell.2]
      exact same
    · right
      have different : v ≠ u := by
        rintro rfl
        exact settled pending
      refine pending.of_cells ?_ cheapCell.1 cheapCell.2 ?_
      · rw [cheapMst, write_other _ different]
        exact pending.outside
      · rw [dearCell.2]
        exact pending.lower

/-- Runs without pending offers are in the same state. -/
theorem RunsAlongside.eq_of_settled
    {num : Nat}
    (alongside : RunsAlongside raised num cheapState dearState)
    (settled : ∀ v, ¬ PendingOffer raised num cheapState dearState v) :
    dearState = cheapState := by
  obtain ⟨dearMst, dearParent, dearKey⟩ := dearState
  obtain ⟨cheapMst, cheapParent, cheapKey⟩ := cheapState
  have cells := fun v => (alongside.cells v).resolve_right (settled v)
  have sameParent : dearParent = cheapParent := funext fun v => (cells v).1
  have sameKey : dearKey = cheapKey := funext fun v => (cells v).2
  have sameMst : dearMst = cheapMst := alongside.sameMst
  rw [sameMst, sameParent, sameKey]

/-- When nothing is left to select no offer is pending. -/
theorem settled_of_exhausted
    {num : Nat}
    (exhausted : selectMin num cheapState = none)
    (v : Nat) :
    ¬ PendingOffer raised num cheapState dearState v := by
  intro pending
  have unreached :=
    unreached_of_selectMin_eq_none exhausted pending.inBounds pending.outside
  have reached := pending.reached
  omega

/-- The runs end with the same parents when the first uses no raised link. -/
theorem RunsAlongside.primLoop
    (costlier : Costlier mode raised mat dear)
    {count : Nat} :
    ∀ {cheapState dearState : PrimState},
      RunsAlongside raised mat.numberOfActiveNodes cheapState dearState →
      (∀ v p, (primLoop mode mat count cheapState).parent v = some p →
        ¬ raised p v) →
      (primLoop mode dear count dearState).parent =
        (primLoop mode mat count cheapState).parent := by
  induction count with
  | zero =>
      intro cheapState dearState alongside unused
      have settled :
          ∀ v, ¬ PendingOffer raised mat.numberOfActiveNodes cheapState
            dearState v := by
        intro v pending
        obtain ⟨p, isParent, isRaised⟩ := pending.isRaised
        exact unused v p isParent isRaised
      rw [alongside.eq_of_settled settled]
      rfl
  | succ count inductionHypothesis =>
      intro cheapState dearState alongside unused
      rw [RoutingMesh.primLoop] at unused ⊢
      rw [RoutingMesh.primLoop, costlier.sameNumber]
      cases chosen : selectMin mat.numberOfActiveNodes cheapState with
      | none =>
          have settled :
              ∀ v, ¬ PendingOffer raised mat.numberOfActiveNodes cheapState
                dearState v :=
            settled_of_exhausted chosen
          rw [alongside.eq_of_settled settled, chosen]
      | some u =>
          simp only [chosen] at unused ⊢
          have settled :
              ¬ PendingOffer raised mat.numberOfActiveNodes cheapState
                dearState u := by
            intro pending
            obtain ⟨p, isParent, isRaised⟩ := pending.isRaised
            have selected := parent_addToMst_self mode mat cheapState u
            rw [← selected.2] at isParent
            refine unused u p ?_ isRaised
            rw [parent_primLoop_of_inMst selected.1]
            exact isParent
          rw [alongside.selects chosen settled]
          exact inductionHypothesis (alongside.add costlier settled) unused

end Runs

/-- Links that the tree does not use may cost more without changing it. -/
theorem primAlgorithmWeighted_eq_of_costlier
    {mode : LinkQualityMode}
    {raised : Nat → Nat → Prop}
    {mat dear : TdmaMatrix}
    (costlier : Costlier mode raised mat dear)
    (unused :
      ∀ v p, (primResult mode mat).parent v = some p → ¬ raised p v) :
    primAlgorithmWeighted mode dear = primAlgorithmWeighted mode mat := by
  have together :
      RunsAlongside raised mat.numberOfActiveNodes primStart primStart :=
    ⟨rfl, fun _ => .inl ⟨rfl, rfl⟩⟩
  have sameParents :
      (primResult mode dear).parent = (primResult mode mat).parent := by
    unfold primResult at unused ⊢
    rw [costlier.sameNumber]
    exact together.primLoop costlier unused
  unfold primAlgorithmWeighted
  rw [costlier.sameNumber, sameParents]

end RoutingMesh
