import RoutingMesh.Forest
import RoutingMesh.Prim

/-!
# The tree that Prim's algorithm plants

The loop invariant of `primAlgorithm_weighted` keeps, beside the arrays, the
order in which positions were selected: a parent is always selected before
its children.  The planted table is therefore symmetric, loop free, acyclic,
and made of links that the matrix holds.
-/

namespace RoutingMesh

open CellArray KeyedCells

/-!
## One selection
-/

/-- The scan of `selectMin` with its running minimum. -/
private def scanMin (num : Nat) (state : PrimState) : Int × Option Nat :=
  (List.range num).foldl
    (fun (best : Int × Option Nat) v =>
      if !state.inMst v && decide (state.key v < best.1) then
        (state.key v, some v)
      else
        best)
    (unreachedKey, none)

private theorem scanMin_succ (num : Nat) (state : PrimState) :
    scanMin (num + 1) state =
      if !state.inMst num &&
          decide (state.key num < (scanMin num state).1) then
        (state.key num, some num)
      else
        scanMin num state := by
  simp [scanMin, List.range_succ]

/-- What the scan has found among the first `num` positions. -/
private structure ScanResult
    (num : Nat)
    (state : PrimState)
    (best : Int × Option Nat) : Prop where
  least : ∀ v, v < num → state.inMst v = false → best.1 ≤ state.key v
  unreached : best.2 = none → best.1 = unreachedKey
  found :
    ∀ {u}, best.2 = some u →
      u < num ∧ state.inMst u = false ∧ best.1 = state.key u ∧
        state.key u < unreachedKey ∧
        ∀ v, v < u → state.inMst v = false → state.key u < state.key v

private theorem scanMin_spec (num : Nat) (state : PrimState) :
    ScanResult num state (scanMin num state) := by
  induction num with
  | zero =>
      exact
        { least := by simp
          unreached := by simp [scanMin]
          found := by simp [scanMin] }
  | succ num inductionHypothesis =>
      have bestIsReached :
          (scanMin num state).1 ≤ unreachedKey := by
        cases chosen : (scanMin num state).2 with
        | none =>
            exact le_of_eq (inductionHypothesis.unreached chosen)
        | some u =>
            obtain ⟨_, _, isKey, reached, _⟩ :=
              inductionHypothesis.found chosen
            omega
      rw [scanMin_succ]
      split
      · rename_i smaller
        simp only [Bool.and_eq_true, Bool.not_eq_true', decide_eq_true_eq]
          at smaller
        refine ⟨?_, by simp, ?_⟩
        · intro v inBounds outside
          by_cases isLast : v = num
          · subst isLast
            exact le_rfl
          · have earlier :=
              inductionHypothesis.least v (by omega) outside
            exact smaller.2.le.trans earlier
        · intro u isFound
          have isLast : num = u := Option.some.inj isFound
          subst isLast
          refine ⟨by omega, smaller.1, rfl, by omega, ?_⟩
          intro v before outside
          exact smaller.2.trans_le
            (inductionHypothesis.least v before outside)
      · rename_i notSmaller
        refine ⟨?_, inductionHypothesis.unreached, ?_⟩
        · intro v inBounds outside
          by_cases isLast : v = num
          · subst isLast
            by_contra smaller
            exact notSmaller (by simp [outside]; omega)
          · exact inductionHypothesis.least v (by omega) outside
        · intro u isFound
          obtain ⟨inBounds, rest⟩ := inductionHypothesis.found isFound
          exact ⟨by omega, rest⟩

/-- The selected position is the first one outside the tree with the least key. -/
theorem selectMin_eq_some
    {num : Nat}
    {state : PrimState}
    {u : Nat}
    (selected : selectMin num state = some u) :
    u < num ∧ state.inMst u = false ∧ state.key u < unreachedKey ∧
      (∀ v, v < num → state.inMst v = false → state.key u ≤ state.key v) ∧
      ∀ v, v < u → state.inMst v = false → state.key u < state.key v := by
  have scan := scanMin_spec num state
  obtain ⟨inBounds, outside, isKey, reached, first⟩ := scan.found selected
  refine ⟨inBounds, outside, reached, ?_, first⟩
  intro v vInBounds vOutside
  rw [← isKey]
  exact scan.least v vInBounds vOutside

/-- Nothing is selected when no key outside the tree is small enough. -/
theorem unreached_of_selectMin_eq_none
    {num : Nat}
    {state : PrimState}
    (exhausted : selectMin num state = none)
    {v : Nat}
    (inBounds : v < num)
    (outside : state.inMst v = false) :
    unreachedKey ≤ state.key v := by
  have scan := scanMin_spec num state
  rw [← scan.unreached exhausted]
  exact scan.least v inBounds outside

/-!
## One pass of the outer loop
-/

/-- The body of the inner loop offers one link to one position. -/
theorem relax_spec
    (mode : LinkQualityMode)
    (mat : TdmaMatrix)
    (u : Nat)
    (state : PrimState)
    (v : Nat) :
    (relax mode mat u state v).inMst = state.inMst ∧
      ∀ w,
        ((relax mode mat u state v).parent w,
            (relax mode mat u state v).key w) =
          if w = v ∧ linked mat u v = true ∧ state.inMst v = false ∧
              linkCost mode mat u v < state.key v then
            (some u, linkCost mode mat u v)
          else
            (state.parent w, state.key w) := by
  unfold relax
  by_cases offered : linked mat u v = true ∧ state.inMst v = false
  · by_cases cheaper : linkCost mode mat u v < state.key v
    · simp only [offered, cheaper, Bool.not_false, Bool.and_self, ↓reduceIte,
        and_true, true_and]
      intro w
      by_cases isOwn : w = v
      · simp [isOwn]
      · simp [isOwn]
    · simp [offered, cheaper]
  · have notOffered : ¬ (linked mat u v && !state.inMst v) = true := by
      simpa using offered
    rw [if_neg notOffered]
    refine ⟨rfl, ?_⟩
    intro w
    rw [if_neg]
    exact fun all => offered ⟨all.2.1, all.2.2.1⟩

/-- The inner loop offers the new link to every position outside the tree. -/
theorem addToMst_spec
    (mode : LinkQualityMode)
    (mat : TdmaMatrix)
    (state : PrimState)
    (u : Nat) :
    (addToMst mode mat state u).inMst = write state.inMst u true ∧
      ∀ v,
        ((addToMst mode mat state u).parent v,
            (addToMst mode mat state u).key v) =
          if v < mat.numberOfActiveNodes ∧ linked mat u v = true ∧
              write state.inMst u true v = false ∧
              linkCost mode mat u v < state.key v then
            (some u, linkCost mode mat u v)
          else
            (state.parent v, state.key v) := by
  unfold addToMst
  generalize mat.numberOfActiveNodes = num
  induction num with
  | zero =>
      exact ⟨rfl, by simp⟩
  | succ num inductionHypothesis =>
      obtain ⟨sameMst, cells⟩ := inductionHypothesis
      rw [List.range_succ, List.foldl_append]
      generalize
        (List.range num).foldl (relax mode mat u)
          { state with inMst := write state.inMst u true } = before
        at sameMst cells
      obtain ⟨stepMst, stepCells⟩ := relax_spec mode mat u before num
      have atNum := cells num
      simp only [lt_irrefl, false_and, ↓reduceIte, Prod.mk.injEq] at atNum
      refine ⟨stepMst.trans sameMst, ?_⟩
      intro v
      refine (stepCells v).trans ?_
      rw [cells v, sameMst, atNum.2]
      by_cases isNum : v = num
      · subst isNum
        simp
      · have sameBound : v < num + 1 ↔ v < num := by omega
        simp [isNum, sameBound]

/-!
## The loop invariant
-/

/--
After `selected` selections, made in the order of `rank`: parents are selected
positions that a link joins to their children, selected before them.
-/
structure PrimInvariant
    (mat : TdmaMatrix)
    (selected : Nat)
    (rank : Nat → Nat)
    (state : PrimState) : Prop where
  inBounds :
    ∀ {v}, state.inMst v = true → v < mat.numberOfActiveNodes
  ranked :
    ∀ {v}, state.inMst v = true → rank v < selected
  parentEdge :
    ∀ {v p}, state.parent v = some p →
      v < mat.numberOfActiveNodes ∧ state.inMst p = true ∧
        p ≠ v ∧ linked mat p v = true
  parentEarlier :
    ∀ {v p}, state.parent v = some p → state.inMst v = true →
      rank p < rank v

theorem PrimInvariant.start (mat : TdmaMatrix) :
    PrimInvariant mat 0 (fun _ => 0) primStart where
  inBounds := by simp [primStart]
  ranked := by simp [primStart]
  parentEdge := by simp [primStart]
  parentEarlier := by simp [primStart]

/-- A parent after one pass is the selected position or the former parent. -/
theorem parent_addToMst
    {mode : LinkQualityMode}
    {mat : TdmaMatrix}
    {state : PrimState}
    {u v p : Nat}
    (isParent : (addToMst mode mat state u).parent v = some p) :
    (p = u ∧ v < mat.numberOfActiveNodes ∧ linked mat u v = true ∧
        write state.inMst u true v = false) ∨
      state.parent v = some p := by
  have cells := (addToMst_spec mode mat state u).2 v
  split at cells
  · rename_i offered
    left
    have isU : some u = some p :=
      ((congrArg Prod.fst cells).symm.trans isParent)
    exact ⟨(Option.some.inj isU).symm, offered.1, offered.2.1,
      offered.2.2.1⟩
  · right
    exact (congrArg Prod.fst cells).symm.trans isParent

/-- Selecting a position outside the tree keeps the invariant. -/
theorem PrimInvariant.step
    {mode : LinkQualityMode}
    {mat : TdmaMatrix}
    {selected : Nat}
    {rank : Nat → Nat}
    {state : PrimState}
    (invariant : PrimInvariant mat selected rank state)
    {u : Nat}
    (chosen : selectMin mat.numberOfActiveNodes state = some u) :
    PrimInvariant mat (selected + 1) (write rank u selected)
      (addToMst mode mat state u) := by
  obtain ⟨uInBounds, uOutside, _⟩ := selectMin_eq_some chosen
  have sameMst := (addToMst_spec mode mat state u).1
  have parentDiffers :
      ∀ {v p}, state.parent v = some p → p ≠ u := by
    rintro v p isParent rfl
    have inside := (invariant.parentEdge isParent).2.1
    rw [uOutside] at inside
    exact Bool.false_ne_true inside
  refine ⟨?_, ?_, ?_, ?_⟩
  · intro v inside
    rw [sameMst] at inside
    by_cases isU : v = u
    · subst isU
      exact uInBounds
    · rw [write_other _ isU] at inside
      exact invariant.inBounds inside
  · intro v inside
    rw [sameMst] at inside
    by_cases isU : v = u
    · subst isU
      simp
    · rw [write_other _ isU] at inside ⊢
      have earlier := invariant.ranked inside
      omega
  · intro v p isParent
    rw [sameMst]
    rcases parent_addToMst isParent with
      ⟨rfl, inBounds, isLinked, outside⟩ | former
    · refine ⟨inBounds, by simp, ?_, isLinked⟩
      rintro rfl
      simp at outside
    · obtain ⟨inBounds, inside, different, isLinked⟩ :=
        invariant.parentEdge former
      refine ⟨inBounds, ?_, different, isLinked⟩
      rw [write_other _ (parentDiffers former)]
      exact inside
  · intro v p isParent inside
    rw [sameMst] at inside
    rcases parent_addToMst isParent with
      ⟨rfl, inBounds, isLinked, outside⟩ | former
    · rw [outside] at inside
      exact (Bool.false_ne_true inside).elim
    · have parentInside := (invariant.parentEdge former).2.1
      rw [write_other _ (parentDiffers former)]
      by_cases isU : v = u
      · -- The parent of the new position was selected in an earlier pass.
        subst isU
        rw [write_same]
        exact invariant.ranked parentInside
      · rw [write_other _ isU] at inside ⊢
        exact invariant.parentEarlier former inside

/-- The invariant holds when the outer loop ends. -/
theorem PrimInvariant.primLoop
    {mode : LinkQualityMode}
    {mat : TdmaMatrix}
    {count : Nat} :
    ∀ {selected : Nat} {rank : Nat → Nat} {state : PrimState},
      PrimInvariant mat selected rank state →
      ∃ finalSelected finalRank,
        PrimInvariant mat finalSelected finalRank
          (primLoop mode mat count state) := by
  induction count with
  | zero =>
      intro selected rank state invariant
      exact ⟨selected, rank, invariant⟩
  | succ count inductionHypothesis =>
      intro selected rank state invariant
      rw [RoutingMesh.primLoop]
      split
      · exact ⟨selected, rank, invariant⟩
      · rename_i u chosen
        exact inductionHypothesis (invariant.step chosen)

/-- The invariant that `primAlgorithm_weighted` ends with. -/
theorem primResult_invariant
    (mode : LinkQualityMode)
    (mat : TdmaMatrix) :
    ∃ selected rank,
      PrimInvariant mat selected rank (primResult mode mat) :=
  (PrimInvariant.start mat).primLoop

/-!
## The planted table
-/

/-- The graph whose edges are the cells equal to 1. -/
def treeGraph (tree : Nat → Nat → UInt8) : SimpleGraph Nat :=
  SimpleGraph.fromRel (fun a b => tree a b = 1)

/-- A table that stores a forest over the first `num` positions. -/
structure IsForest
    (num : Nat)
    (tree : Nat → Nat → UInt8) : Prop where
  binary : ∀ a b, tree a b = 0 ∨ tree a b = 1
  symmetric : ∀ a b, tree a b = tree b a
  loopless : ∀ a, tree a a = 0
  inBounds : ∀ {a b}, tree a b = 1 → a < num ∧ b < num
  acyclic : (treeGraph tree).IsAcyclic

/-- One pass of the last loop writes the edge of its position. -/
theorem plantEdge_apply
    (parent : Nat → Option Nat)
    (tree : Nat → Nat → UInt8)
    (i a b : Nat) :
    plantEdge parent tree i a b =
      if (a = i ∧ parent a = some b) ∨ (b = i ∧ parent b = some a) then 1
      else tree a b := by
  unfold plantEdge
  cases isParent : parent i with
  | none =>
      rw [if_neg]
      rintro (⟨rfl, edge⟩ | ⟨rfl, edge⟩)
      · simp [isParent] at edge
      · simp [isParent] at edge
  | some p =>
      simp only [writeAt_apply]
      by_cases child : a = i ∧ b = p
      · obtain ⟨rfl, rfl⟩ := child
        simp [isParent]
      · by_cases child' : a = p ∧ b = i
        · obtain ⟨rfl, rfl⟩ := child'
          simp [isParent]
        · rw [if_neg child, if_neg child', if_neg]
          rintro (⟨rfl, edge⟩ | ⟨rfl, edge⟩)
          · rw [isParent] at edge
            exact child ⟨rfl, (Option.some.inj edge).symm⟩
          · rw [isParent] at edge
            exact child' ⟨(Option.some.inj edge).symm, rfl⟩

/-- The loop writes the edges of its positions and nothing else. -/
theorem foldl_plantEdge
    (parent : Nat → Option Nat)
    (positions : List Nat)
    (tree : Nat → Nat → UInt8)
    (a b : Nat) :
    positions.foldl (plantEdge parent) tree a b =
      if (a ∈ positions ∧ parent a = some b) ∨
          (b ∈ positions ∧ parent b = some a) then
        1
      else
        tree a b := by
  induction positions generalizing tree with
  | nil =>
      simp
  | cons i rest inductionHypothesis =>
      rw [List.foldl_cons, inductionHypothesis]
      rw [plantEdge_apply]
      by_cases up : parent a = some b
      · by_cases down : parent b = some a
        · simp only [up, down, and_true, List.mem_cons]
          grind
        · simp only [up, down, and_true, and_false, or_false, List.mem_cons]
          grind
      · simp only [up, and_false, false_or, List.mem_cons]
        grind

/-- `parent` joins `i` to `p` and the last loop visits `i`. -/
def PlantedEdge
    (mode : LinkQualityMode)
    (mat : TdmaMatrix)
    (i p : Nat) : Prop :=
  (1 ≤ i ∧ i < mat.numberOfActiveNodes) ∧
    (primResult mode mat).parent i = some p

/-- The cells of the tree are the planted edges, in both directions. -/
theorem primAlgorithmWeighted_eq_one
    {mode : LinkQualityMode}
    {mat : TdmaMatrix}
    {a b : Nat} :
    primAlgorithmWeighted mode mat a b = 1 ↔
      PlantedEdge mode mat a b ∨ PlantedEdge mode mat b a := by
  unfold primAlgorithmWeighted PlantedEdge
  split
  · rename_i small
    constructor
    · intro isOne
      simp at isOne
    · rintro (⟨⟨_, _⟩, _⟩ | ⟨⟨_, _⟩, _⟩) <;> omega
  · rename_i large
    have visited :
        ∀ i, i ∈ List.range' 1 (mat.numberOfActiveNodes - 1) ↔
          1 ≤ i ∧ i < mat.numberOfActiveNodes := by
      intro i
      rw [List.mem_range'_1]
      omega
    rw [foldl_plantEdge]
    simp only [visited]
    split
    · rename_i edge
      simp [edge]
    · rename_i noEdge
      simp [noEdge]

/-- A planted edge joins two active positions that the matrix links. -/
theorem linked_of_tree
    {mode : LinkQualityMode}
    {mat : TdmaMatrix}
    {a b : Nat}
    (edge : primAlgorithmWeighted mode mat a b = 1) :
    a < mat.numberOfActiveNodes ∧ b < mat.numberOfActiveNodes ∧
      linked mat a b = true := by
  obtain ⟨selected, rank, invariant⟩ := primResult_invariant mode mat
  rcases primAlgorithmWeighted_eq_one.mp edge with planted | planted
  · obtain ⟨inBounds, inside, _, isLinked⟩ :=
      invariant.parentEdge planted.2
    refine ⟨inBounds, invariant.inBounds inside, ?_⟩
    rw [linked, Bool.or_comm]
    exact isLinked
  · obtain ⟨inBounds, inside, _, isLinked⟩ :=
      invariant.parentEdge planted.2
    exact ⟨invariant.inBounds inside, inBounds, isLinked⟩

/-- `primAlgorithm_weighted` plants a forest over the active positions. -/
theorem isForest_primAlgorithmWeighted
    (mode : LinkQualityMode)
    (mat : TdmaMatrix) :
    IsForest mat.numberOfActiveNodes (primAlgorithmWeighted mode mat) := by
  obtain ⟨selected, rank, invariant⟩ := primResult_invariant mode mat
  have binary :
      ∀ a b, primAlgorithmWeighted mode mat a b = 0 ∨
        primAlgorithmWeighted mode mat a b = 1 := by
    intro a b
    unfold primAlgorithmWeighted
    split
    · exact .inl rfl
    · rw [foldl_plantEdge]
      split
      · exact .inr rfl
      · exact .inl rfl
  refine ⟨binary, ?_, ?_, ?_, ?_⟩
  · intro a b
    have sameEdge :
        primAlgorithmWeighted mode mat a b = 1 ↔
          primAlgorithmWeighted mode mat b a = 1 := by
      rw [primAlgorithmWeighted_eq_one, primAlgorithmWeighted_eq_one, or_comm]
    rcases binary a b with absent | present
    · rcases binary b a with absent' | present'
      · rw [absent, absent']
      · rw [sameEdge.mpr present', present']
    · rw [present, sameEdge.mp present]
  · intro a
    rcases binary a a with absent | present
    · exact absent
    · rcases primAlgorithmWeighted_eq_one.mp present with planted | planted
      · exact ((invariant.parentEdge planted.2).2.2.1 rfl).elim
      · exact ((invariant.parentEdge planted.2).2.2.1 rfl).elim
  · intro a b edge
    obtain ⟨aInBounds, bInBounds, _⟩ := linked_of_tree edge
    exact ⟨aInBounds, bInBounds⟩
  · have isSubgraph :
        treeGraph (primAlgorithmWeighted mode mat) ≤
          Forest.parentGraph (primResult mode mat).parent := by
      intro a b adjacent
      obtain ⟨different, edge⟩ := (SimpleGraph.fromRel_adj _ a b).mp adjacent
      refine Forest.parentGraph_adj.mpr ⟨different, ?_⟩
      rcases edge with edge | edge
      · exact (primAlgorithmWeighted_eq_one.mp edge).imp (·.2) (·.2)
      · exact ((primAlgorithmWeighted_eq_one.mp edge).imp (·.2) (·.2)).symm
    -- A position that was never selected has no children.
    have descends :
        ∀ {v p}, (primResult mode mat).parent v = some p →
          (if (primResult mode mat).inMst p = true then rank p
            else selected) <
            if (primResult mode mat).inMst v = true then rank v
            else selected := by
      intro v p isParent
      have parentInside := (invariant.parentEdge isParent).2.1
      rw [if_pos parentInside]
      split
      · rename_i inside
        exact invariant.parentEarlier isParent inside
      · exact invariant.ranked parentInside
    exact (Forest.parentGraph_isAcyclic descends).anti isSubgraph

end RoutingMesh
