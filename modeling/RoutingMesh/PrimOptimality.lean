import Mathlib.Algebra.BigOperators.Group.Finset.Basic
import Mathlib.Data.Finset.Prod
import Mathlib.Data.Int.ConditionallyCompleteOrder
import RoutingMesh.PrimTree
import RoutingMesh.SpanningTree

/-!
# Prim's algorithm is correct

The keys outside the tree never exceed the cost of a link from the tree, and
each is the cost of the link to the parent.  So every selection adds a
lightest link that leaves the tree, and when the loop ends no link leaves it:
the planted table is a lightest spanning tree of the component of position 0.
-/

namespace RoutingMesh

open CellArray KeyedCells SpanningTree

/-- The links between active positions. -/
def linkGraph (mat : TdmaMatrix) : SimpleGraph Nat :=
  SimpleGraph.fromRel fun a b =>
    a < mat.numberOfActiveNodes ∧ b < mat.numberOfActiveNodes ∧
      linked mat a b = true

theorem linked_comm (mat : TdmaMatrix) (a b : Nat) :
    linked mat a b = linked mat b a :=
  Bool.or_comm _ _

theorem linkGraph_adj
    {mat : TdmaMatrix}
    {a b : Nat} :
    (linkGraph mat).Adj a b ↔
      a ≠ b ∧ a < mat.numberOfActiveNodes ∧ b < mat.numberOfActiveNodes ∧
        linked mat a b = true := by
  unfold linkGraph
  rw [SimpleGraph.fromRel_adj, linked_comm mat b a]
  tauto

/-- A table that stores a spanning tree of the component of position 0. -/
structure SpansComponent
    (mat : TdmaMatrix)
    (tree : Nat → Nat → UInt8) : Prop where
  forest : IsForest mat.numberOfActiveNodes tree
  linksOnly : ∀ {a b}, tree a b = 1 → linked mat a b = true
  connects :
    ∀ v, (treeGraph tree).Reachable 0 v ↔ (linkGraph mat).Reachable 0 v
  inside : ∀ {a b}, tree a b = 1 → (linkGraph mat).Reachable 0 a

/-- The edges of a table between the first `num` positions. -/
def treeEdges
    (num : Nat)
    (tree : Nat → Nat → UInt8) : Finset (Nat × Nat) :=
  (Finset.range num ×ˢ Finset.range num).filter fun e =>
    e.1 < e.2 ∧ tree e.1 e.2 = 1

/-- The total cost of the edges of a table. -/
def treeCost
    (mode : LinkQualityMode)
    (mat : TdmaMatrix)
    (tree : Nat → Nat → UInt8) : Int :=
  ∑ e ∈ treeEdges mat.numberOfActiveNodes tree, linkCost mode mat e.1 e.2

/-- Both ends of every link compute the same cost for it. -/
def LinkCostsAgree
    (mode : LinkQualityMode)
    (mat : TdmaMatrix) : Prop :=
  ∀ u v, u < mat.numberOfActiveNodes → v < mat.numberOfActiveNodes →
    linked mat u v = true → linkCost mode mat u v = linkCost mode mat v u

/-!
## The edges of a table
-/

/-- The edges of a table, without a direction. -/
def edgeSetOf
    (num : Nat)
    (tree : Nat → Nat → UInt8) : Finset (Sym2 Nat) :=
  (treeEdges num tree).image fun e => s(e.1, e.2)

theorem mem_edgeSetOf
    {num : Nat}
    {tree : Nat → Nat → UInt8}
    (forest : IsForest num tree)
    {a b : Nat} :
    s(a, b) ∈ edgeSetOf num tree ↔ tree a b = 1 := by
  simp only [edgeSetOf, treeEdges, Finset.mem_image, Finset.mem_filter,
    Finset.mem_product, Finset.mem_range]
  constructor
  · rintro ⟨⟨c, d⟩, ⟨_, _, isEdge⟩, same⟩
    rcases Sym2.eq_iff.mp same with ⟨rfl, rfl⟩ | ⟨rfl, rfl⟩
    · exact isEdge
    · rw [forest.symmetric]
      exact isEdge
  · intro isEdge
    have inBounds := forest.inBounds isEdge
    rcases Nat.lt_trichotomy a b with less | same | greater
    · exact ⟨(a, b), ⟨inBounds, less, isEdge⟩, rfl⟩
    · rw [same, forest.loopless] at isEdge
      simp at isEdge
    · refine ⟨(b, a), ⟨inBounds.symm, greater, ?_⟩, Sym2.eq_swap⟩
      rw [forest.symmetric]
      exact isEdge

theorem graphOf_edgeSetOf
    {num : Nat}
    {tree : Nat → Nat → UInt8}
    (forest : IsForest num tree) :
    graphOf (edgeSetOf num tree) = treeGraph tree := by
  ext a b
  rw [graphOf_adj, mem_edgeSetOf forest, treeGraph, SimpleGraph.fromRel_adj,
    forest.symmetric b a, or_self, and_comm]

/-- A table that spans the component is a spanning tree of the links. -/
theorem SpansComponent.spans
    {mat : TdmaMatrix}
    {tree : Nat → Nat → UInt8}
    (component : SpansComponent mat tree) :
    Spans (linkGraph mat) 0 (edgeSetOf mat.numberOfActiveNodes tree) where
  inGraph := by
    intro a b isEdge
    rw [mem_edgeSetOf component.forest] at isEdge
    have inBounds := component.forest.inBounds isEdge
    refine linkGraph_adj.mpr
      ⟨?_, inBounds.1, inBounds.2, component.linksOnly isEdge⟩
    rintro rfl
    rw [component.forest.loopless] at isEdge
    simp at isEdge
  acyclic := by
    rw [graphOf_edgeSetOf component.forest]
    exact component.forest.acyclic
  connects := by
    intro v reached
    rw [graphOf_edgeSetOf component.forest]
    exact (component.connects v).mpr reached
  inside := by
    intro a b isEdge
    rw [mem_edgeSetOf component.forest] at isEdge
    exact component.inside isEdge

/-- The cost of a link as a weight of its undirected edge. -/
def linkWeight
    (mode : LinkQualityMode)
    (mat : TdmaMatrix) : Sym2 Nat → Int :=
  Sym2.lift
    ⟨fun a b => min (linkCost mode mat a b) (linkCost mode mat b a),
      fun _ _ => min_comm _ _⟩

theorem linkWeight_eq
    {mode : LinkQualityMode}
    {mat : TdmaMatrix}
    (agree : LinkCostsAgree mode mat)
    {a b : Nat}
    (link : (linkGraph mat).Adj a b) :
    linkWeight mode mat s(a, b) = linkCost mode mat a b := by
  obtain ⟨_, aInBounds, bInBounds, isLinked⟩ := linkGraph_adj.mp link
  have same := agree a b aInBounds bInBounds isLinked
  simp [linkWeight, same]

/-- The total cost of a table is the weight of its edges. -/
theorem treeCost_eq
    {mode : LinkQualityMode}
    {mat : TdmaMatrix}
    (agree : LinkCostsAgree mode mat)
    {tree : Nat → Nat → UInt8}
    (component : SpansComponent mat tree) :
    treeCost mode mat tree =
      ∑ e ∈ edgeSetOf mat.numberOfActiveNodes tree, linkWeight mode mat e := by
  have oneDirection :
      ∀ e ∈ treeEdges mat.numberOfActiveNodes tree, e.1 < e.2 :=
    fun e isEdge => (Finset.mem_filter.mp isEdge).2.1
  unfold treeCost edgeSetOf
  rw [Finset.sum_image]
  · refine Finset.sum_congr rfl ?_
    intro e isEdge
    refine (linkWeight_eq agree (component.spans.inGraph ?_)).symm
    exact Finset.mem_image_of_mem _ isEdge
  · rintro ⟨a, b⟩ first ⟨c, d⟩ second same
    have forward := oneDirection _ first
    have forward' := oneDirection _ second
    rcases Sym2.eq_iff.mp same with ⟨rfl, rfl⟩ | ⟨rfl, rfl⟩
    · rfl
    · omega

/-!
## What one pass changes
-/

section Pass

variable {mode : LinkQualityMode} {mat : TdmaMatrix}
variable {state : PrimState} {u v : Nat}

theorem inMst_addToMst_iff :
    (addToMst mode mat state u).inMst v = true ↔
      v = u ∨ state.inMst v = true := by
  rw [(addToMst_spec mode mat state u).1, write]
  split
  · rename_i isU
    simp [isU]
  · rename_i different
    simp [different]

/-- A position is offered the new link, or its cells stay. -/
theorem cell_addToMst
    (mode : LinkQualityMode)
    (mat : TdmaMatrix)
    (state : PrimState)
    (u v : Nat) :
    ((addToMst mode mat state u).inMst v = false ∧
        linkCost mode mat u v < state.key v ∧
        (addToMst mode mat state u).parent v = some u ∧
        (addToMst mode mat state u).key v = linkCost mode mat u v) ∨
      ((addToMst mode mat state u).parent v = state.parent v ∧
        (addToMst mode mat state u).key v = state.key v) := by
  obtain ⟨sameMst, cells⟩ := addToMst_spec mode mat state u
  have cell := cells v
  rw [← sameMst] at cell
  split at cell
  · rename_i offer
    exact .inl ⟨offer.2.2.1, offer.2.2.2, congrArg Prod.fst cell,
      congrArg Prod.snd cell⟩
  · exact .inr ⟨congrArg Prod.fst cell, congrArg Prod.snd cell⟩

/-- The parents of selected positions are final. -/
theorem parent_addToMst_of_inside
    (inside : (addToMst mode mat state u).inMst v = true) :
    (addToMst mode mat state u).parent v = state.parent v := by
  rcases cell_addToMst mode mat state u v with ⟨outside, _⟩ | ⟨same, _⟩
  · rw [inside] at outside
    exact (Bool.false_ne_true outside.symm).elim
  · exact same

theorem key_addToMst_le :
    (addToMst mode mat state u).key v ≤ state.key v := by
  rcases cell_addToMst mode mat state u v with ⟨_, cheaper, _, isCost⟩ | ⟨_, same⟩
  · rw [isCost]
    exact cheaper.le
  · exact same.le

/-- After the pass no key outside the tree exceeds the cost of a new link. -/
theorem key_addToMst_le_linkCost
    (inBounds : v < mat.numberOfActiveNodes)
    (isLinked : linked mat u v = true)
    (outside : (addToMst mode mat state u).inMst v = false) :
    (addToMst mode mat state u).key v ≤ linkCost mode mat u v := by
  obtain ⟨sameMst, cells⟩ := addToMst_spec mode mat state u
  have cell := cells v
  rw [← sameMst] at cell
  by_cases cheaper : linkCost mode mat u v < state.key v
  · rw [if_pos ⟨inBounds, isLinked, outside, cheaper⟩] at cell
    exact (congrArg Prod.snd cell).le
  · exact key_addToMst_le.trans (not_lt.mp cheaper)

end Pass

/-!
## The growing tree
-/

/-- What the loop keeps from the selection of position 0 on. -/
structure PrimGrowth
    (mode : LinkQualityMode)
    (mat : TdmaMatrix)
    (grown : Finset (Sym2 Nat))
    (state : PrimState) : Prop where
  ordered : ∃ selected rank, PrimInvariant mat selected rank state
  rootSelected : state.inMst 0 = true
  rootOrphan : state.parent 0 = none
  mem_grown :
    ∀ {e}, e ∈ grown ↔
      ∃ v p, state.inMst v = true ∧ state.parent v = some p ∧ e = s(p, v)
  keyOfParent :
    ∀ {v p}, state.parent v = some p → state.key v = linkCost mode mat p v
  keyOfOrphan :
    ∀ {v}, state.parent v = none → v ≠ 0 → state.key v = unreachedKey
  offered :
    ∀ {x v}, state.inMst x = true → state.inMst v = false →
      v < mat.numberOfActiveNodes → linked mat x v = true →
      state.key v ≤ linkCost mode mat x v
  connected :
    ∀ {v}, state.inMst v = true → (graphOf grown).Reachable 0 v
  extendable :
    LinkCostsAgree mode mat →
      Extendable (linkGraph mat) 0 (linkWeight mode mat) grown

namespace PrimGrowth

variable {mode : LinkQualityMode} {mat : TdmaMatrix}
variable {grown : Finset (Sym2 Nat)} {state : PrimState}

theorem inBounds
    (growth : PrimGrowth mode mat grown state)
    {v : Nat}
    (inside : state.inMst v = true) :
    v < mat.numberOfActiveNodes := by
  obtain ⟨selected, rank, invariant⟩ := growth.ordered
  exact invariant.inBounds inside

/-- A parent is selected and linked to its child. -/
theorem parentEdge
    (growth : PrimGrowth mode mat grown state)
    {v p : Nat}
    (isParent : state.parent v = some p) :
    state.inMst p = true ∧ (linkGraph mat).Adj p v := by
  obtain ⟨selected, rank, invariant⟩ := growth.ordered
  obtain ⟨vInBounds, inside, different, isLinked⟩ :=
    invariant.parentEdge isParent
  exact ⟨inside, linkGraph_adj.mpr
    ⟨different, invariant.inBounds inside, vInBounds, isLinked⟩⟩

/-- The grown edges are links between selected positions. -/
theorem grownEdge
    (growth : PrimGrowth mode mat grown state)
    {a b : Nat}
    (isGrown : s(a, b) ∈ grown) :
    state.inMst a = true ∧ (linkGraph mat).Adj a b := by
  obtain ⟨v, p, inside, isParent, same⟩ := growth.mem_grown.mp isGrown
  obtain ⟨parentInside, link⟩ := growth.parentEdge isParent
  rcases Sym2.eq_iff.mp same with ⟨rfl, rfl⟩ | ⟨rfl, rfl⟩
  · exact ⟨parentInside, link⟩
  · exact ⟨inside, link.symm⟩

theorem graphOf_le
    (growth : PrimGrowth mode mat grown state) :
    graphOf grown ≤ linkGraph mat := by
  intro a b adjacent
  exact (growth.grownEdge (graphOf_adj.mp adjacent).1).2

/-- A reached position outside of the tree has a parent. -/
theorem exists_parent
    (growth : PrimGrowth mode mat grown state)
    {u : Nat}
    (outside : state.inMst u = false)
    (reached : state.key u < unreachedKey) :
    ∃ p, state.parent u = some p := by
  cases isParent : state.parent u with
  | some p =>
      exact ⟨p, rfl⟩
  | none =>
      have notRoot : u ≠ 0 := by
        rintro rfl
        rw [growth.rootSelected] at outside
        exact Bool.false_ne_true outside.symm
      have unreached := growth.keyOfOrphan isParent notRoot
      omega

/-- The link to the position with the least key is a lightest leaving one. -/
theorem extendable_insert
    (growth : PrimGrowth mode mat grown state)
    {u p : Nat}
    (outside : state.inMst u = false)
    (least :
      ∀ v, v < mat.numberOfActiveNodes → state.inMst v = false →
        state.key u ≤ state.key v)
    (isParent : state.parent u = some p)
    (agree : LinkCostsAgree mode mat) :
    Extendable (linkGraph mat) 0 (linkWeight mode mat)
      (insert s(p, u) grown) := by
  obtain ⟨parentInside, link⟩ := growth.parentEdge isParent
  have within :
      ∀ {a b}, s(a, b) ∈ grown → a ∈ {v | state.inMst v = true} :=
    fun isGrown => (growth.grownEdge isGrown).1
  have leaves : u ∉ {v | state.inMst v = true} := by
    simp [outside]
  refine (growth.extendable agree).grow within parentInside leaves
    link ((growth.connected parentInside).mono growth.graphOf_le) ?_
  intro x y xInside yOutside leaving
  obtain ⟨_, _, yInBounds, isLinked⟩ := linkGraph_adj.mp leaving
  have notSelected : state.inMst y = false := by
    simpa using yOutside
  calc
    linkWeight mode mat s(p, u) = linkCost mode mat p u :=
      linkWeight_eq agree link
    _ = state.key u := (growth.keyOfParent isParent).symm
    _ ≤ state.key y := least y yInBounds notSelected
    _ ≤ linkCost mode mat x y :=
      growth.offered xInside notSelected yInBounds isLinked
    _ = linkWeight mode mat s(x, y) := (linkWeight_eq agree leaving).symm

/-- Selecting the least key adds its link to the grown part. -/
theorem step
    (growth : PrimGrowth mode mat grown state)
    {u : Nat}
    (chosen : selectMin mat.numberOfActiveNodes state = some u) :
    ∃ p, PrimGrowth mode mat (insert s(p, u) grown)
      (addToMst mode mat state u) := by
  obtain ⟨uInBounds, uOutside, reached, least, _⟩ := selectMin_eq_some chosen
  obtain ⟨p, isParent⟩ := growth.exists_parent uOutside reached
  obtain ⟨parentInside, link⟩ := growth.parentEdge isParent
  have rootSelected : (addToMst mode mat state u).inMst 0 = true :=
    inMst_addToMst_iff.mpr (.inr growth.rootSelected)
  have grownGraph : graphOf grown ≤ graphOf (insert s(p, u) grown) :=
    graphOf_mono (Finset.subset_insert _ _)
  refine ⟨p, ?_, rootSelected, ?_, ?_, ?_, ?_, ?_, ?_,
    growth.extendable_insert uOutside least isParent⟩
  · obtain ⟨selected, rank, invariant⟩ := growth.ordered
    exact ⟨_, _, invariant.step chosen⟩
  · rw [parent_addToMst_of_inside rootSelected]
    exact growth.rootOrphan
  · intro e
    rw [Finset.mem_insert]
    constructor
    · rintro (rfl | isGrown)
      · have inside : (addToMst mode mat state u).inMst u = true :=
          inMst_addToMst_iff.mpr (.inl rfl)
        exact ⟨u, p, inside,
          (parent_addToMst_of_inside inside).trans isParent, rfl⟩
      · obtain ⟨v, q, wasInside, hasParent, rfl⟩ :=
          growth.mem_grown.mp isGrown
        have inside : (addToMst mode mat state u).inMst v = true :=
          inMst_addToMst_iff.mpr (.inr wasInside)
        exact ⟨v, q, inside,
          (parent_addToMst_of_inside inside).trans hasParent, rfl⟩
    · rintro ⟨v, q, inside, hasParent, rfl⟩
      rw [parent_addToMst_of_inside inside] at hasParent
      rcases inMst_addToMst_iff.mp inside with rfl | wasInside
      · rw [isParent] at hasParent
        obtain rfl := Option.some.inj hasParent
        exact .inl rfl
      · exact .inr (growth.mem_grown.mpr ⟨v, q, wasInside, hasParent, rfl⟩)
  · intro v q hasParent
    rcases cell_addToMst mode mat state u v with
      ⟨_, _, isU, isCost⟩ | ⟨sameParent, sameKey⟩
    · rw [isU] at hasParent
      obtain rfl := Option.some.inj hasParent
      exact isCost
    · rw [sameParent] at hasParent
      rw [sameKey]
      exact growth.keyOfParent hasParent
  · intro v orphan notRoot
    rcases cell_addToMst mode mat state u v with
      ⟨_, _, isU, _⟩ | ⟨sameParent, sameKey⟩
    · rw [isU] at orphan
      simp at orphan
    · rw [sameParent] at orphan
      rw [sameKey]
      exact growth.keyOfOrphan orphan notRoot
  · intro x v xInside vOutside vInBounds isLinked
    have wasOutside : state.inMst v = false := by
      by_contra inside
      rw [inMst_addToMst_iff.mpr (.inr (by simpa using inside))] at vOutside
      exact Bool.false_ne_true vOutside.symm
    rcases inMst_addToMst_iff.mp xInside with rfl | wasInside
    · exact key_addToMst_le_linkCost vInBounds isLinked vOutside
    · exact key_addToMst_le.trans
        (growth.offered wasInside wasOutside vInBounds isLinked)
  · intro v inside
    rcases inMst_addToMst_iff.mp inside with rfl | wasInside
    · have isEdge : (graphOf (insert s(p, v) grown)).Adj p v :=
        graphOf_adj.mpr ⟨Finset.mem_insert_self _ _, link.ne⟩
      exact ((growth.connected parentInside).mono grownGraph).trans
        isEdge.reachable
    · exact (growth.connected wasInside).mono grownGraph

end PrimGrowth

/-- The first selection is position 0. -/
theorem selectMin_primStart
    {num : Nat}
    (positive : 0 < num) :
    selectMin num primStart = some 0 := by
  cases chosen : selectMin num primStart with
  | none =>
      have unreached := unreached_of_selectMin_eq_none chosen positive rfl
      simp [primStart, unreachedKey] at unreached
  | some u =>
      obtain ⟨_, _, reached, _⟩ := selectMin_eq_some chosen
      by_cases isRoot : u = 0
      · rw [isRoot]
      · simp [primStart, write_other _ isRoot] at reached

/-- After the first selection nothing has grown yet. -/
theorem primGrowth_root
    (mode : LinkQualityMode)
    {mat : TdmaMatrix}
    (positive : 0 < mat.numberOfActiveNodes) :
    PrimGrowth mode mat ∅ (addToMst mode mat primStart 0) := by
  have isRoot :
      ∀ {v}, (addToMst mode mat primStart 0).inMst v = true → v = 0 := by
    intro v inside
    rcases inMst_addToMst_iff.mp inside with rfl | wasInside
    · rfl
    · exact (Bool.false_ne_true wasInside).elim
  have rootSelected : (addToMst mode mat primStart 0).inMst 0 = true :=
    inMst_addToMst_iff.mpr (.inl rfl)
  have rootOrphan : (addToMst mode mat primStart 0).parent 0 = none :=
    parent_addToMst_of_inside rootSelected
  refine ⟨?_, rootSelected, rootOrphan, ?_, ?_, ?_, ?_, ?_, ?_⟩
  · exact ⟨_, _,
      (PrimInvariant.start mat).step (selectMin_primStart positive)⟩
  · intro e
    constructor
    · intro isGrown
      exact (Finset.notMem_empty e isGrown).elim
    · rintro ⟨v, p, inside, hasParent, _⟩
      rw [isRoot inside, rootOrphan] at hasParent
      simp at hasParent
  · intro v p hasParent
    rcases cell_addToMst mode mat primStart 0 v with
      ⟨_, _, isZero, isCost⟩ | ⟨sameParent, _⟩
    · rw [isZero] at hasParent
      obtain rfl := Option.some.inj hasParent
      exact isCost
    · rw [sameParent] at hasParent
      simp [primStart] at hasParent
  · intro v orphan notRoot
    rcases cell_addToMst mode mat primStart 0 v with
      ⟨_, _, isZero, _⟩ | ⟨_, sameKey⟩
    · rw [isZero] at orphan
      simp at orphan
    · rw [sameKey]
      exact write_other (fun _ => unreachedKey) notRoot 0
  · intro x v inside outside vInBounds isLinked
    rw [isRoot inside] at isLinked ⊢
    exact key_addToMst_le_linkCost vInBounds isLinked outside
  · intro v inside
    rw [isRoot inside]
  · intro _
    exact extendable_empty _ _

/-!
## The end of the loop
-/

/-- The active positions that have not been selected. -/
def positionsOutside (num : Nat) (state : PrimState) : Finset Nat :=
  (Finset.range num).filter fun v => state.inMst v = false

/-- A selection leaves one position fewer outside. -/
theorem card_positionsOutside_addToMst
    (mode : LinkQualityMode)
    {mat : TdmaMatrix}
    {state : PrimState}
    {u : Nat}
    (chosen : selectMin mat.numberOfActiveNodes state = some u) :
    (positionsOutside mat.numberOfActiveNodes
        (addToMst mode mat state u)).card <
      (positionsOutside mat.numberOfActiveNodes state).card := by
  obtain ⟨uInBounds, uOutside, _⟩ := selectMin_eq_some chosen
  refine Finset.card_lt_card ((Finset.ssubset_iff_of_subset ?_).mpr
    ⟨u, ?_, ?_⟩)
  · intro v listed
    obtain ⟨inRange, outside⟩ := Finset.mem_filter.mp listed
    refine Finset.mem_filter.mpr ⟨inRange, ?_⟩
    by_contra inside
    rw [inMst_addToMst_iff.mpr (.inr (by simpa using inside))] at outside
    exact Bool.false_ne_true outside.symm
  · exact Finset.mem_filter.mpr ⟨Finset.mem_range.mpr uInBounds, uOutside⟩
  · intro listed
    have outside := (Finset.mem_filter.mp listed).2
    rw [inMst_addToMst_iff.mpr (.inl rfl)] at outside
    exact Bool.false_ne_true outside.symm

/-- With a pass for every position outside, the loop ends with none to select. -/
theorem PrimGrowth.primLoop
    {mode : LinkQualityMode}
    {mat : TdmaMatrix}
    {count : Nat} :
    ∀ {grown : Finset (Sym2 Nat)} {state : PrimState},
      PrimGrowth mode mat grown state →
      (positionsOutside mat.numberOfActiveNodes state).card ≤ count →
      ∃ final,
        PrimGrowth mode mat final (primLoop mode mat count state) ∧
          selectMin mat.numberOfActiveNodes (primLoop mode mat count state) =
            none := by
  induction count with
  | zero =>
      intro grown state growth enough
      refine ⟨grown, growth, ?_⟩
      cases chosen : selectMin mat.numberOfActiveNodes state with
      | none =>
          exact chosen
      | some u =>
          have fewer := card_positionsOutside_addToMst mode chosen
          omega
  | succ count inductionHypothesis =>
      intro grown state growth enough
      rw [RoutingMesh.primLoop]
      split
      · rename_i exhausted
        exact ⟨grown, growth, exhausted⟩
      · rename_i u chosen
        obtain ⟨p, grows⟩ := growth.step chosen
        have fewer := card_positionsOutside_addToMst mode chosen
        exact inductionHypothesis grows (by omega)

/-- The arrays that the planting loop reads. -/
theorem primResult_growth
    (mode : LinkQualityMode)
    {mat : TdmaMatrix}
    (positive : 0 < mat.numberOfActiveNodes) :
    ∃ grown,
      PrimGrowth mode mat grown (primResult mode mat) ∧
        selectMin mat.numberOfActiveNodes (primResult mode mat) = none := by
  have first := selectMin_primStart positive
  have fewer := card_positionsOutside_addToMst mode first
  have atStart :
      (positionsOutside mat.numberOfActiveNodes primStart).card ≤
        mat.numberOfActiveNodes :=
    (Finset.card_filter_le _ _).trans (Finset.card_range _).le
  obtain ⟨count, isCount⟩ := Nat.exists_eq_succ_of_ne_zero positive.ne'
  have unfolded :
      ∀ {passes}, passes = count + 1 →
        primLoop mode mat passes primStart =
          primLoop mode mat count (addToMst mode mat primStart 0) := by
    rintro _ rfl
    rw [primLoop, first]
  rw [primResult, unfolded isCount]
  exact (primGrowth_root mode positive).primLoop (by omega)

/-- Costs stay below the key of an unreached position. -/
theorem linkCost_lt_unreachedKey
    (mode : LinkQualityMode)
    (mat : TdmaMatrix)
    (u v : Nat) :
    linkCost mode mat u v < unreachedKey := by
  unfold linkCost unreachedKey
  omega

namespace PrimGrowth

variable {mode : LinkQualityMode} {mat : TdmaMatrix}
variable {grown : Finset (Sym2 Nat)} {state : PrimState}

/-- When nothing is left to select, no link leaves the tree. -/
theorem closed
    (growth : PrimGrowth mode mat grown state)
    (exhausted : selectMin mat.numberOfActiveNodes state = none)
    {x v : Nat}
    (inside : state.inMst x = true)
    (link : (linkGraph mat).Adj x v) :
    state.inMst v = true := by
  obtain ⟨_, _, inBounds, isLinked⟩ := linkGraph_adj.mp link
  by_contra notInside
  have outside : state.inMst v = false := by
    simpa using notInside
  have unreached := unreached_of_selectMin_eq_none exhausted inBounds outside
  have offer := growth.offered inside outside inBounds isLinked
  have small := linkCost_lt_unreachedKey mode mat x v
  omega

/-- The selected positions are those that the links connect to position 0. -/
theorem inMst_iff_reachable
    (growth : PrimGrowth mode mat grown state)
    (exhausted : selectMin mat.numberOfActiveNodes state = none)
    {v : Nat} :
    state.inMst v = true ↔ (linkGraph mat).Reachable 0 v := by
  constructor
  · intro inside
    exact (growth.connected inside).mono growth.graphOf_le
  · rintro ⟨walk⟩
    have stays :
        ∀ {a b : Nat}, (linkGraph mat).Walk a b →
          state.inMst a = true → state.inMst b = true := by
      intro a b walk
      induction walk with
      | nil =>
          exact id
      | cons link _ inductionHypothesis =>
          intro inside
          exact inductionHypothesis (growth.closed exhausted inside link)
    exact stays walk growth.rootSelected

/-- The grown edges lead from parents to children, so they form no cycle. -/
theorem acyclic
    (growth : PrimGrowth mode mat grown state) :
    (graphOf grown).IsAcyclic := by
  obtain ⟨selected, rank, invariant⟩ := growth.ordered
  have descends :
      ∀ {v p}, (if state.inMst v = true then state.parent v else none) =
          some p →
        rank p < rank v := by
    intro v p isParent
    split at isParent
    · rename_i inside
      exact invariant.parentEarlier isParent inside
    · simp at isParent
  refine (Forest.parentGraph_isAcyclic descends).anti ?_
  intro a b adjacent
  obtain ⟨isGrown, different⟩ := graphOf_adj.mp adjacent
  obtain ⟨v, p, inside, isParent, same⟩ := growth.mem_grown.mp isGrown
  refine Forest.parentGraph_adj.mpr ⟨different, ?_⟩
  rcases Sym2.eq_iff.mp same with ⟨rfl, rfl⟩ | ⟨rfl, rfl⟩
  · exact .inr (by rw [if_pos inside, isParent])
  · exact .inl (by rw [if_pos inside, isParent])

/-- At the end the grown edges are a spanning tree of the component. -/
theorem spans
    (growth : PrimGrowth mode mat grown state)
    (exhausted : selectMin mat.numberOfActiveNodes state = none) :
    Spans (linkGraph mat) 0 grown where
  inGraph := fun isGrown => (growth.grownEdge isGrown).2
  acyclic := growth.acyclic
  connects := fun reached =>
    growth.connected ((growth.inMst_iff_reachable exhausted).mpr reached)
  inside := fun isGrown =>
    (growth.inMst_iff_reachable exhausted).mp (growth.grownEdge isGrown).1

end PrimGrowth

/-- A graph without two active positions has no links. -/
theorem linkGraph_eq_bot
    {mat : TdmaMatrix}
    (small : mat.numberOfActiveNodes ≤ 1) :
    linkGraph mat = ⊥ := by
  ext a b
  rw [linkGraph_adj, SimpleGraph.bot_adj, iff_false]
  rintro ⟨different, aInBounds, bInBounds, _⟩
  omega

/-- The planted edges are a lightest spanning tree of the component. -/
theorem exists_planted_spanningTree
    (mode : LinkQualityMode)
    (mat : TdmaMatrix) :
    ∃ planted,
      (∀ a b, s(a, b) ∈ planted ↔ primAlgorithmWeighted mode mat a b = 1) ∧
        Spans (linkGraph mat) 0 planted ∧
        (LinkCostsAgree mode mat →
          Extendable (linkGraph mat) 0 (linkWeight mode mat) planted) := by
  by_cases small : mat.numberOfActiveNodes ≤ 1
  · have noLinks : graphOf ∅ = linkGraph mat := by
      rw [linkGraph_eq_bot small]
      simp [graphOf]
    refine ⟨∅, ?_, ⟨?_, ?_, ?_, ?_⟩, fun _ => extendable_empty _ _⟩
    · intro a b
      simp [primAlgorithmWeighted, small]
    · intro a b isEdge
      exact (Finset.notMem_empty _ isEdge).elim
    · simp [graphOf]
    · intro v reached
      rw [noLinks]
      exact reached
    · intro a b isEdge
      exact (Finset.notMem_empty _ isEdge).elim
  · have positive : 0 < mat.numberOfActiveNodes := by
      omega
    obtain ⟨grown, growth, exhausted⟩ := primResult_growth mode positive
    have isPlanted :
        ∀ {v p}, PlantedEdge mode mat v p → s(p, v) ∈ grown := by
      rintro v p ⟨_, isParent⟩
      obtain ⟨inside, link⟩ := growth.parentEdge isParent
      exact growth.mem_grown.mpr
        ⟨v, p, growth.closed exhausted inside link, isParent, rfl⟩
    refine ⟨grown, ?_, growth.spans exhausted, growth.extendable⟩
    intro a b
    rw [primAlgorithmWeighted_eq_one]
    constructor
    · intro isGrown
      obtain ⟨v, p, inside, isParent, same⟩ := growth.mem_grown.mp isGrown
      have notRoot : v ≠ 0 := by
        rintro rfl
        rw [growth.rootOrphan] at isParent
        simp at isParent
      have planted : PlantedEdge mode mat v p :=
        ⟨⟨Nat.pos_of_ne_zero notRoot, growth.inBounds inside⟩, isParent⟩
      rcases Sym2.eq_iff.mp same with ⟨rfl, rfl⟩ | ⟨rfl, rfl⟩
      · exact .inr planted
      · exact .inl planted
    · rintro (planted | planted)
      · rw [Sym2.eq_swap]
        exact isPlanted planted
      · exact isPlanted planted

/-- A planted spanning tree has the edges of the table. -/
theorem edgeSetOf_primAlgorithmWeighted
    {mode : LinkQualityMode}
    {mat : TdmaMatrix}
    {planted : Finset (Sym2 Nat)}
    (cells :
      ∀ a b, s(a, b) ∈ planted ↔ primAlgorithmWeighted mode mat a b = 1) :
    edgeSetOf mat.numberOfActiveNodes (primAlgorithmWeighted mode mat) =
      planted := by
  ext e
  induction e with
  | h a b =>
      rw [mem_edgeSetOf (isForest_primAlgorithmWeighted mode mat), cells]

/-- The table spans the component of position 0. -/
theorem spansComponent_primAlgorithmWeighted
    (mode : LinkQualityMode)
    (mat : TdmaMatrix) :
    SpansComponent mat (primAlgorithmWeighted mode mat) := by
  obtain ⟨planted, cells, spans, _⟩ :=
    exists_planted_spanningTree mode mat
  have forest := isForest_primAlgorithmWeighted mode mat
  have sameGraph :
      treeGraph (primAlgorithmWeighted mode mat) = graphOf planted := by
    rw [← graphOf_edgeSetOf forest, edgeSetOf_primAlgorithmWeighted cells]
  refine ⟨forest, ?_, ?_, ?_⟩
  · intro a b isEdge
    exact (linked_of_tree isEdge).2.2
  · intro v
    rw [sameGraph]
    constructor
    · intro reached
      refine reached.mono ?_
      intro a b adjacent
      exact spans.inGraph (graphOf_adj.mp adjacent).1
    · exact spans.connects
  · intro a b isEdge
    exact spans.inside ((cells a b).mpr isEdge)

/--
`primAlgorithm_weighted` leaves a spanning tree of the component of position
0 that uses only links, and no spanning tree of it costs less when both ends
of every link compute the same cost.
-/
theorem primAlgorithmWeighted_correct
    (mode : LinkQualityMode)
    (mat : TdmaMatrix) :
    SpansComponent mat (primAlgorithmWeighted mode mat) ∧
      (LinkCostsAgree mode mat →
        ∀ tree, SpansComponent mat tree →
          treeCost mode mat (primAlgorithmWeighted mode mat) ≤
            treeCost mode mat tree) := by
  have component := spansComponent_primAlgorithmWeighted mode mat
  refine ⟨component, ?_⟩
  intro agree tree another
  obtain ⟨planted, cells, spans, extendable⟩ :=
    exists_planted_spanningTree mode mat
  rw [treeCost_eq agree component, treeCost_eq agree another,
    edgeSetOf_primAlgorithmWeighted cells]
  exact (extendable agree).sum_le spans another.spans

/-- Equal qualities in both directions make the costs agree. -/
theorem linkCostsAgree_of_symmetric
    (mode : LinkQualityMode)
    {mat : TdmaMatrix}
    (symmetric : ∀ u v, mat.linkQuality u v = mat.linkQuality v u) :
    LinkCostsAgree mode mat := by
  intro u v _ _ _
  simp only [linkCost, effectiveQuality, symmetric v u,
    Bool.and_comm (mat.matrix v u != 0)]

/-- Three nodes that hear each other, with a quality for each link. -/
def triangle (quality : Nat → UInt8) : TdmaMatrix :=
  { TdmaMatrix.zeroed 1 [1, 2, 3] with
    matrix := fun i j => if i = j then 0 else 1
    linkQuality := fun i j => quality (i + j) }

/-- The tree of one choice of qualities costs no more than that of another. -/
theorem primAlgorithmWeighted_correct_triangle :
    let best := triangle fun ends => UInt8.ofNat (100 - 10 * ends)
    let other := triangle fun ends => UInt8.ofNat (50 + 10 * ends)
    treeCost .test best (primAlgorithmWeighted .test best) ≤
      treeCost .test best (primAlgorithmWeighted .test other) := by
  intro best other
  have sameLinks :=
    (primAlgorithmWeighted_correct .test other).1
  refine (primAlgorithmWeighted_correct .test best).2 ?_ _
    ⟨sameLinks.forest, sameLinks.linksOnly, sameLinks.connects,
      sameLinks.inside⟩
  exact linkCostsAgree_of_symmetric .test
    (fun u v => by simp [best, triangle, Nat.add_comm])

end RoutingMesh
