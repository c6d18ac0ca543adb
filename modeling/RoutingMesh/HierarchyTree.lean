import RoutingMesh.LinkWeights
import RoutingMesh.SiblingForest

/-!
# Prim's algorithm on a hierarchy of positions

In a hierarchy every position but the first has at most one superior, and a
link joins a position to its superior or two positions with one superior.
Where the superior offers its link at the base cost, and the link of a sibling
costs no less unless it is the local node that offers it, the planted tree
keeps to the superiors and strays to siblings at the local node only.
-/

namespace RoutingMesh

open CellArray KeyedCells

/-- The superiors of the positions; position 0 has none. -/
structure Hierarchy where
  superior : Nat → Option Nat
  depth : Nat → Nat
  root : superior 0 = none
  descends : ∀ {v y}, superior v = some y → depth y < depth v

namespace Hierarchy

variable (hierarchy : Hierarchy)

/-- The forest of the superiors. -/
def forest : SimpleGraph Nat :=
  Forest.parentGraph hierarchy.superior

theorem isAcyclic_forest : hierarchy.forest.IsAcyclic :=
  Forest.parentGraph_isAcyclic hierarchy.descends

/-- The matrix links two positions below `y`. -/
structure LinkedBelow
    (mat : TdmaMatrix)
    (y u v : Nat) : Prop where
  first : hierarchy.superior u = some y
  second : hierarchy.superior v = some y
  differ : u ≠ v
  firstInBounds : u < mat.numberOfActiveNodes
  secondInBounds : v < mat.numberOfActiveNodes
  link : linked mat u v = true

/-- What the links cost a node at position `me`, whose matrix is `mat`. -/
structure Guides
    (mode : LinkQualityMode)
    (mat : TdmaMatrix)
    (me : Nat)
    (base : Int) : Prop where
  links :
    ∀ {u v}, u < mat.numberOfActiveNodes → v < mat.numberOfActiveNodes →
      u ≠ v → linked mat u v = true →
        hierarchy.superior v = some u ∨ hierarchy.superior u = some v ∨
          ∃ y, hierarchy.LinkedBelow mat y u v
  fromSuperior :
    ∀ {y u v}, hierarchy.LinkedBelow mat y u v →
      linked mat y v = true ∧ linkCost mode mat y v ≤ base
  fromSibling :
    ∀ {y u v}, hierarchy.LinkedBelow mat y u v → u ≠ me →
      base ≤ linkCost mode mat u v

end Hierarchy

/--
The selected positions are closed under superiors, a parent is the superior
or the local node beside a sibling, and a position whose superior is selected
has at most the base cost as its key once a sibling could offer a link.
-/
structure HierarchyInvariant
    (hierarchy : Hierarchy)
    (mat : TdmaMatrix)
    (me : Nat)
    (base : Int)
    (state : PrimState) : Prop where
  closed :
    ∀ {v y}, state.inMst v = true → hierarchy.superior v = some y →
      state.inMst y = true
  reached :
    ∀ {v}, state.inMst v = true ∨ state.key v < unreachedKey →
      v = 0 ∨ ∃ p, state.parent v = some p ∧ state.inMst p = true
  parents :
    ∀ {v p}, state.parent v = some p →
      hierarchy.superior v = some p ∨
        (p = me ∧ ∃ y, hierarchy.superior me = some y ∧
          hierarchy.superior v = some y)
  cheap :
    ∀ {y u v}, hierarchy.LinkedBelow mat y u v → state.inMst v = false →
      state.inMst y = true → state.key v ≤ base

namespace HierarchyInvariant

variable {hierarchy : Hierarchy}
variable {mode : LinkQualityMode}
variable {mat : TdmaMatrix}
variable {me : Nat}
variable {base : Int}
variable {state : PrimState}

theorem start : HierarchyInvariant hierarchy mat me base primStart where
  closed := by simp [primStart]
  reached := by
    intro v reached
    left
    by_contra notFirst
    rcases reached with inside | small
    · exact Bool.false_ne_true inside
    · simp only [primStart, write_other _ notFirst] at small
      exact lt_irrefl _ small
  parents := by simp [primStart]
  cheap := by simp [primStart]

/-- The superior of a position that can be selected is selected. -/
theorem superior_selected
    (invariant : HierarchyInvariant hierarchy mat me base state)
    {v y : Nat}
    (reached : state.inMst v = true ∨ state.key v < unreachedKey)
    (isSuperior : hierarchy.superior v = some y) :
    state.inMst y = true := by
  rcases invariant.reached reached with isFirst | ⟨p, isParent, inside⟩
  · rw [isFirst, hierarchy.root] at isSuperior
    cases isSuperior
  · rcases invariant.parents isParent with
      up | ⟨rfl, z, ownSuperior, sameSuperior⟩
    · rw [isSuperior] at up
      rwa [Option.some.inj up]
    · rw [isSuperior] at sameSuperior
      rw [Option.some.inj sameSuperior]
      exact invariant.closed inside ownSuperior

/-- A cheaper link is offered by a superior, or by the local node to a sibling. -/
theorem offers
    (invariant : HierarchyInvariant hierarchy mat me base state)
    (guides : hierarchy.Guides mode mat me base)
    {u v : Nat}
    (uInBounds : u < mat.numberOfActiveNodes)
    (uReached : state.key u < unreachedKey)
    (vInBounds : v < mat.numberOfActiveNodes)
    (isLinked : linked mat u v = true)
    (differ : u ≠ v)
    (outside : state.inMst v = false)
    (cheaper : linkCost mode mat u v < state.key v) :
    hierarchy.superior v = some u ∨
      (u = me ∧ ∃ y, hierarchy.superior me = some y ∧
        hierarchy.superior v = some y) := by
  rcases guides.links uInBounds vInBounds differ isLinked with
    down | up | ⟨y, siblings⟩
  · exact .inl down
  · -- The superior of a reached position is in the tree already.
    have inside := invariant.superior_selected (.inr uReached) up
    rw [outside] at inside
    exact (Bool.false_ne_true inside).elim
  · by_cases isSelf : u = me
    · subst isSelf
      exact .inr ⟨rfl, y, siblings.first, siblings.second⟩
    · -- The superior has offered the base cost before.
      have superiorInside :=
        invariant.superior_selected (.inr uReached) siblings.first
      have atMost := invariant.cheap siblings outside superiorInside
      have atLeast := guides.fromSibling siblings isSelf
      omega

/-- Selecting a position keeps the invariant. -/
theorem step
    (invariant : HierarchyInvariant hierarchy mat me base state)
    (guides : hierarchy.Guides mode mat me base)
    {u : Nat}
    (chosen : selectMin mat.numberOfActiveNodes state = some u) :
    HierarchyInvariant hierarchy mat me base
      (addToMst mode mat state u) := by
  obtain ⟨uInBounds, uOutside, uReached, _⟩ := selectMin_eq_some chosen
  obtain ⟨sameMst, cells⟩ := addToMst_spec mode mat state u
  have stays :
      ∀ {w}, state.inMst w = true → write state.inMst u true w = true := by
    intro w inside
    by_cases isU : w = u
    · rw [isU, write_same]
    · rw [write_other _ isU]
      exact inside
  have before :
      ∀ {w}, write state.inMst u true w = true → w ≠ u →
        state.inMst w = true := by
    intro w inside differ
    rwa [write_other _ differ] at inside
  refine ⟨?_, ?_, ?_, ?_⟩
  · intro v y inside isSuperior
    rw [sameMst] at inside ⊢
    apply stays
    by_cases isU : v = u
    · subst isU
      exact invariant.superior_selected (.inr uReached) isSuperior
    · exact invariant.closed (before inside isU) isSuperior
  · intro v reached
    rw [sameMst] at reached ⊢
    have atV := cells v
    split at atV
    · refine .inr ⟨u, congrArg Prod.fst atV, ?_⟩
      rw [write_same]
    · rw [show (addToMst mode mat state u).key v = state.key v from
        congrArg Prod.snd atV] at reached
      have reachedBefore :
          state.inMst v = true ∨ state.key v < unreachedKey := by
        by_cases isU : v = u
        · subst isU
          exact .inr uReached
        · exact reached.imp_left fun inside => before inside isU
      refine (invariant.reached reachedBefore).imp_right ?_
      rintro ⟨p, isParent, inside⟩
      exact ⟨p, (congrArg Prod.fst atV).trans isParent, stays inside⟩
  · intro v p isParent
    have atV := cells v
    split at atV
    · rename_i offered
      obtain ⟨vInBounds, isLinked, outside, cheaper⟩ := offered
      have isU : some u = some p := (congrArg Prod.fst atV).symm.trans isParent
      obtain rfl : u = p := Option.some.inj isU
      have differ : u ≠ v := by
        rintro rfl
        rw [write_same] at outside
        exact Bool.false_ne_true outside.symm
      rw [write_other _ differ.symm] at outside
      exact invariant.offers guides uInBounds uReached vInBounds isLinked
        differ outside cheaper
    · exact invariant.parents ((congrArg Prod.fst atV).symm.trans isParent)
  · intro y w v siblings outside inside
    rw [sameMst] at outside inside
    have differ : v ≠ u := by
      rintro rfl
      rw [write_same] at outside
      exact Bool.false_ne_true outside.symm
    have outsideBefore : state.inMst v = false := by
      rwa [write_other _ differ] at outside
    have atV := cells v
    obtain ⟨isLinked, superiorCost⟩ := guides.fromSuperior siblings
    by_cases isU : y = u
    · subst isU
      split at atV
      · rw [show (addToMst mode mat state y).key v = linkCost mode mat y v from
          congrArg Prod.snd atV]
        exact superiorCost
      · rename_i notOffered
        rw [show (addToMst mode mat state y).key v = state.key v from
          congrArg Prod.snd atV]
        by_contra expensive
        exact notOffered
          ⟨siblings.secondInBounds, isLinked, outside, by omega⟩
    · have bound :=
        invariant.cheap siblings outsideBefore (before inside isU)
      split at atV
      · rename_i offered
        rw [show (addToMst mode mat state u).key v = linkCost mode mat u v from
          congrArg Prod.snd atV]
        exact offered.2.2.2.le.trans bound
      · rw [show (addToMst mode mat state u).key v = state.key v from
          congrArg Prod.snd atV]
        exact bound

/-- The invariant holds when the outer loop ends. -/
theorem primLoop
    (guides : hierarchy.Guides mode mat me base)
    {count : Nat} :
    ∀ {state : PrimState},
      HierarchyInvariant hierarchy mat me base state →
      HierarchyInvariant hierarchy mat me base
        (primLoop mode mat count state) := by
  induction count with
  | zero =>
      intro state invariant
      exact invariant
  | succ count inductionHypothesis =>
      intro state invariant
      rw [RoutingMesh.primLoop]
      split
      · exact invariant
      · rename_i u chosen
        exact inductionHypothesis (invariant.step guides chosen)

end HierarchyInvariant

/-- The planted tree strays from the forest of the superiors at `me` only. -/
theorem straysAt_primAlgorithmWeighted
    {hierarchy : Hierarchy}
    {mode : LinkQualityMode}
    {mat : TdmaMatrix}
    {me : Nat}
    {base : Int}
    (guides : hierarchy.Guides mode mat me base) :
    Forest.StraysAt hierarchy.superior me
      (treeGraph (primAlgorithmWeighted mode mat)) := by
  obtain ⟨selected, rank, primInvariant⟩ := primResult_invariant mode mat
  have invariant :
      HierarchyInvariant hierarchy mat me base (primResult mode mat) :=
    HierarchyInvariant.start.primLoop guides
  have adjacent_iff :
      ∀ {a b}, (treeGraph (primAlgorithmWeighted mode mat)).Adj a b ↔
        a ≠ b ∧ (PlantedEdge mode mat a b ∨ PlantedEdge mode mat b a) := by
    intro a b
    unfold treeGraph
    rw [SimpleGraph.fromRel_adj, primAlgorithmWeighted_eq_one,
      primAlgorithmWeighted_eq_one, or_comm (a := PlantedEdge mode mat b a),
      or_self]
  refine ⟨(isForest_primAlgorithmWeighted mode mat).acyclic, ?_, ?_⟩
  · intro a b edge aIsOther bIsOther
    have upwards :
        ∀ {c p}, PlantedEdge mode mat c p → p ≠ me →
          hierarchy.superior c = some p := by
      intro c p planted notSelf
      exact (invariant.parents planted.2).resolve_right
        fun strays => notSelf strays.1
    obtain ⟨differ, planted⟩ := adjacent_iff.mp edge
    exact Forest.parentGraph_adj.mpr
      ⟨differ,
        planted.imp (upwards · bIsOther) (upwards · aIsOther)⟩
  · intro v edge
    obtain ⟨differ, up | down⟩ := adjacent_iff.mp edge
    · left
      have isSuperior :=
        (invariant.parents up.2).resolve_right
          fun strays => differ strays.1.symm
      exact Forest.parentGraph_adj.mpr ⟨differ, .inl isSuperior⟩
    · rcases invariant.parents down.2 with
        isSuperior | ⟨-, y, ownSuperior, sameSuperior⟩
      · exact .inl (Forest.parentGraph_adj.mpr ⟨differ, .inr isSuperior⟩)
      · -- A selected position with a superior has it as its parent.
        right
        have inside := (primInvariant.parentEdge down.2).2.1
        have notFirst : me ≠ 0 := by
          intro isFirst
          rw [isFirst, hierarchy.root] at ownSuperior
          cases ownSuperior
        obtain ⟨p, isParent, -⟩ :=
          (invariant.reached (.inl inside)).resolve_left notFirst
        have notSelf := (primInvariant.parentEdge isParent).2.2.1
        have isSuperior :=
          (invariant.parents isParent).resolve_right
            fun strays => notSelf strays.1
        rw [ownSuperior] at isSuperior
        obtain rfl : y = p := Option.some.inj isSuperior
        refine ⟨y, ownSuperior, sameSuperior, adjacent_iff.mpr
          ⟨notSelf.symm, .inl ⟨⟨Nat.pos_of_ne_zero notFirst, ?_⟩,
            isParent⟩⟩⟩
        exact primInvariant.inBounds inside

end RoutingMesh
