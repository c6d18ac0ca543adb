import Mathlib.Algebra.BigOperators.Group.Finset.Basic
import Mathlib.Algebra.Order.Monoid.Defs
import Mathlib.Combinatorics.SimpleGraph.Acyclic
import RoutingMesh.Forest

/-!
# Minimum spanning trees of one component

A spanning tree is a finite set of edges that connects everything its root
reaches, without a cycle.  Exchanging an edge that leaves a set of vertices
for a lightest one keeps a spanning tree and does not raise its weight.  So a
tree that grows by lightest leaving edges is a lightest spanning tree,
whatever the signs of the weights.
-/

namespace SpanningTree

variable {V : Type*}

/-- The graph of a finite set of edges. -/
def graphOf (edges : Finset (Sym2 V)) : SimpleGraph V :=
  SimpleGraph.fromEdgeSet edges

theorem graphOf_adj
    {edges : Finset (Sym2 V)}
    {a b : V} :
    (graphOf edges).Adj a b ↔ s(a, b) ∈ edges ∧ a ≠ b :=
  SimpleGraph.fromEdgeSet_adj _

theorem graphOf_mono
    {small large : Finset (Sym2 V)}
    (contained : small ⊆ large) :
    graphOf small ≤ graphOf large :=
  SimpleGraph.fromEdgeSet_mono (by exact_mod_cast contained)

theorem graphOf_insert
    [DecidableEq V]
    (edges : Finset (Sym2 V))
    (u v : V) :
    graphOf (insert s(u, v) edges) =
      graphOf edges ⊔ SimpleGraph.edge u v := by
  unfold graphOf SimpleGraph.edge
  rw [← SimpleGraph.fromEdgeSet_union, Finset.coe_insert, Set.insert_eq,
    Set.union_comm]

/-- The edges form a spanning tree of what `root` reaches in `graph`. -/
structure Spans
    (graph : SimpleGraph V)
    (root : V)
    (edges : Finset (Sym2 V)) : Prop where
  inGraph : ∀ {a b}, s(a, b) ∈ edges → graph.Adj a b
  acyclic : (graphOf edges).IsAcyclic
  connects :
    ∀ {v}, graph.Reachable root v → (graphOf edges).Reachable root v
  inside : ∀ {a b}, s(a, b) ∈ edges → graph.Reachable root a

/-!
## The exchange
-/

/-- Without an edge of the only path between them two vertices are apart. -/
theorem not_reachable_of_removed
    {forest smaller : SimpleGraph V}
    (acyclic : forest.IsAcyclic)
    (contained : smaller ≤ forest)
    {u v : V}
    {path : forest.Walk u v}
    (isPath : path.IsPath)
    {e : Sym2 V}
    (onPath : e ∈ path.edges)
    (removed : e ∉ smaller.edgeSet) :
    ¬ smaller.Reachable u v := by
  intro reachable
  obtain ⟨detour, detourIsPath⟩ := reachable.exists_isPath
  have samePath : path = detour.mapLe contained :=
    Forest.path_unique acyclic isPath (detourIsPath.mapLe contained)
  rw [samePath, SimpleGraph.Walk.edges_mapLe_eq_edges] at onPath
  exact removed (detour.edges_subset_edgeSet onPath)

/--
Replacing an edge keeps what is joined, when the ends of the edge stay joined.
-/
theorem reachable_of_replaced
    [DecidableEq V]
    {edges : Finset (Sym2 V)}
    {edge : Sym2 V}
    {x y : V}
    (rejoined :
      (graphOf (insert edge (edges.erase s(x, y)))).Reachable x y)
    {a b : V}
    (joined : (graphOf edges).Reachable a b) :
    (graphOf (insert edge (edges.erase s(x, y)))).Reachable a b := by
  obtain ⟨walk⟩ := joined
  induction walk with
  | nil =>
      exact .rfl
  | @cons a c _ step _ inductionHypothesis =>
      refine SimpleGraph.Reachable.trans ?_ inductionHypothesis
      obtain ⟨isEdge, notLoop⟩ := graphOf_adj.mp step
      by_cases isRemoved : s(a, c) = s(x, y)
      · rcases Sym2.eq_iff.mp isRemoved with ⟨rfl, rfl⟩ | ⟨rfl, rfl⟩
        · exact rejoined
        · exact rejoined.symm
      · exact (graphOf_adj.mpr
          ⟨Finset.mem_insert_of_mem
            (Finset.mem_erase.mpr ⟨isRemoved, isEdge⟩), notLoop⟩).reachable

/--
A leaving edge that the tree lacks can take the place of some edge of the
tree that leaves the same set.
-/
theorem Spans.exchange
    [DecidableEq V]
    {graph : SimpleGraph V}
    {root : V}
    {edges : Finset (Sym2 V)}
    (spans : Spans graph root edges)
    {region : Set V}
    {u v : V}
    (uInside : u ∈ region)
    (vOutside : v ∉ region)
    (link : graph.Adj u v)
    (reached : graph.Reachable root u)
    (absent : s(u, v) ∉ edges) :
    ∃ x y,
      s(x, y) ∈ edges ∧ x ∈ region ∧ y ∉ region ∧
        Spans graph root (insert s(u, v) (edges.erase s(x, y))) := by
  have joined : (graphOf edges).Reachable u v :=
    (spans.connects reached).symm.trans
      (spans.connects (reached.trans link.reachable))
  obtain ⟨path, isPath⟩ := joined.exists_isPath
  obtain ⟨⟨⟨x, y⟩, adjacent⟩, onPath, xInside, yOutside⟩ :=
    path.exists_boundary_dart region uInside vOutside
  have crossing : s(x, y) ∈ edges := (graphOf_adj.mp adjacent).1
  have different : x ≠ y := adjacent.ne
  refine ⟨x, y, crossing, xInside, yOutside, ?_⟩
  have contained :
      graphOf (edges.erase s(x, y)) ≤ graphOf edges :=
    graphOf_mono (Finset.erase_subset _ _)
  have apart : ¬ (graphOf (edges.erase s(x, y))).Reachable u v := by
    refine not_reachable_of_removed spans.acyclic contained isPath
      (List.mem_map_of_mem onPath) ?_
    intro kept
    have stays : s(x, y) ∈ edges.erase s(x, y) := (graphOf_adj.mp kept).1
    exact Finset.notMem_erase _ _ stays
  have acyclic :
      (graphOf (insert s(u, v) (edges.erase s(x, y)))).IsAcyclic := by
    rw [graphOf_insert]
    exact (spans.acyclic.anti contained).sup_edge_of_not_reachable apart
  -- Were the ends of the removed edge apart, the old tree and the new edge
  -- would form no cycle, but the old tree joins the ends of the new edge.
  have rejoined :
      (graphOf (insert s(u, v) (edges.erase s(x, y)))).Reachable x y := by
    by_contra separate
    have noCycle := acyclic.sup_edge_of_not_reachable separate
    have both :
        graphOf edges ⊔ SimpleGraph.edge u v ≤
          graphOf (insert s(u, v) (edges.erase s(x, y))) ⊔
            SimpleGraph.edge x y := by
      rw [← graphOf_insert, ← graphOf_insert]
      refine graphOf_mono ?_
      rw [Finset.insert_comm, Finset.insert_erase crossing]
    obtain ⟨_, closes⟩ :=
      SimpleGraph.isAcyclic_sup_fromEdgeSet_iff.mp (noCycle.anti both)
    rcases closes joined with same | adjacentAlready
    · exact link.ne same
    · exact absent (graphOf_adj.mp adjacentAlready).1
  refine ⟨?_, acyclic, fun reaches =>
    reachable_of_replaced rejoined (spans.connects reaches), ?_⟩
  · intro a b isEdge
    rcases Finset.mem_insert.mp isEdge with isNew | kept
    · rcases Sym2.eq_iff.mp isNew with ⟨rfl, rfl⟩ | ⟨rfl, rfl⟩
      · exact link
      · exact link.symm
    · exact spans.inGraph (Finset.mem_of_mem_erase kept)
  · intro a b isEdge
    rcases Finset.mem_insert.mp isEdge with isNew | kept
    · rcases Sym2.eq_iff.mp isNew with ⟨rfl, rfl⟩ | ⟨rfl, rfl⟩
      · exact reached
      · exact reached.trans link.reachable
    · exact spans.inside (Finset.mem_of_mem_erase kept)

/-- A spanning tree has no smaller spanning tree inside. -/
theorem Spans.eq_of_subset
    {graph : SimpleGraph V}
    {root : V}
    {small large : Finset (Sym2 V)}
    (spans : Spans graph root small)
    (spansToo : Spans graph root large)
    (contained : small ⊆ large) :
    small = large := by
  classical
  refine Finset.Subset.antisymm contained ?_
  intro e isEdge
  by_contra absent
  induction e with
  | h a b =>
      have adjacent := spansToo.inGraph isEdge
      have fromRoot := spansToo.inside isEdge
      have joined : (graphOf small).Reachable a b :=
        (spans.connects fromRoot).symm.trans
          (spans.connects (fromRoot.trans adjacent.reachable))
      have larger :
          graphOf small ⊔ SimpleGraph.edge a b ≤ graphOf large := by
        rw [← graphOf_insert]
        exact graphOf_mono (Finset.insert_subset isEdge contained)
      obtain ⟨_, closes⟩ :=
        SimpleGraph.isAcyclic_sup_fromEdgeSet_iff.mp
          (spansToo.acyclic.anti larger)
      rcases closes joined with same | adjacentAlready
      · exact adjacent.ne same
      · exact absent (graphOf_adj.mp adjacentAlready).1

/-!
## Growing a lightest tree
-/

section Weight

variable {R : Type*} [AddCommMonoid R] [Preorder R] [IsOrderedAddMonoid R]
variable {weight : Sym2 V → R}

/-- Every spanning tree can be changed to one that holds `grown` and weighs no more. -/
def Extendable
    (graph : SimpleGraph V)
    (root : V)
    (weight : Sym2 V → R)
    (grown : Finset (Sym2 V)) : Prop :=
  ∀ edges, Spans graph root edges →
    ∃ changed,
      Spans graph root changed ∧ grown ⊆ changed ∧
        ∑ e ∈ changed, weight e ≤ ∑ e ∈ edges, weight e

omit [IsOrderedAddMonoid R] in
theorem extendable_empty
    (graph : SimpleGraph V)
    (root : V) :
    Extendable graph root weight ∅ :=
  fun edges spans => ⟨edges, spans, Finset.empty_subset _, le_rfl⟩

/-- The cut property: a lightest edge that leaves the grown part may be added. -/
theorem Extendable.grow
    [DecidableEq V]
    {graph : SimpleGraph V}
    {root : V}
    {grown : Finset (Sym2 V)}
    (extendable : Extendable graph root weight grown)
    {region : Set V}
    (within : ∀ {a b}, s(a, b) ∈ grown → a ∈ region)
    {u v : V}
    (uInside : u ∈ region)
    (vOutside : v ∉ region)
    (link : graph.Adj u v)
    (reached : graph.Reachable root u)
    (lightest :
      ∀ {x y}, x ∈ region → y ∉ region → graph.Adj x y →
        weight s(u, v) ≤ weight s(x, y)) :
    Extendable graph root weight (insert s(u, v) grown) := by
  intro edges spans
  obtain ⟨changed, changedSpans, holds, lighter⟩ := extendable _ spans
  by_cases present : s(u, v) ∈ changed
  · exact ⟨changed, changedSpans, Finset.insert_subset present holds, lighter⟩
  · obtain ⟨x, y, crossing, xInside, yOutside, exchanged⟩ :=
      changedSpans.exchange uInside vOutside link reached present
    refine ⟨_, exchanged, ?_, ?_⟩
    · refine Finset.insert_subset_insert _ ?_
      intro e isGrown
      refine Finset.mem_erase.mpr ⟨?_, holds isGrown⟩
      rintro rfl
      have swapped : s(y, x) ∈ grown := by
        rw [Sym2.eq_swap]
        exact isGrown
      exact yOutside (within swapped)
    · have notKept : s(u, v) ∉ changed.erase s(x, y) :=
        fun kept => present (Finset.mem_of_mem_erase kept)
      calc
        ∑ e ∈ insert s(u, v) (changed.erase s(x, y)), weight e
            = weight s(u, v) + ∑ e ∈ changed.erase s(x, y), weight e :=
          Finset.sum_insert notKept
        _ ≤ weight s(x, y) + ∑ e ∈ changed.erase s(x, y), weight e :=
          add_le_add_left
            (lightest xInside yOutside (changedSpans.inGraph crossing)) _
        _ = ∑ e ∈ changed, weight e := Finset.add_sum_erase _ _ crossing
        _ ≤ ∑ e ∈ edges, weight e := lighter

omit [IsOrderedAddMonoid R] in
/-- A spanning tree that every other one can be changed to is a lightest one. -/
theorem Extendable.sum_le
    {graph : SimpleGraph V}
    {root : V}
    {grown : Finset (Sym2 V)}
    (extendable : Extendable graph root weight grown)
    (spans : Spans graph root grown)
    {edges : Finset (Sym2 V)}
    (spansToo : Spans graph root edges) :
    ∑ e ∈ grown, weight e ≤ ∑ e ∈ edges, weight e := by
  obtain ⟨changed, changedSpans, holds, lighter⟩ := extendable _ spansToo
  rw [spans.eq_of_subset changedSpans holds]
  exact lighter

end Weight

end SpanningTree
