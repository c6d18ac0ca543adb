import Mathlib.Combinatorics.SimpleGraph.Acyclic
import Mathlib.Combinatorics.SimpleGraph.Metric

/-!
# Forests and forwarding along them

A parent table whose parents come earlier than their children draws a forest.
On any forest a hop that reaches the destination without coming back is a
step along the only path to it, so repeated hops approach the destination and
never revisit a vertex.
-/

namespace Forest

variable {V : Type*}

/-!
## The forest of a parent table
-/

/-- The graph that joins every vertex to its parent. -/
def parentGraph (parent : V → Option V) : SimpleGraph V :=
  SimpleGraph.fromRel (fun child p => parent child = some p)

theorem parentGraph_adj
    {parent : V → Option V}
    {a b : V} :
    (parentGraph parent).Adj a b ↔
      a ≠ b ∧ (parent a = some b ∨ parent b = some a) :=
  SimpleGraph.fromRel_adj _ a b

/-- When parents have smaller ranks than their children there is no cycle. -/
theorem parentGraph_isAcyclic
    {parent : V → Option V}
    {rank : V → Nat}
    (descends : ∀ {v p}, parent v = some p → rank p < rank v) :
    (parentGraph parent).IsAcyclic := by
  classical
  intro start cycle isCycle
  -- Both neighbours on the cycle of a vertex of largest rank are its parent.
  obtain ⟨top, topMem, highest⟩ :=
    cycle.support.toFinset.exists_max_image rank
      ⟨start, by simp⟩
  rw [List.mem_toFinset] at topMem
  have rotated : (cycle.rotate top topMem).IsCycle := by
    simpa using isCycle
  have below :
      ∀ v ∈ (cycle.rotate top topMem).support, rank v ≤ rank top := by
    intro v onCycle
    apply highest
    rw [List.mem_toFinset]
    exact (SimpleGraph.Walk.mem_support_rotate_iff _ _ _).mp onCycle
  have isParent :
      ∀ v, (parentGraph parent).Adj top v →
        v ∈ (cycle.rotate top topMem).support →
        parent top = some v := by
    intro v adjacent onCycle
    rcases (parentGraph_adj.mp adjacent).2 with up | down
    · exact up
    · have lower := below v onCycle
      have higher := descends down
      omega
  have notNil : ¬ (cycle.rotate top topMem).Nil := rotated.not_nil
  have next :=
    isParent _ ((cycle.rotate top topMem).adj_snd notNil)
      (SimpleGraph.Walk.getVert_mem_support _ _)
  have previous :=
    isParent _ ((cycle.rotate top topMem).adj_penultimate notNil).symm
      (SimpleGraph.Walk.getVert_mem_support _ _)
  rw [next] at previous
  exact rotated.snd_ne_penultimate (Option.some.inj previous)

/-!
## Hops along a forest
-/

/-- Forwarding from `x` through `v`: the rest of the way avoids `x`. -/
def ReachesAvoiding
    (graph : SimpleGraph V)
    (x v d : V) : Prop :=
  ∃ way : graph.Walk v d, x ∉ way.support

/-- Two paths of a forest with the same ends are one. -/
theorem path_unique
    {graph : SimpleGraph V}
    (acyclic : graph.IsAcyclic)
    {a b : V}
    {path other : graph.Walk a b}
    (isPath : path.IsPath)
    (otherIsPath : other.IsPath) :
    path = other := by
  have same : (⟨path, isPath⟩ : graph.Path a b) = ⟨other, otherIsPath⟩ :=
    (acyclic.subsingleton_path a b).elim _ _
  exact congrArg Subtype.val same

/-- A hop that need not come back begins a path. -/
theorem exists_path_cons
    {graph : SimpleGraph V}
    {x v d : V}
    (adjacent : graph.Adj x v)
    (reaches : ReachesAvoiding graph x v d) :
    ∃ rest : graph.Walk v d,
      rest.IsPath ∧ (SimpleGraph.Walk.cons adjacent rest).IsPath := by
  classical
  obtain ⟨way, avoids⟩ := reaches
  have shortAvoids : x ∉ (way.toPath : graph.Walk v d).support :=
    fun onPath =>
      avoids (SimpleGraph.Walk.support_toPath_subset_support way onPath)
  exact ⟨way.toPath, way.toPath.2, way.toPath.2.cons shortAvoids⟩

/-- A hop that need not come back is the first step of the only path. -/
theorem dist_of_hop
    {graph : SimpleGraph V}
    (acyclic : graph.IsAcyclic)
    {x v d : V}
    (adjacent : graph.Adj x v)
    (reaches : ReachesAvoiding graph x v d) :
    graph.dist v d + 1 = graph.dist x d := by
  obtain ⟨rest, restIsPath, isPath⟩ := exists_path_cons adjacent reaches
  have lengthIsDist :
      ∀ {a b : V} (path : graph.Walk a b), path.IsPath →
        path.length = graph.dist a b := by
    intro a b path pathIsPath
    obtain ⟨shortest, isShortestPath, shortestLength⟩ :=
      SimpleGraph.Reachable.exists_path_of_dist ⟨path⟩
    rw [path_unique acyclic pathIsPath isShortestPath, shortestLength]
  rw [← lengthIsDist _ isPath, ← lengthIsDist _ restIsPath]
  rfl

end Forest

/-!
## Iterated forwarding
-/

namespace Forwarding

variable {V : Type*}

/-- The vertex reached after a number of hops, while there is a next one. -/
def visited
    (next : V → Option V)
    (start : V) :
    Nat → Option V
  | 0 => some start
  | hops + 1 => (visited next start hops).bind next

/-- Forwarding never visits a vertex twice. -/
def LoopFree
    (next : V → Option V)
    (start : V) : Prop :=
  ∀ {i j v},
    visited next start i = some v →
    visited next start j = some v →
    i = j

/-- Hops between good vertices that lower a measure never come back. -/
theorem loopFree_of_measure
    {next : V → Option V}
    {good : V → Prop}
    {measure : V → Nat}
    (lowers :
      ∀ {x v}, good x → next x = some v → good v ∧ measure v < measure x)
    {start : V}
    (startsGood : good start) :
    LoopFree next start := by
  have allGood :
      ∀ {i v}, visited next start i = some v → good v := by
    intro i
    induction i with
    | zero =>
        intro v atStart
        obtain rfl : start = v := Option.some.inj atStart
        exact startsGood
    | succ i inductionHypothesis =>
        intro v later
        obtain ⟨between, atBetween, hop⟩ := Option.bind_eq_some_iff.mp later
        exact (lowers (inductionHypothesis atBetween) hop).1
  have strictly :
      ∀ {i : Nat} {v : V}, visited next start i = some v →
        ∀ {further : Nat} {w : V},
          visited next start (i + further + 1) = some w →
          measure w < measure v := by
    intro i v atI further
    induction further with
    | zero =>
        intro w later
        rw [Nat.add_zero, visited, atI] at later
        exact (lowers (allGood atI) later).2
    | succ further inductionHypothesis =>
        intro w later
        rw [visited] at later
        obtain ⟨between, atBetween, hop⟩ := Option.bind_eq_some_iff.mp later
        exact (lowers (allGood atBetween) hop).2.trans
          (inductionHypothesis atBetween)
  intro i j v atI atJ
  by_contra different
  rcases Nat.lt_or_gt_of_ne different with before | after
  · obtain ⟨further, rfl⟩ := Nat.exists_eq_add_of_lt before
    exact Nat.lt_irrefl _ (strictly atI atJ)
  · obtain ⟨further, rfl⟩ := Nat.exists_eq_add_of_lt after
    exact Nat.lt_irrefl _ (strictly atJ atI)

/--
Where every good vertex but the last has a hop that comes one closer, a route
leads to the last one, as long as the measure says.
-/
theorem exists_route_of_measure
    {hops : V → V → Prop}
    {good : V → Prop}
    {measure : V → Nat}
    {last : V}
    (closer :
      ∀ {x}, good x → x ≠ last →
        ∃ v, hops x v ∧ good v ∧ measure v + 1 = measure x)
    (atLast : measure last = 0)
    {x : V}
    (isGood : good x) :
    ∃ route,
      route.length = measure x ∧
        (x :: route).IsChain hops ∧
        (x :: route).getLast (List.cons_ne_nil x route) = last := by
  induction distance : measure x generalizing x with
  | zero =>
      have isLast : x = last := by
        by_contra different
        obtain ⟨v, -, -, nearer⟩ := closer isGood different
        omega
      exact ⟨[], rfl, List.isChain_singleton x, isLast⟩
  | succ distance' inductionHypothesis =>
      have different : x ≠ last := by
        rintro rfl
        omega
      obtain ⟨v, isHop, vIsGood, nearer⟩ := closer isGood different
      obtain ⟨route, length, chain, ends⟩ :=
        inductionHypothesis vIsGood (by omega)
      refine ⟨v :: route, by rw [List.length_cons, length],
        List.isChain_cons_cons.mpr ⟨isHop, chain⟩, ?_⟩
      rw [List.getLast_cons_cons]
      exact ends

end Forwarding
