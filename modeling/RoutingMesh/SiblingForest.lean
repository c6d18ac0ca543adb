import RoutingMesh.Forest

/-!
# Trees that stray from a forest at one vertex

Every vertex keeps a tree of its own.  Where the tree of a vertex differs from
one common forest only by taking siblings of the vertex below it, every hop of
that tree comes closer to the destination on the common forest, one edge or
two, and so do the hops of different trees one after the other.
-/

namespace Forest

variable {V : Type*}

/--
The tree of `x`: its edges are those of the forest, but for edges from `x` to
siblings, which it only has beside the edge from `x` to its own parent.
-/
structure StraysAt
    (superior : V → Option V)
    (x : V)
    (tree : SimpleGraph V) : Prop where
  acyclic : tree.IsAcyclic
  elsewhere :
    ∀ {a b}, tree.Adj a b → a ≠ x → b ≠ x → (parentGraph superior).Adj a b
  atSelf :
    ∀ {v}, tree.Adj x v →
      (parentGraph superior).Adj x v ∨
        ∃ y, superior x = some y ∧ superior v = some y ∧ tree.Adj x y

namespace StraysAt

variable {superior : V → Option V} {x : V} {tree : SimpleGraph V}

/-- A way that avoids `x` is a way along the common forest. -/
theorem exists_walk
    (strays : StraysAt superior x tree)
    {v d : V}
    (way : tree.Walk v d)
    (avoids : x ∉ way.support) :
    ∃ common : (parentGraph superior).Walk v d,
      common.support = way.support := by
  induction way with
  | nil =>
      exact ⟨.nil, rfl⟩
  | cons adjacent rest inductionHypothesis =>
      rw [SimpleGraph.Walk.support_cons, List.mem_cons, not_or] at avoids
      obtain ⟨common, sameSupport⟩ := inductionHypothesis avoids.2
      have notNext : x ≠ _ :=
        fun isNext => avoids.2 (isNext ▸ rest.start_mem_support)
      have edge := strays.elsewhere adjacent (Ne.symm avoids.1) notNext.symm
      exact ⟨.cons edge common, by
        rw [SimpleGraph.Walk.support_cons, SimpleGraph.Walk.support_cons,
          sameSupport]⟩

/-- Every hop of the tree comes closer on the common forest. -/
theorem dist_lt_of_hop
    (strays : StraysAt superior x tree)
    (isForest : (parentGraph superior).IsAcyclic)
    {v d : V}
    (adjacent : tree.Adj x v)
    (reaches : ReachesAvoiding tree x v d) :
    (parentGraph superior).dist v d < (parentGraph superior).dist x d := by
  classical
  obtain ⟨way, avoids⟩ := reaches
  obtain ⟨common, sameSupport⟩ := strays.exists_walk way avoids
  have commonAvoids : x ∉ common.support := by
    rwa [sameSupport]
  rcases strays.atSelf adjacent with edge | ⟨y, isParent, sameParent, up⟩
  · have closer := dist_of_hop isForest edge ⟨common, commonAvoids⟩
    omega
  · by_cases isSame : v = y
    · subst isSame
      have edge : (parentGraph superior).Adj x v :=
        parentGraph_adj.mpr ⟨adjacent.ne, .inl isParent⟩
      have closer := dist_of_hop isForest edge ⟨common, commonAvoids⟩
      omega
    · -- The tree has no second way from `x` to its parent.
      have avoidsParent : y ∉ way.support := by
        intro onWay
        have shortcut : ReachesAvoiding tree x v y :=
          ⟨way.takeUntil y onWay, fun inPart =>
            avoids (way.support_takeUntil_subset_support onWay inPart)⟩
        have twoAway := dist_of_hop strays.acyclic adjacent shortcut
        rw [SimpleGraph.dist_eq_one_iff_adj.mpr up] at twoAway
        have reachable : tree.Reachable v y := ⟨way.takeUntil y onWay⟩
        exact isSame
          (reachable.dist_eq_zero_iff.mp (by omega))
      have fromParent : (parentGraph superior).Adj y v :=
        parentGraph_adj.mpr ⟨Ne.symm isSame, .inr sameParent⟩
      have toParent : (parentGraph superior).Adj x y :=
        parentGraph_adj.mpr ⟨up.ne, .inl isParent⟩
      have commonAvoidsParent : y ∉ common.support := by
        rwa [sameSupport]
      have second :=
        dist_of_hop isForest fromParent ⟨common, commonAvoidsParent⟩
      have first :=
        dist_of_hop isForest toParent
          ⟨.cons fromParent common, by
            rw [SimpleGraph.Walk.support_cons, List.mem_cons, not_or]
            exact ⟨up.ne, commonAvoids⟩⟩
      omega

end StraysAt

end Forest
