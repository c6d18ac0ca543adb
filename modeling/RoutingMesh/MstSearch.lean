import RoutingMesh.Routing

/-!
# The search of the spanning tree

`is_reachable_via_mst` shares its marks between the branches of the recursion
and never takes one back.  For every adjacency and every set of marks to start
from, the recursion ends, and it finds the target exactly when a path without
marked positions leads there.
-/

namespace RoutingMesh

open GuardedSearch

/-- A path of positions that are active and not marked. -/
structure MstPath
    (mst : Nat → Nat → UInt8)
    (numActive : Nat)
    (visited : Nat → Bool)
    (startIdx targetIdx : Nat)
    (path : List Nat) : Prop where
  starts : path.head? = some startIdx
  ends : path.getLast? = some targetIdx
  linked : path.IsChain fun a b => mst a b ≠ 0
  unmarked : ∀ v ∈ path, v < numActive ∧ visited v = false

/-- `is_reachable_via_mst`, without a result where it would recurse deeper. -/
def isReachableWithin
    (mst : Nat → Nat → UInt8)
    (numActive startIdx targetIdx : Nat)
    (visited : Nat → Bool)
    (depth : Nat) : Option (Bool × (Nat → Bool)) :=
  searchWithin (fun a b => mst a b != 0) (List.range numActive) targetIdx
    depth startIdx visited

section

variable {mst : Nat → Nat → UInt8}
variable {numActive startIdx targetIdx : Nat}
variable {visited : Nat → Bool}

/-- There are at most as many unmarked positions as active ones. -/
theorem unmarked_range_le :
    GuardedSearch.unmarked (List.range numActive) visited ≤ numActive :=
  List.countP_le_length.trans List.length_range.le

theorem reaches_iff_mstPath
    (startInBounds : startIdx < numActive)
    (startFresh : visited startIdx = false) :
    Reaches (fun a b => mst a b != 0) (List.range numActive) visited
        startIdx targetIdx ↔
      ∃ path, MstPath mst numActive visited startIdx targetIdx path := by
  rw [reaches_iff_exists_path (List.mem_range.mpr startInBounds) startFresh]
  simp only [List.mem_range, bne_iff_ne]
  constructor
  · rintro ⟨path, starts, ends, linked, unmarked⟩
    exact ⟨path, starts, ends, linked, unmarked⟩
  · rintro ⟨path, starts, ends, linked, unmarked⟩
    exact ⟨path, starts, ends, linked, unmarked⟩

end

/--
From a position that is not marked the recursion ends within as many calls as
there are positions, and it returns true exactly when a path to the target has
no position that was marked before.
-/
theorem isReachableViaMst_correct
    (mst : Nat → Nat → UInt8)
    {numActive startIdx targetIdx : Nat}
    (visited : Nat → Bool)
    (startInBounds : startIdx < numActive)
    (startFresh : visited startIdx = false) :
    (∀ depth, numActive ≤ depth →
      isReachableWithin mst numActive startIdx targetIdx visited depth =
        some (isReachableViaMst mst numActive startIdx targetIdx visited)) ∧
      ((isReachableViaMst mst numActive startIdx targetIdx visited).1 = true ↔
        ∃ path, MstPath mst numActive visited startIdx targetIdx path) := by
  have listed : startIdx ∈ List.range numActive :=
    List.mem_range.mpr startInBounds
  constructor
  · intro depth enough
    exact searchWithin_of_le listed startFresh unmarked_range_le enough
  · rw [← reaches_iff_mstPath startInBounds startFresh]
    exact search_eq_true_iff listed startFresh unmarked_range_le

/-- A cycle with a dead end at 1 and a mark at 3; only 2 leads on to 4. -/
def markedCycle : Nat → Nat → UInt8
  | 0, 1 => 1
  | 1, 0 => 1
  | 0, 2 => 1
  | 2, 4 => 1
  | 1, 3 => 1
  | 3, 4 => 1
  | _, _ => 0

/-- The dead end stays marked, and the target is found behind 2. -/
theorem isReachableViaMst_markedCycle :
    (isReachableViaMst markedCycle 5 0 4 fun v => v == 3).1 = true ∧
      ∃ path, MstPath markedCycle 5 (fun v => v == 3) 0 4 path := by
  have reached :
      (isReachableViaMst markedCycle 5 0 4 fun v => v == 3).1 = true := by
    decide
  exact ⟨reached,
    (isReachableViaMst_correct markedCycle (fun v => v == 3) (by decide)
      (by decide)).2.mp reached⟩

end RoutingMesh
