import Mathlib.Data.List.Nodup
import Mathlib.Logic.Function.Basic

/-!
# Tables that are filled and cleared key by key

A table maps keys to at most one value each.  A loop that stores one value
for each of some different keys leaves exactly these, beside what was there
for other keys; a loop that clears keys leaves the other ones.
-/

namespace KeyedTable

variable {κ β : Type*} [DecidableEq κ]

/-- Store the values of the pairs, one after the other. -/
def storeAll
    (pairs : List (κ × β))
    (table : κ → Option β) : κ → Option β :=
  pairs.foldl (fun filled pair => Function.update filled pair.1 (some pair.2))
    table

theorem storeAll_append
    (pairs later : List (κ × β))
    (table : κ → Option β) :
    storeAll (pairs ++ later) table = storeAll later (storeAll pairs table) :=
  List.foldl_append

/-- Clear the keys, one after the other. -/
def clearAll
    (keys : List κ)
    (table : κ → Option β) : κ → Option β :=
  keys.foldl (fun left key => Function.update left key none) table

theorem clearAll_apply
    (keys : List κ)
    (table : κ → Option β)
    (key : κ) :
    clearAll keys table key = if key ∈ keys then none else table key := by
  induction keys generalizing table with
  | nil =>
      rfl
  | cons first rest inductionHypothesis =>
      rw [clearAll, List.foldl_cons, ← clearAll, inductionHypothesis]
      simp only [List.mem_cons, Function.update_apply]
      grind

theorem storeAll_of_not_mem
    {pairs : List (κ × β)}
    {key : κ}
    (table : κ → Option β)
    (absent : key ∉ pairs.map Prod.fst) :
    storeAll pairs table key = table key := by
  induction pairs generalizing table with
  | nil =>
      rfl
  | cons pair rest inductionHypothesis =>
      rw [List.map_cons, List.mem_cons, not_or] at absent
      rw [storeAll, List.foldl_cons, ← storeAll,
        inductionHypothesis _ absent.2, Function.update_of_ne absent.1]

/-- With different keys, exactly the pairs are stored. -/
theorem storeAll_eq_some_iff
    {pairs : List (κ × β)}
    (distinct : (pairs.map Prod.fst).Nodup)
    (table : κ → Option β)
    {key : κ}
    {value : β} :
    storeAll pairs table key = some value ↔
      (key, value) ∈ pairs ∨
        key ∉ pairs.map Prod.fst ∧ table key = some value := by
  induction pairs generalizing table with
  | nil =>
      simp [storeAll]
  | cons pair rest inductionHypothesis =>
      obtain ⟨notLater, restDistinct⟩ := List.nodup_cons.mp distinct
      rw [storeAll, List.foldl_cons, ← storeAll]
      by_cases isFirst : key = pair.1
      · -- The rest stores nothing for this key.
        subst isFirst
        rw [storeAll_of_not_mem _ notLater, Function.update_self]
        have notInRest : (pair.1, value) ∉ rest := fun listed =>
          notLater (List.mem_map.mpr ⟨_, listed, rfl⟩)
        simp [notInRest, Prod.ext_iff, eq_comm]
      · rw [inductionHypothesis restDistinct, Function.update_of_ne isFirst]
        simp [Prod.ext_iff, isFirst]

end KeyedTable
