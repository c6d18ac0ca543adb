import Mathlib.Algebra.BigOperators.Intervals
import Mathlib.Data.Nat.ModEq

/-!
# A log in a circular table

Values are written to the cells of a table in turn, and a cell may be cleared
in between.  A cell holds the last value that was written to it, or nothing;
the values written since the last clearing and not overwritten are all there.
Two neighbouring cells hold two values in a row, or the newest and the oldest.
-/

namespace CircularLog

variable {Value : Type*}

/-- A written value has not been overwritten yet. -/
def Recent (size count t : Nat) : Prop :=
  t < count ∧ count ≤ t + size

/--
After `count` writes of `written`, with `empty` in cleared cells: a cell holds
its last value or is empty, and no value from number `since` on was cleared.
-/
structure Keeps
    (size : Nat)
    (empty : Value)
    (written : Nat → Value)
    (since count : Nat)
    (table : Nat → Value) : Prop where
  kept :
    ∀ t, since ≤ t → Recent size count t → table (t % size) = written t
  cells :
    ∀ j, j < size → table j ≠ empty →
      ∃ t, Recent size count t ∧ t % size = j ∧ table j = written t

variable {size since count : Nat}
variable {empty : Value}
variable {written : Nat → Value}
variable {table : Nat → Value}

/-- The cells of two values that are both there are different. -/
theorem mod_ne_of_lt
    {t later : Nat}
    (before : t < later)
    (near : later < t + size) :
    t % size ≠ later % size := by
  intro same
  have multiple : size ∣ later - t :=
    (Nat.modEq_iff_dvd' before.le).mp same
  have atLeast := Nat.le_of_dvd (by omega) multiple
  omega

/-- The next cell holds the next value, or the oldest one after the newest. -/
theorem Recent.next_cell
    {t other : Nat}
    (isRecent : Recent size count t)
    (otherRecent : Recent size count other)
    (nextCell : other % size = t % size + 1) :
    other = t + 1 ∨ (t + 1 = count ∧ other + size = count) := by
  obtain ⟨before, notOld⟩ := isRecent
  obtain ⟨otherBefore, otherNotOld⟩ := otherRecent
  have congruent : other ≡ t + 1 [MOD size] := by
    have stepped : t % size + 1 ≡ t + 1 [MOD size] :=
      (Nat.mod_modEq t size).add_right 1
    rw [← nextCell] at stepped
    exact (Nat.mod_modEq other size).symm.trans stepped
  rcases Nat.lt_or_ge other (t + 1) with notLater | later
  · have multiple : size ∣ t + 1 - other :=
      (Nat.modEq_iff_dvd' (by omega)).mp congruent
    have atLeast := Nat.le_of_dvd (by omega) multiple
    right
    omega
  · left
    have multiple : size ∣ other - (t + 1) :=
      (Nat.modEq_iff_dvd' later).mp congruent.symm
    by_contra differ
    have atLeast := Nat.le_of_dvd (by omega) multiple
    omega

namespace Keeps

/-- An empty table keeps nothing. -/
theorem cleared (size : Nat) (written : Nat → Value) (count : Nat) :
    Keeps size empty written count count fun _ => empty where
  kept := fun t notBefore isRecent => by
    have before := isRecent.1
    omega
  cells := fun _ _ notEmpty => absurd rfl notEmpty

/-- One more write. -/
theorem write
    (keeps : Keeps size empty written since count table) :
    Keeps size empty written since (count + 1)
      (Function.update table (count % size) (written count)) := by
  constructor
  · intro t notBefore isRecent
    obtain ⟨before, notOld⟩ := isRecent
    rcases Nat.lt_or_eq_of_le (Nat.le_of_lt_succ before) with earlier | same
    · rw [Function.update_of_ne (mod_ne_of_lt earlier (by omega))]
      exact keeps.kept t notBefore ⟨earlier, by omega⟩
    · rw [same, Function.update_self]
  · intro j inTable notEmpty
    by_cases isWritten : j = count % size
    · refine ⟨count, ⟨Nat.lt_succ_self count, by omega⟩, isWritten.symm, ?_⟩
      rw [isWritten, Function.update_self]
    · rw [Function.update_of_ne isWritten] at notEmpty ⊢
      obtain ⟨t, ⟨before, notOld⟩, isCell, holds⟩ :=
        keeps.cells j inTable notEmpty
      refine ⟨t, ⟨by omega, ?_⟩, isCell, holds⟩
      -- The oldest value has the cell that is written.
      by_contra old
      have oldest : count = t + size := by omega
      exact isWritten (by rw [oldest, Nat.add_mod_right, isCell])

/-- Fewer values may be claimed to be there. -/
theorem later
    (keeps : Keeps size empty written since count table)
    {more : Nat}
    (notBefore : since ≤ more) :
    Keeps size empty written more count table where
  kept := fun t isLater => keeps.kept t (notBefore.trans isLater)
  cells := keeps.cells

end Keeps

/-! ## Gaps -/

/-- What an increasing sequence leaves out between two of its values. -/
theorem sum_gaps
    {values : Nat → Nat}
    {first last : Nat}
    (ordered : first ≤ last)
    (increasing : ∀ t, first ≤ t → t < last → values t < values (t + 1)) :
    (∑ t ∈ Finset.Ico first last, (values (t + 1) - values t - 1)) +
        (last - first) + values first =
      values last := by
  induction last, ordered using Nat.le_induction with
  | base =>
      simp
  | succ last ordered inductionHypothesis =>
      have earlier :=
        inductionHypothesis fun t notBefore before =>
          increasing t notBefore (by omega)
      have grows := increasing last ordered (Nat.lt_succ_self last)
      rw [Finset.sum_Ico_succ_top ordered]
      omega

end CircularLog
