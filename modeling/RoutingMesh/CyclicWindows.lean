import Mathlib.Algebra.Group.ModEq
import Mathlib.Algebra.Order.Ring.Abs
import Mathlib.Algebra.Order.Ring.Int
import Mathlib.Algebra.Order.Ring.Rat
import Mathlib.Tactic.Linarith
import Mathlib.Tactic.Ring

/-!
# Windows in a cycle

A cycle is cut into windows of one width, one for each index, and each window
closes a guard before the next one opens.  A window may drift.  Times in the
windows of different indices are apart by what the drifts leave of the guard.
-/

namespace CyclicWindows

open AddCommGroup

/-- A time is in some occurrence of the window of an index. -/
def InWindow
    (width guard : ℚ)
    (count : Nat)
    (index : ℤ)
    (drift time : ℚ) : Prop :=
  ∃ into, 0 ≤ into ∧ into < width - guard ∧
    time ≡ drift + index * width + into [PMOD (count * width)]

variable {width guard spread : ℚ}
variable {count : Nat}
variable {index other : ℤ}
variable {drift otherDrift time otherTime : ℚ}

/-- Indices of one cycle that agree modulo its length are the same. -/
theorem eq_of_sub_eq_mul
    {cycles : ℤ}
    (near : |index - other| < count)
    (same : index - other = cycles * count) :
    index = other := by
  have isZero : index - other = 0 :=
    Int.eq_zero_of_abs_lt_dvd ⟨cycles, by rw [same, mul_comm]⟩ near
  omega

/-- What the windows leave between their times. -/
theorem InWindow.apart
    (positive : 0 < width)
    (inWindow : InWindow width guard count index drift time)
    (inOther : InWindow width guard count other otherDrift otherTime)
    (differ : index ≠ other)
    (near : |index - other| < count)
    (drifts : |drift - otherDrift| ≤ spread) :
    guard - spread < |time - otherTime| := by
  by_contra close
  rw [not_lt] at close
  obtain ⟨into, nonneg, below, isTime⟩ := inWindow
  obtain ⟨otherInto, otherNonneg, otherBelow, isOther⟩ := inOther
  obtain ⟨cycles, total⟩ := modEq_iff_zsmul.mp (isTime.sub isOther)
  rw [zsmul_eq_mul] at total
  -- All that is left is less than one width.
  have whole :
      (index - other - cycles * count : ℚ) * width =
        (time - otherTime) - (drift - otherDrift) - (into - otherInto) := by
    linarith
  rw [abs_le] at drifts close
  have small : |(index - other - cycles * count : ℚ) * width| < width := by
    rw [whole, abs_lt]
    constructor <;> linarith
  rw [abs_mul, abs_of_pos positive] at small
  have lessThanOne : |(index - other - cycles * count : ℚ)| < 1 := by
    by_contra large
    rw [not_lt] at large
    have atLeast := mul_le_mul_of_nonneg_right large positive.le
    linarith
  have isZero : index - other - cycles * count = 0 := by
    rw [← Int.abs_lt_one_iff]
    exact_mod_cast lessThanOne
  exact differ (eq_of_sub_eq_mul near (by linarith : _ = cycles * count))

end CyclicWindows
