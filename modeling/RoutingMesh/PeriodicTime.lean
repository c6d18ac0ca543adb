import Mathlib.Algebra.Order.Floor.Ring
import Mathlib.Algebra.Order.ToIntervalMod
import Mathlib.Data.Rat.Floor
import Mathlib.Tactic.Linarith

/-!
# Times in a period

Remainders of rational times as the C library computes them, and the value
nearest to zero that differs from a time by whole periods.  That value does
not depend on how the time was reduced before, only on the time modulo the
period.
-/

namespace PeriodicTime

open AddCommGroup

/-- Conversion to an integer type, towards zero. -/
def truncate (x : ℚ) : ℤ :=
  if 0 ≤ x then ⌊x⌋ else ⌈x⌉

/-- `fmod`. -/
def fmod (x period : ℚ) : ℚ :=
  x - truncate (x / period) * period

/-- `while (x < 0) x += period`, for at most so many rounds. -/
def addWhileNegative (period : ℚ) : Nat → ℚ → ℚ
  | 0, x => x
  | fuel + 1, x =>
      if x < 0 then addWhileNegative period fuel (x + period) else x

/-- The loop with the rounds that it takes. -/
def raise (period x : ℚ) : ℚ :=
  addWhileNegative period ⌈-x / period⌉₊ x

/--
The loop ends with a value that is not negative: every bound from some number
of rounds on gives that value.
-/
def RaisesTo (period x y : ℚ) : Prop :=
  0 ≤ y ∧ ∃ rounds, ∀ fuel, rounds ≤ fuel → addWhileNegative period fuel x = y

/-- Raised, reduced, and lowered by a period when above its half. -/
def centred (period x : ℚ) : ℚ :=
  let reduced := fmod (raise period x) period
  if reduced > period / 2 then reduced - period else reduced

variable {period x y : ℚ}

theorem truncate_of_nonneg (nonneg : 0 ≤ x) : truncate x = ⌊x⌋ :=
  if_pos nonneg

/-! ## Whole periods are kept -/

theorem fmod_modEq (x period : ℚ) : fmod x period ≡ x [PMOD period] := by
  rw [modEq_iff_zsmul]
  exact ⟨truncate (x / period), by simp [fmod]⟩

theorem add_period_modEq (x period : ℚ) : x + period ≡ x [PMOD period] := by
  rw [add_modEq_left]
  exact self_modEq_zero

theorem addWhileNegative_modEq (fuel : Nat) (x : ℚ) :
    addWhileNegative period fuel x ≡ x [PMOD period] := by
  induction fuel generalizing x with
  | zero =>
      exact modEq_rfl
  | succ fuel inductionHypothesis =>
      rw [addWhileNegative]
      split
      · exact (inductionHypothesis (x + period)).trans
          (add_period_modEq x period)
      · exact modEq_rfl

theorem centred_modEq (period x : ℚ) : centred period x ≡ x [PMOD period] := by
  have reduced : fmod (raise period x) period ≡ x [PMOD period] :=
    (fmod_modEq _ _).trans (addWhileNegative_modEq _ _)
  unfold centred
  dsimp only
  split
  · have lowered :=
      add_period_modEq (fmod (raise period x) period - period) period
    rw [sub_add_cancel] at lowered
    exact lowered.symm.trans reduced
  · exact reduced

/-! ## The reduced value -/

theorem addWhileNegative_nonneg
    {fuel : Nat}
    (enough : 0 ≤ x + fuel * period) :
    0 ≤ addWhileNegative period fuel x := by
  induction fuel generalizing x with
  | zero =>
      rw [Nat.cast_zero, zero_mul, add_zero] at enough
      exact enough
  | succ fuel inductionHypothesis =>
      rw [addWhileNegative]
      split
      · apply inductionHypothesis
        push_cast at enough
        linarith
      · rename_i notNegative
        exact not_lt.mp notNegative

/-- The rounds of `raise` are enough. -/
theorem le_add_ceil_mul (positive : 0 < period) (x : ℚ) :
    0 ≤ x + (⌈-x / period⌉₊ : ℚ) * period := by
  have rounds := Nat.le_ceil (-x / period)
  rw [div_le_iff₀ positive] at rounds
  linarith

theorem raise_nonneg (positive : 0 < period) (x : ℚ) : 0 ≤ raise period x :=
  addWhileNegative_nonneg (le_add_ceil_mul positive x)

theorem addWhileNegative_of_nonneg
    (fuel : Nat)
    (nonneg : 0 ≤ x) :
    addWhileNegative period fuel x = x := by
  cases fuel with
  | zero =>
      rfl
  | succ fuel =>
      rw [addWhileNegative, if_neg (not_lt.mpr nonneg)]

/-- More rounds than the loop takes change nothing. -/
theorem addWhileNegative_of_le
    {rounds fuel : Nat}
    (enough : 0 ≤ x + rounds * period)
    (more : rounds ≤ fuel) :
    addWhileNegative period fuel x = addWhileNegative period rounds x := by
  induction rounds generalizing x fuel with
  | zero =>
      rw [Nat.cast_zero, zero_mul, add_zero] at enough
      exact addWhileNegative_of_nonneg fuel enough
  | succ rounds inductionHypothesis =>
      obtain ⟨left, rfl⟩ := Nat.exists_eq_add_of_le' more
      rw [← Nat.add_assoc, addWhileNegative, addWhileNegative]
      split
      · refine inductionHypothesis ?_ (Nat.le_add_left _ _)
        push_cast at enough
        linarith
      · rfl

/-- With a positive period the loop ends. -/
theorem raisesTo_raise (positive : 0 < period) (x : ℚ) :
    RaisesTo period x (raise period x) :=
  ⟨raise_nonneg positive x, ⌈-x / period⌉₊, fun _ more =>
    addWhileNegative_of_le (le_add_ceil_mul positive x) more⟩

theorem fmod_mem
    (positive : 0 < period)
    (nonneg : 0 ≤ x) :
    0 ≤ fmod x period ∧ fmod x period < period := by
  rw [fmod, truncate_of_nonneg (div_nonneg nonneg positive.le)]
  exact ⟨Int.sub_floor_div_mul_nonneg x positive,
    Int.sub_floor_div_mul_lt x positive⟩

/-- The centred value lies within half a period of zero. -/
theorem centred_mem
    (positive : 0 < period)
    (x : ℚ) :
    centred period x ∈ Set.Ioc (-(period / 2)) (-(period / 2) + period) := by
  obtain ⟨nonneg, below⟩ := fmod_mem positive (raise_nonneg positive x)
  unfold centred
  dsimp only
  split
  · constructor <;> linarith
  · constructor <;> linarith

/-- The centred value is the one within half a period, whatever was reduced. -/
theorem centred_eq_of_modEq
    (positive : 0 < period)
    (same : x ≡ y [PMOD period])
    (above : -(period / 2) < y)
    (below : y ≤ period / 2) :
    centred period x = y := by
  have inHalf : y ∈ Set.Ioc (-(period / 2)) (-(period / 2) + period) :=
    ⟨above, by linarith⟩
  calc
    centred period x
        = toIocMod positive (-(period / 2)) (centred period x) :=
      ((toIocMod_eq_self positive).mpr (centred_mem positive x)).symm
    _ = toIocMod positive (-(period / 2)) y :=
      (toIocMod_eq_toIocMod positive).mpr
        (modEq_iff_zsmul'.mp ((centred_modEq period x).trans same))
    _ = y := (toIocMod_eq_self positive).mpr inHalf

/-- A value within half a period of zero that differs by whole periods. -/
def IsCentred (period x y : ℚ) : Prop :=
  y ∈ Set.Ioc (-(period / 2)) (period / 2) ∧ y ≡ x [PMOD period]

theorem isCentred_centred (positive : 0 < period) (x : ℚ) :
    IsCentred period x (centred period x) := by
  refine ⟨?_, centred_modEq period x⟩
  obtain ⟨above, below⟩ := centred_mem positive x
  exact ⟨above, by linarith⟩

/-- There is one such value. -/
theorem IsCentred.eq_centred
    (positive : 0 < period)
    (isCentred : IsCentred period x y) :
    y = centred period x :=
  (centred_eq_of_modEq positive isCentred.2.symm isCentred.1.1
    isCentred.1.2).symm

end PeriodicTime
