import Mathlib.Data.List.Chain

/-!
# Frames of a clock

A clock counts ticks from zero and is cut into frames of one length.  Two
times in different frames are ordered like their frames; a log of times is
spaced when each entry comes a given distance after the one before.  Nothing
here refers to a particular system.
-/

namespace FrameClock

/-- The first tick of the frame that a time belongs to. -/
def frameStart (period time : Nat) : Nat :=
  time - time % period

variable {period time later : Nat}

theorem frameStart_le (period time : Nat) : frameStart period time ≤ time :=
  Nat.sub_le _ _

/-- A time is its frame's first tick and its offset in the frame. -/
theorem frameStart_add_mod (period time : Nat) :
    frameStart period time + time % period = time :=
  Nat.sub_add_cancel (Nat.mod_le _ _)

theorem lt_frameStart_add
    (positive : 0 < period)
    (time : Nat) :
    time < frameStart period time + period := by
  have offset := Nat.mod_lt time positive
  have splits := frameStart_add_mod period time
  omega

/-- A frame starts a whole number of periods after zero. -/
theorem frameStart_eq_mul (period time : Nat) :
    frameStart period time = period * (time / period) := by
  have splits := Nat.mod_add_div time period
  have starts := frameStart_add_mod period time
  omega

/-- A time of a frame has the frame's start. -/
theorem frameStart_eq_of_mem
    {frames : Nat}
    (starts : period * frames ≤ time)
    (ends : time < period * frames + period) :
    frameStart period time = period * frames := by
  have sameFrame : time / period = frames :=
    Nat.div_eq_of_lt_le
      (by rw [Nat.mul_comm]; exact starts)
      (by rw [Nat.mul_comm, Nat.mul_succ]; exact ends)
  rw [frameStart_eq_mul, sameFrame]

/-- The frame after the one a time belongs to. -/
theorem frameStart_of_next
    (starts : frameStart period time + period ≤ later)
    (ends : later < frameStart period time + period + period) :
    frameStart period later = frameStart period time + period := by
  rw [frameStart_eq_mul period time] at starts ends ⊢
  rw [← Nat.mul_succ] at starts ends ⊢
  exact frameStart_eq_of_mem starts ends

/-- A later frame is the next one or starts two periods after. -/
theorem frameStart_of_ne
    (ordered : time ≤ later)
    (differ : time / period ≠ later / period) :
    frameStart period later = frameStart period time + period ∨
      frameStart period time + 2 * period ≤ frameStart period later := by
  have frames : time / period < later / period :=
    lt_of_le_of_ne (Nat.div_le_div_right ordered) differ
  rw [frameStart_eq_mul, frameStart_eq_mul]
  obtain ⟨between, laterFrame⟩ :=
    Nat.exists_eq_add_of_le (Nat.succ_le_of_lt frames)
  rw [laterFrame]
  cases between with
  | zero =>
      left
      rw [Nat.add_zero, Nat.mul_succ]
  | succ more =>
      right
      calc
        period * (time / period) + 2 * period
            ≤ period * (time / period) + 2 * period + period * more :=
          Nat.le_add_right _ _
        _ = period * ((time / period).succ + (more + 1)) := by
          rw [Nat.mul_add, Nat.mul_succ, Nat.mul_succ]
          omega

/-- How long ago, in a frame that is run through again and again, an offset was. -/
theorem mod_sub_of_lt
    {offset begin : Nat}
    (inFrame : offset < period)
    (beginInFrame : begin < period) :
    (begin ≤ offset ∧ (offset + period - begin) % period = offset - begin) ∨
      (offset < begin ∧
        (offset + period - begin) % period = offset + period - begin) := by
  rcases Nat.lt_or_ge offset begin with before | after
  · exact .inr ⟨before, Nat.mod_eq_of_lt (by omega)⟩
  · refine .inl ⟨after, ?_⟩
    rw [Nat.mod_eq_sub_mod (by omega), Nat.mod_eq_of_lt (by omega)]
    omega

/-- Each time of the log comes at least a distance after the one before. -/
def Spaced (distance : Nat) (times : List Nat) : Prop :=
  times.IsChain (fun earlier next => earlier + distance ≤ next)

instance (distance : Nat) (times : List Nat) :
    Decidable (Spaced distance times) :=
  inferInstanceAs (Decidable (List.IsChain _ _))

theorem spaced_nil (distance : Nat) : Spaced distance [] :=
  List.isChain_nil

/-- A log stays spaced when the new entry keeps its distance to the last one. -/
theorem spaced_append_singleton
    {distance : Nat}
    {times : List Nat}
    {entry : Nat} :
    Spaced distance (times ++ [entry]) ↔
      Spaced distance times ∧
        ∀ last ∈ times.getLast?, last + distance ≤ entry := by
  unfold Spaced
  rw [List.isChain_append]
  simp

end FrameClock
