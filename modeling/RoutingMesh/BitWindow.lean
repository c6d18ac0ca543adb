import Mathlib.Data.List.Basic

/-!
# A window of bits

A word remembers the last flags of a sequence: each flag enters at bit zero
and moves the others up, until it leaves at the top.  The bits that are set
are then counted among the last flags only, and before the word is full the
places of the missing flags count as not set.
-/

namespace BitWindow

variable {w : Nat}

/-- `(window << 1) | flag`, computed in `int` and cut to the width. -/
def shiftIn
    (window : BitVec w)
    (flag : Bool) : BitVec w :=
  BitVec.ofNat w ((window.toNat <<< 1) ||| flag.toNat)

/-- The number of bits that are set. -/
def popcount (window : BitVec w) : Nat :=
  ((List.range w).map window.getLsbD).count true

theorem getLsbD_shiftIn_zero
    (window : BitVec (w + 1))
    (flag : Bool) :
    (shiftIn window flag).getLsbD 0 = flag := by
  rw [shiftIn, BitVec.getLsbD_ofNat, Nat.testBit_or, Nat.testBit_shiftLeft]
  cases flag <;> simp

theorem getLsbD_shiftIn_succ
    (window : BitVec w)
    (flag : Bool)
    {i : Nat}
    (inWidth : i + 1 < w) :
    (shiftIn window flag).getLsbD (i + 1) = window.getLsbD i := by
  have onlyLowest : flag.toNat.testBit (i + 1) = false := by
    cases flag <;> simp [Nat.testBit_succ]
  rw [shiftIn, BitVec.getLsbD_ofNat, Nat.testBit_or, Nat.testBit_shiftLeft,
    onlyLowest]
  simp [inWidth, BitVec.getLsbD]

/-- The window holds the last flags of a history, the newest first. -/
def Holds
    (window : BitVec w)
    (history : List Bool) : Prop :=
  ∀ i, i < w → window.getLsbD i = history.getD i false

theorem holds_zero : Holds (0#w) [] := by
  intro i _
  simp

/-- A flag that enters is the newest of the history. -/
theorem Holds.shiftIn
    {window : BitVec w}
    {history : List Bool}
    (holds : Holds window history)
    (flag : Bool) :
    Holds (shiftIn window flag) (flag :: history) := by
  intro i inWidth
  cases i with
  | zero =>
      cases w with
      | zero => omega
      | succ w => exact getLsbD_shiftIn_zero window flag
  | succ i =>
      rw [getLsbD_shiftIn_succ window flag inWidth, List.getD_cons_succ]
      exact holds i (by omega)

/-- The places that no flag has reached are not set. -/
theorem map_getD_range
    (history : List Bool)
    (w : Nat) :
    (List.range w).map (fun i => history.getD i false) =
      history.take w ++ List.replicate (w - history.length) false := by
  induction history generalizing w with
  | nil =>
      simp
  | cons flag rest inductionHypothesis =>
      cases w with
      | zero =>
          simp
      | succ w =>
          have shifted := inductionHypothesis w
          simp only [List.range_succ_eq_map, List.map_cons, List.map_map,
            List.getD_cons_zero, List.take_succ_cons, List.length_cons,
            List.cons_append, Nat.add_sub_add_right]
          rw [← shifted]
          rfl

/-- The bits that are set are the flags that are set among the last ones. -/
theorem Holds.popcount_eq
    {window : BitVec w}
    {history : List Bool}
    (holds : Holds window history) :
    popcount window = (history.take w).count true := by
  have sameBits :
      (List.range w).map window.getLsbD =
        (List.range w).map fun i => history.getD i false := by
    apply List.map_congr_left
    intro i listed
    exact holds i (List.mem_range.mp listed)
  rw [popcount, sameBits, map_getD_range, List.count_append,
    List.count_replicate]
  simp

end BitWindow
