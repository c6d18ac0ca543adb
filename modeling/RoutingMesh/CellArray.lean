import Mathlib.Logic.Basic
import Mathlib.Tactic.Common

/-!
# Arrays of cells

A C array is read as a function from positions to cells, so a read never needs
a bound and the cells past the part in use keep whatever they held.  The
operations are the writes and the overlapping moves that in-place code makes.
-/

namespace CellArray

variable {α : Type*}

/-- Store one value at one position. -/
def write
    (cells : Nat → α)
    (position : Nat)
    (value : α) : Nat → α :=
  fun query =>
    if query = position then value else cells query

@[simp] theorem write_same
    (cells : Nat → α)
    (position : Nat)
    (value : α) :
    write cells position value position = value := by
  simp [write]

@[simp] theorem write_other
    (cells : Nat → α)
    {position query : Nat}
    (different : query ≠ position)
    (value : α) :
    write cells position value query = cells query := by
  simp [write, different]

theorem write_forall
    {holds : α → Prop}
    {cells : Nat → α}
    (all : ∀ query, holds (cells query))
    (position : Nat)
    {value : α}
    (stored : holds value)
    (query : Nat) :
    holds (write cells position value query) := by
  unfold write
  split
  · exact stored
  · exact all query

/-- Store one value in a table of rows. -/
def writeAt
    (table : Nat → Nat → α)
    (row column : Nat)
    (value : α) : Nat → Nat → α :=
  write table row (write (table row) column value)

theorem writeAt_apply
    (table : Nat → Nat → α)
    (row column : Nat)
    (value : α)
    (queryRow queryColumn : Nat) :
    writeAt table row column value queryRow queryColumn =
      if queryRow = row ∧ queryColumn = column then value
      else table queryRow queryColumn := by
  by_cases sameRow : queryRow = row
  · subst sameRow
    by_cases sameColumn : queryColumn = column
    · simp [writeAt, sameColumn]
    · simp [writeAt, sameColumn]
  · simp [writeAt, sameRow]

/--
`memmove(&cells[position], &cells[position + 1], count * sizeof(cell))`: the
`count` cells after `position` move down by one.
-/
def moveDown
    (cells : Nat → α)
    (position count : Nat) : Nat → α :=
  fun query =>
    if position ≤ query ∧ query < position + count then
      cells (query + 1)
    else
      cells query

theorem moveDown_forall
    {holds : α → Prop}
    {cells : Nat → α}
    (all : ∀ query, holds (cells query))
    (position count query : Nat) :
    holds (moveDown cells position count query) := by
  unfold moveDown
  split
  · exact all (query + 1)
  · exact all query

/-- The same move made one cell at a time, in ascending order. -/
def moveDownLoop
    (cells : Nat → α)
    (position : Nat) :
    Nat → (Nat → α)
  | 0 => cells
  | count + 1 =>
      moveDownLoop
        (write cells position (cells (position + 1)))
        (position + 1) count

/-- Ascending single-cell moves never read a cell they have overwritten. -/
theorem moveDownLoop_eq_moveDown
    (cells : Nat → α)
    (position count : Nat) :
    moveDownLoop cells position count =
      moveDown cells position count := by
  induction count generalizing cells position with
  | zero =>
      funext query
      have empty : ¬ (position ≤ query ∧ query < position + 0) := by
        omega
      simp only [moveDownLoop, moveDown, empty, ↓reduceIte]
  | succ count inductionHypothesis =>
      funext query
      rw [moveDownLoop, inductionHypothesis]
      unfold moveDown write
      grind

end CellArray
