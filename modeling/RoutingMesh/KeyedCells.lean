import Mathlib.Data.List.Nodup
import Mathlib.Algebra.Notation.Defs
import RoutingMesh.CellArray

/-!
# Cells addressed by key

A list of keys gives a position to every key, and parallel arrays hold one
cell for each position.  Reading such arrays by key hides the positions:
erasing a key, or copying cells between two key orders, then reads as an
operation on partial maps.
-/

namespace KeyedCells

open CellArray

variable {κ α : Type*} [DecidableEq κ]

/-- In a duplicate-free list the position of a key is where it occurs. -/
theorem idxOf?_eq_some_iff_getElem?
    {keys : List κ}
    (distinct : keys.Nodup)
    {key : κ}
    {position : Nat} :
    keys.idxOf? key = some position ↔
      keys[position]? = some key := by
  rw [List.idxOf?_eq_some_iff]
  constructor
  · rintro ⟨inBounds, found, _⟩
    rw [List.getElem?_eq_getElem inBounds, found]
  · intro found
    obtain ⟨inBounds, value⟩ := List.getElem?_eq_some_iff.mp found
    refine ⟨inBounds, value, ?_⟩
    intro earlier isEarlier same
    have samePosition : earlier = position :=
      (distinct.getElem_inj_iff).mp (same.trans value.symm)
    omega

/-- Every listed key has a position. -/
theorem exists_position
    {keys : List κ}
    {key : κ}
    (listed : key ∈ keys) :
    ∃ position, keys.idxOf? key = some position := by
  rw [← Option.isSome_iff_exists, List.isSome_idxOf?]
  exact listed

variable [Zero α]

/-- The cell of a key, and zero for a key that is not listed. -/
def read
    (keys : List κ)
    (cells : Nat → α)
    (key : κ) : α :=
  match keys.idxOf? key with
  | some position => cells position
  | none => 0

/-- The cell of a pair of keys in a table with one row and one column a key. -/
def readAt
    (keys : List κ)
    (table : Nat → Nat → α)
    (row column : κ) : α :=
  read keys (fun position => read keys (table position) column) row

theorem read_of_position
    {keys : List κ}
    {key : κ}
    {position : Nat}
    (found : keys.idxOf? key = some position)
    (cells : Nat → α) :
    read keys cells key = cells position := by
  simp [read, found]

@[simp] theorem read_of_not_mem
    {keys : List κ}
    {key : κ}
    (unlisted : key ∉ keys)
    (cells : Nat → α) :
    read keys cells key = 0 := by
  have absent : keys.idxOf? key = none := by
    simpa using unlisted
  simp [read, absent]

/-- Reading the key at a position reads the cell at that position. -/
theorem read_getElem
    {keys : List κ}
    (distinct : keys.Nodup)
    {position : Nat}
    (inBounds : position < keys.length)
    (cells : Nat → α) :
    read keys cells keys[position] = cells position :=
  read_of_position
    ((idxOf?_eq_some_iff_getElem? distinct).mpr
      (List.getElem?_eq_getElem inBounds))
    cells

theorem readAt_getElem
    {keys : List κ}
    (distinct : keys.Nodup)
    {row column : Nat}
    (rowInBounds : row < keys.length)
    (columnInBounds : column < keys.length)
    (table : Nat → Nat → α) :
    readAt keys table keys[row] keys[column] = table row column := by
  rw [readAt, read_getElem distinct rowInBounds,
    read_getElem distinct columnInBounds]

@[simp] theorem readAt_of_row_not_mem
    {keys : List κ}
    {row : κ}
    (unlisted : row ∉ keys)
    (table : Nat → Nat → α)
    (column : κ) :
    readAt keys table row column = 0 := by
  simp [readAt, unlisted]

@[simp] theorem readAt_of_column_not_mem
    {keys : List κ}
    {column : κ}
    (unlisted : column ∉ keys)
    (table : Nat → Nat → α)
    (row : κ) :
    readAt keys table row column = 0 := by
  unfold readAt read
  split
  · exact read_of_not_mem unlisted _
  · rfl

@[simp] theorem read_zero
    (keys : List κ)
    (key : κ) :
    read keys (fun _ => (0 : α)) key = 0 := by
  unfold read
  split <;> rfl

@[simp] theorem readAt_zero
    (keys : List κ)
    (row column : κ) :
    readAt keys (fun _ _ => (0 : α)) row column = 0 := by
  simp [readAt]

/-- Cells that agree on every used position read the same. -/
theorem read_congr
    {keys : List κ}
    {first second : Nat → α}
    (agree : ∀ position, position < keys.length → first position = second position)
    (key : κ) :
    read keys first key = read keys second key := by
  unfold read
  split
  · rename_i position found
    obtain ⟨inBounds, _⟩ := List.idxOf?_eq_some_iff.mp found
    exact agree position inBounds
  · rfl

/-- Writing one position changes the cell of one key. -/
theorem read_write
    {keys : List κ}
    (distinct : keys.Nodup)
    {position : Nat}
    {owner : κ}
    (owned : keys.idxOf? owner = some position)
    (cells : Nat → α)
    (value : α)
    (key : κ) :
    read keys (write cells position value) key =
      if key = owner then value else read keys cells key := by
  by_cases sameKey : key = owner
  · subst sameKey
    simp [read_of_position owned]
  · by_cases listed : key ∈ keys
    · obtain ⟨other, found⟩ := exists_position listed
      have different : other ≠ position := by
        intro samePosition
        subst samePosition
        rw [idxOf?_eq_some_iff_getElem? distinct] at owned found
        rw [owned] at found
        exact sameKey (Option.some.inj found).symm
      simp [read_of_position found, different, sameKey]
    · simp [listed, sameKey]

theorem readAt_write
    {keys : List κ}
    (distinct : keys.Nodup)
    {position : Nat}
    {owner : κ}
    (owned : keys.idxOf? owner = some position)
    (table : Nat → Nat → α)
    (newRow : Nat → α)
    (row column : κ) :
    readAt keys (write table position newRow) row column =
      if row = owner then read keys newRow column
      else readAt keys table row column := by
  have rows :
      (fun query => read keys (write table position newRow query) column) =
        write (fun query => read keys (table query) column)
          position (read keys newRow column) := by
    funext query
    unfold write
    split <;> rfl
  rw [readAt, rows, read_write distinct owned]
  rfl

/-- Writing one cell of a table changes the cell of one pair of keys. -/
theorem readAt_writeAt
    {keys : List κ}
    (distinct : keys.Nodup)
    {rowPosition columnPosition : Nat}
    {rowOwner columnOwner : κ}
    (rowOwned : keys.idxOf? rowOwner = some rowPosition)
    (columnOwned : keys.idxOf? columnOwner = some columnPosition)
    (table : Nat → Nat → α)
    (value : α)
    (row column : κ) :
    readAt keys (writeAt table rowPosition columnPosition value) row column =
      if row = rowOwner ∧ column = columnOwner then value
      else readAt keys table row column := by
  rw [writeAt, readAt_write distinct rowOwned,
    read_write distinct columnOwned]
  by_cases sameRow : row = rowOwner
  · subst sameRow
    by_cases sameColumn : column = columnOwner
    · simp [sameColumn]
    · simp [sameColumn, readAt, read_of_position rowOwned]
  · simp [sameRow]

/-- Erasing a position from the keys moves later keys down by one. -/
theorem idxOf?_eraseIdx
    {keys : List κ}
    (distinct : keys.Nodup)
    {position : Nat}
    {key : κ}
    {found : Nat}
    (lookup : (keys.eraseIdx position).idxOf? key = some found) :
    keys.idxOf? key =
      some (if found < position then found else found + 1) := by
  have stillDistinct : (keys.eraseIdx position).Nodup :=
    distinct.sublist (List.eraseIdx_sublist keys position)
  rw [idxOf?_eq_some_iff_getElem? stillDistinct,
    List.getElem?_eraseIdx] at lookup
  rw [idxOf?_eq_some_iff_getElem? distinct]
  split <;> rename_i order <;> simpa [order] using lookup

omit [Zero α] in
/-- Erasing the position of a key removes exactly that key. -/
theorem mem_eraseIdx_iff
    {keys : List κ}
    (distinct : keys.Nodup)
    {position : Nat}
    {removed : κ}
    (owner : keys[position]? = some removed)
    {key : κ} :
    key ∈ keys.eraseIdx position ↔ key ≠ removed ∧ key ∈ keys := by
  obtain ⟨inBounds, value⟩ := List.getElem?_eq_some_iff.mp owner
  rw [← distinct.erase_getElem position inBounds, value,
    distinct.mem_erase_iff]

/-- Erasing a position and moving the later cells down keeps every other cell. -/
theorem read_eraseIdx
    {keys : List κ}
    (distinct : keys.Nodup)
    {position : Nat}
    (inBounds : position < keys.length)
    (cells : Nat → α)
    {key : κ}
    (kept : key ∈ keys.eraseIdx position) :
    read (keys.eraseIdx position)
        (moveDown cells position (keys.length - position - 1)) key =
      read keys cells key := by
  obtain ⟨found, lookup⟩ := exists_position kept
  have before := idxOf?_eraseIdx distinct lookup
  rw [read_of_position lookup, read_of_position before]
  obtain ⟨foundInBounds, _⟩ := List.idxOf?_eq_some_iff.mp lookup
  rw [List.length_eraseIdx_of_lt inBounds] at foundInBounds
  unfold moveDown
  by_cases early : found < position
  · have notMoved :
        ¬ (position ≤ found ∧
          found < position + (keys.length - position - 1)) := by
      omega
    simp [early, notMoved]
  · have moved :
        position ≤ found ∧
          found < position + (keys.length - position - 1) := by
      omega
    simp [early, moved]

/-!
## Copying cells between key orders
-/

/--
Copy `source`, whose positions follow `sourceKeys` from `index` on, into
`target`, whose positions follow `targetKeys`.  A key without a target
position is skipped.
-/
def copyPresent
    (targetKeys : List κ)
    (source : Nat → α) :
    (Nat → α) → List κ → Nat → (Nat → α)
  | target, [], _ => target
  | target, key :: rest, index =>
      match targetKeys.idxOf? key with
      | none => copyPresent targetKeys source target rest (index + 1)
      | some position =>
          copyPresent targetKeys source
            (write target position (source index)) rest (index + 1)

omit [Zero α] in
/-- What holds of all source and target cells holds of the copied ones. -/
theorem copyPresent_forall
    {holds : α → Prop}
    {targetKeys : List κ}
    {source : Nat → α}
    (allSource : ∀ position, holds (source position))
    {sourceKeys : List κ} :
    ∀ {target : Nat → α} {index : Nat},
      (∀ position, holds (target position)) →
      ∀ position,
        holds (copyPresent targetKeys source target sourceKeys index
          position) := by
  induction sourceKeys with
  | nil =>
      intro target index allTarget
      exact allTarget
  | cons key rest inductionHypothesis =>
      intro target index allTarget
      cases place : targetKeys.idxOf? key with
      | none =>
          simp only [copyPresent, place]
          exact inductionHypothesis allTarget
      | some position =>
          simp only [copyPresent, place]
          exact inductionHypothesis
            (write_forall allTarget position (allSource index))

/-- The same copy, but the first key without a target position ends it. -/
def copyUntilMissing
    (targetKeys : List κ)
    (source : Nat → α) :
    (Nat → α) → List κ → Nat → (Nat → α)
  | target, [], _ => target
  | target, key :: rest, index =>
      match targetKeys.idxOf? key with
      | none => target
      | some position =>
          copyUntilMissing targetKeys source
            (write target position (source index)) rest (index + 1)

omit [Zero α] in
/-- The copy reads the source at the positions of its keys only. -/
theorem copyUntilMissing_congr
    {targetKeys : List κ}
    {first second : Nat → α}
    {sourceKeys : List κ}
    {index : Nat}
    (agree :
      ∀ position,
        position < index + sourceKeys.length → first position = second position)
    (target : Nat → α) :
    copyUntilMissing targetKeys first target sourceKeys index =
      copyUntilMissing targetKeys second target sourceKeys index := by
  induction sourceKeys generalizing target index with
  | nil =>
      rfl
  | cons key rest inductionHypothesis =>
      simp only [copyUntilMissing]
      split
      · rfl
      · rw [agree index (by rw [List.length_cons]; omega)]
        exact inductionHypothesis
          (fun position below =>
            agree position (by rw [List.length_cons]; omega)) _

omit [Zero α] in
/-- When every source key has a target position the two copies agree. -/
theorem copyUntilMissing_eq_copyPresent
    {targetKeys : List κ}
    (source : Nat → α)
    {sourceKeys : List κ}
    (covered : ∀ key ∈ sourceKeys, key ∈ targetKeys)
    (target : Nat → α)
    (index : Nat) :
    copyUntilMissing targetKeys source target sourceKeys index =
      copyPresent targetKeys source target sourceKeys index := by
  induction sourceKeys generalizing target index with
  | nil =>
      rfl
  | cons key rest inductionHypothesis =>
      obtain ⟨position, found⟩ :=
        exists_position (covered key (by simp))
      simp only [copyUntilMissing, copyPresent, found]
      exact inductionHypothesis
        (fun later member => covered later (by simp [member])) _ _

/--
After a copy a key that both orders list reads its source cell, and every
other key reads what it read before.  `offset` is the number of source keys
copied earlier.
-/
theorem read_copyPresent
    {targetKeys : List κ}
    (targetDistinct : targetKeys.Nodup)
    (source : Nat → α)
    {sourceKeys : List κ}
    (sourceDistinct : sourceKeys.Nodup)
    (target : Nat → α)
    (offset : Nat)
    (key : κ) :
    read targetKeys
        (copyPresent targetKeys source target sourceKeys offset) key =
      if key ∈ sourceKeys ∧ key ∈ targetKeys then
        read sourceKeys (fun position => source (position + offset)) key
      else
        read targetKeys target key := by
  induction sourceKeys generalizing target offset with
  | nil =>
      simp [copyPresent]
  | cons head rest inductionHypothesis =>
      obtain ⟨headFresh, restDistinct⟩ :=
        List.nodup_cons.mp sourceDistinct
      have headCell :
          read (head :: rest) (fun position => source (position + offset)) head =
            source offset := by
        simp [read, List.idxOf?_cons]
      have restCell :
          ∀ {later}, later ≠ head →
            read (head :: rest)
                (fun position => source (position + offset)) later =
              read rest
                (fun position => source (position + (offset + 1))) later := by
        intro later different
        have headDiffers : ¬ (head == later) = true := by
          simpa using Ne.symm different
        unfold read
        rw [List.idxOf?_cons, if_neg headDiffers]
        cases rest.idxOf? later with
        | none => rfl
        | some position =>
            simp only [Option.map_some]
            congr 1
            omega
      simp only [copyPresent]
      split
      · rename_i missing
        have unlisted : head ∉ targetKeys := by
          simpa using missing
        rw [inductionHypothesis restDistinct]
        by_cases isHead : key = head
        · subst isHead
          simp [unlisted]
        · simp [isHead, restCell isHead]
      · rename_i position found
        have listed : head ∈ targetKeys := by
          rw [← List.isSome_idxOf?, found]
          rfl
        rw [inductionHypothesis restDistinct,
          read_write targetDistinct found]
        by_cases isHead : key = head
        · subst isHead
          simp [headFresh, listed, headCell]
        · simp [isHead, restCell isHead]

/-!
## Loops over the keys
-/

/-- `for` each key of a list, with its position counted from `index`. -/
def forEachFrom
    {State : Type*}
    (body : State → κ → Nat → State) :
    State → List κ → Nat → State
  | state, [], _ => state
  | state, key :: rest, index =>
      forEachFrom body (body state key index) rest (index + 1)

omit [DecidableEq κ] in
/-- What the body of a loop keeps, the loop keeps. -/
theorem forEachFrom_invariant
    {State : Type*}
    {body : State → κ → Nat → State}
    {holds : State → Prop}
    (kept : ∀ {state key index}, holds state → holds (body state key index))
    {keys : List κ} :
    ∀ {state : State} {index : Nat},
      holds state → holds (forEachFrom body state keys index) := by
  induction keys with
  | nil =>
      intro state index holding
      exact holding
  | cons key rest inductionHypothesis =>
      intro state index holding
      exact inductionHypothesis (kept holding)

omit [DecidableEq κ] in
/-- Loops whose bodies agree on every key they reach agree. -/
theorem forEachFrom_congr
    {State : Type*}
    {first second : State → κ → Nat → State}
    {keys : List κ}
    {index : Nat}
    (agree :
      ∀ state key position,
        position < index + keys.length →
          first state key position = second state key position)
    (state : State) :
    forEachFrom first state keys index = forEachFrom second state keys index := by
  induction keys generalizing state index with
  | nil =>
      rfl
  | cons key rest inductionHypothesis =>
      rw [forEachFrom, forEachFrom,
        agree state key index (by rw [List.length_cons]; omega)]
      exact inductionHypothesis
        (fun other later position below =>
          agree other later position (by rw [List.length_cons]; omega)) _

omit [DecidableEq κ] in
/-- The first of the keys left at position `index` is the key there. -/
theorem head_of_drop
    {keys rest : List κ}
    {key : κ}
    {index : Nat}
    (suffix : key :: rest = keys.drop index) :
    keys[index]? = some key ∧ rest = keys.drop (index + 1) := by
  constructor
  · have head := congrArg List.head? suffix
    simpa using head.symm
  · have tail := congrArg List.tail suffix
    simpa using tail

omit [Zero α] in
/-- The loop rule from an intermediate position on. -/
private theorem view_forEachFrom
    {State View : Type*}
    {body : State → κ → Nat → State}
    {keys : List κ}
    (distinct : keys.Nodup)
    (holds : State → Prop)
    (view : State → κ → View)
    (change : κ → View → View)
    (kept :
      ∀ {state key index},
        holds state →
        keys[index]? = some key →
        holds (body state key index))
    (acts :
      ∀ {state key index},
        holds state →
        keys[index]? = some key →
        ∀ k,
          view (body state key index) k =
            if k = key then change k (view state k) else view state k)
    {rest : List κ} :
    ∀ {state : State} {index : Nat},
      holds state →
      rest = keys.drop index →
      holds (forEachFrom body state rest index) ∧
        ∀ k,
          view (forEachFrom body state rest index) k =
            if k ∈ rest then change k (view state k)
            else view state k := by
  induction rest with
  | nil =>
      intro state index holding _
      exact ⟨holding, by simp [forEachFrom]⟩
  | cons key rest inductionHypothesis =>
      intro state index holding suffix
      obtain ⟨owner, restSuffix⟩ := head_of_drop suffix
      have fresh : key ∉ rest := by
        have suffixDistinct : (key :: rest).Nodup := by
          rw [suffix]
          exact distinct.sublist (List.drop_sublist _ _)
        exact (List.nodup_cons.mp suffixDistinct).1
      obtain ⟨stillHolding, views⟩ :=
        inductionHypothesis (kept holding owner) restSuffix
      refine ⟨stillHolding, ?_⟩
      intro k
      rw [forEachFrom, views, acts holding owner]
      by_cases isKey : k = key
      · subst isKey
        simp [fresh]
      · simp [isKey]

omit [Zero α] in
/--
A loop over all keys whose body changes only the view of its own key changes
the view of each key once, and of nothing else.
-/
theorem view_forEach
    {State View : Type*}
    (body : State → κ → Nat → State)
    {keys : List κ}
    (distinct : keys.Nodup)
    (holds : State → Prop)
    (view : State → κ → View)
    (change : κ → View → View)
    (kept :
      ∀ {state key index},
        holds state →
        keys[index]? = some key →
        holds (body state key index))
    (acts :
      ∀ {state key index},
        holds state →
        keys[index]? = some key →
        ∀ k,
          view (body state key index) k =
            if k = key then change k (view state k) else view state k)
    (state : State)
    (holding : holds state)
    (k : κ) :
    view (forEachFrom body state keys 0) k =
      if k ∈ keys then change k (view state k) else view state k :=
  (view_forEachFrom distinct holds view change kept acts holding
    (List.drop_zero (l := keys)).symm).2 k

end KeyedCells
