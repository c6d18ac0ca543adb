import RoutingMesh.Pdr

/-!
# The estimate and the delivery ratio

`pdr_estimate` compares each cell of the table with the next one, but not the
last cell with the first.  Once the table has been filled, the step between
the numbers in these two cells counts as one, whatever is missing there; and
when the oldest number is in the last cell, it is left out.  So the estimate
is the delivery ratio of the window only under a condition on that step.
-/

namespace RoutingMesh

open CircularLog

/-- The message number that came as the `t`-th. -/
def numberAt (ids : List UInt16) (t : Nat) : Nat :=
  (ids.getD t 0).toNat

/-- How many of the last numbers count. -/
def windowLength (ids : List UInt16) : Nat :=
  min ids.length pdrSeqTableSize

/-- The share, in per cent, of the numbers of the window that were received. -/
def deliveryRatio (ids : List UInt16) : ℚ :=
  100 * ((windowLength ids : ℚ) - 1) /
    ((numberAt ids (ids.length - 1) : ℚ) -
      numberAt ids (ids.length - windowLength ids))

/-- Which packet was the last to be written to the first cell. -/
def firstCellPacket (ids : List UInt16) : Nat :=
  (ids.length - 1) / pdrSeqTableSize * pdrSeqTableSize

/-- The step from the number in the last cell to the number in the first one. -/
def stepOverEnd (ids : List UInt16) : ℚ :=
  (numberAt ids (firstCellPacket ids) : ℚ) -
    numberAt ids (firstCellPacket ids - 1)

/-- The numbers in the table from the first cell on. -/
def spanFromFirstCell (ids : List UInt16) : ℚ :=
  (numberAt ids (ids.length - 1) : ℚ) - numberAt ids (firstCellPacket ids)

/--
The step that is not compared does no harm: the window does not go over the
end of the table, or nothing is missing there, or the oldest number is in the
last cell and the step is as large as the others on average.
-/
def StepOverEndHarmless (ids : List UInt16) : Prop :=
  ids.length ≤ pdrSeqTableSize ∨
    ids.length % pdrSeqTableSize = 0 ∨
    (ids.length % pdrSeqTableSize ≠ pdrSeqTableSize - 1 ∧
      stepOverEnd ids = 1) ∨
    (ids.length % pdrSeqTableSize = pdrSeqTableSize - 1 ∧
      298 * stepOverEnd ids = spanFromFirstCell ids)

/-- Increasing numbers, none of which is 0. -/
structure Increasing (ids : List UInt16) : Prop where
  ordered : ids.Pairwise (· < ·)
  nonzero : ∀ id ∈ ids, id ≠ 0

section

variable {ids : List UInt16}

theorem numberAt_eq
    {t : Nat}
    (inBounds : t < ids.length) :
    numberAt ids t = ids[t].toNat := by
  simp [numberAt, inBounds]

theorem Increasing.lt
    (increasing : Increasing ids)
    {t later : Nat}
    (before : t < later)
    (inBounds : later < ids.length) :
    numberAt ids t < numberAt ids later := by
  rw [numberAt_eq (by omega), numberAt_eq inBounds]
  exact UInt16.lt_iff_toNat_lt.mp
    (List.pairwise_iff_getElem.mp increasing.ordered t later _ inBounds before)

theorem Increasing.le
    (increasing : Increasing ids)
    {t later : Nat}
    (notAfter : t ≤ later)
    (inBounds : later < ids.length) :
    numberAt ids t ≤ numberAt ids later := by
  rcases Nat.lt_or_eq_of_le notAfter with before | same
  · exact (increasing.lt before inBounds).le
  · rw [same]

theorem Increasing.pos
    (increasing : Increasing ids)
    {t : Nat}
    (inBounds : t < ids.length) :
    0 < numberAt ids t := by
  rw [numberAt_eq inBounds]
  have nonzero := increasing.nonzero ids[t] (List.getElem_mem inBounds)
  refine Nat.pos_of_ne_zero fun isZero => nonzero ?_
  exact UInt16.toNat_inj.mp isZero

/-! ## What the table holds -/

/-- The numbers up to packet `k` are in the table in their cells. -/
structure Filled
    (ids : List UInt16)
    (k : Nat)
    (table : Nat → Nat) : Prop where
  inBounds : k < ids.length
  holds :
    ∀ t, t ≤ k → k < t + pdrSeqTableSize →
      table (t % pdrSeqTableSize) = numberAt ids t
  unused : ∀ j, k < j → j < pdrSeqTableSize → table j = 0

theorem Logged.filled
    {k : Nat}
    {source : PdrSource}
    (inBounds : k < ids.length)
    (logged : Logged (numberAt ids) 0 k source) :
    Filled ids k (source.storing (numberAt ids k)) := by
  have keeps := logged.keeps_storing
  refine ⟨inBounds, ?_, ?_⟩
  · intro t notAfter notOld
    exact keeps.kept t (Nat.zero_le t) ⟨by omega, by omega⟩
  · intro j behind inTable
    by_contra used
    obtain ⟨t, ⟨before, _⟩, isCell, _⟩ := keeps.cells j inTable used
    rw [Nat.mod_eq_of_lt (by omega)] at isCell
    omega

section

variable {k : Nat}
variable {table : Nat → Nat}

/-- The cells that were written in this round of the table. -/
theorem Filled.before_pointer
    (filled : Filled ids k table)
    {j : Nat}
    (notAfter : j ≤ k % pdrSeqTableSize) :
    table j = numberAt ids (k - k % pdrSeqTableSize + j) := by
  unfold pdrSeqTableSize at notAfter ⊢
  have holds := filled.holds (k - k % 300 + j)
  unfold pdrSeqTableSize at holds
  have cell : (k - k % 300 + j) % 300 = j := by omega
  rw [cell] at holds
  exact holds (by omega) (by omega)

/-- The cells that were written in the round before. -/
theorem Filled.behind_pointer
    (filled : Filled ids k table)
    (full : pdrSeqTableSize ≤ k)
    {j : Nat}
    (behind : k % pdrSeqTableSize < j)
    (inTable : j < pdrSeqTableSize) :
    table j = numberAt ids (k - k % pdrSeqTableSize - pdrSeqTableSize + j) := by
  unfold pdrSeqTableSize at full behind inTable ⊢
  have holds := filled.holds (k - k % 300 - 300 + j)
  unfold pdrSeqTableSize at holds
  have cell : (k - k % 300 - 300 + j) % 300 = j := by omega
  rw [cell] at holds
  exact holds (by omega) (by omega)

/-- A cell in use holds one of the numbers so far. -/
theorem Filled.exists_number
    (filled : Filled ids k table)
    {j : Nat}
    (inTable : j < pdrSeqTableSize)
    (used : table j ≠ 0) :
    ∃ t, t ≤ k ∧ k < t + pdrSeqTableSize ∧ table j = numberAt ids t := by
  rcases Nat.lt_or_ge (k % pdrSeqTableSize) j with behind | notAfter
  · rcases Nat.lt_or_ge k pdrSeqTableSize with notFull | full
    · rw [Nat.mod_eq_of_lt notFull] at behind
      exact absurd (filled.unused j behind inTable) used
    · refine ⟨_, ?_, ?_, filled.behind_pointer full behind inTable⟩ <;>
        unfold pdrSeqTableSize at * <;> omega
  · refine ⟨_, ?_, ?_, filled.before_pointer notAfter⟩ <;>
      unfold pdrSeqTableSize at * <;> omega

/-- No cell is above the newest number. -/
theorem Filled.le_newest
    (increasing : Increasing ids)
    (filled : Filled ids k table)
    {j : Nat}
    (inTable : j < pdrSeqTableSize) :
    table j ≤ numberAt ids k := by
  by_cases unused : table j = 0
  · rw [unused]
    exact Nat.zero_le _
  · obtain ⟨t, notAfter, _, holds⟩ := filled.exists_number inTable unused
    rw [holds]
    exact increasing.le notAfter filled.inBounds

/-! ## What the scan sees -/

/-- The gaps of consecutive cells that hold increasing numbers. -/
theorem sum_gapAt_Ico
    {first last : Nat}
    (ordered : first ≤ last)
    (nonzero : ∀ i, first ≤ i → i ≤ last → table i ≠ 0)
    (grows : ∀ i, first ≤ i → i < last → table i < table (i + 1)) :
    (∑ i ∈ Finset.Ico first last, gapAt table i) + (last - first) +
        table first =
      table last := by
  rw [← sum_gaps ordered grows]
  congr 2
  refine Finset.sum_congr rfl fun i member => ?_
  obtain ⟨notBefore, before⟩ := Finset.mem_Ico.mp member
  exact if_pos ⟨nonzero i notBefore before.le,
    nonzero (i + 1) (by omega) (by omega)⟩

/-- Up to the newest number the cells grow. -/
theorem Filled.sum_before_pointer
    (increasing : Increasing ids)
    (filled : Filled ids k table) :
    (∑ i ∈ Finset.Ico 0 (k % pdrSeqTableSize), gapAt table i) +
        k % pdrSeqTableSize +
        numberAt ids (k - k % pdrSeqTableSize) =
      numberAt ids k := by
  have inBounds := filled.inBounds
  have round := Nat.mod_le k pdrSeqTableSize
  have cells :
      ∀ i, i ≤ k % pdrSeqTableSize →
        table i = numberAt ids (k - k % pdrSeqTableSize + i) :=
    fun i => filled.before_pointer
  have total :
      (∑ i ∈ Finset.Ico 0 (k % pdrSeqTableSize), gapAt table i) +
          (k % pdrSeqTableSize - 0) + table 0 =
        table (k % pdrSeqTableSize) := by
    refine sum_gapAt_Ico (Nat.zero_le _) ?_ ?_
    · intro i _ notAfter
      rw [cells i notAfter]
      exact (increasing.pos (by omega)).ne'
    · intro i _ before
      rw [cells i before.le, cells (i + 1) before]
      exact increasing.lt (by omega) (by omega)
  rw [cells 0 (Nat.zero_le _), cells _ le_rfl, Nat.sub_zero, Nat.add_zero,
    Nat.sub_add_cancel round] at total
  exact total

/-- Behind it, they grow as well. -/
theorem Filled.sum_behind_pointer
    (increasing : Increasing ids)
    (filled : Filled ids k table)
    (full : pdrSeqTableSize ≤ k)
    (notLast : k % pdrSeqTableSize < pdrSeqTableSize - 1) :
    (∑ i ∈ Finset.Ico (k % pdrSeqTableSize + 1) (pdrSeqTableSize - 1),
          gapAt table i) +
        (pdrSeqTableSize - 1 - (k % pdrSeqTableSize + 1)) +
        numberAt ids (k + 1 - pdrSeqTableSize) =
      numberAt ids (k - k % pdrSeqTableSize - 1) := by
  have inBounds := filled.inBounds
  have cells :
      ∀ i, k % pdrSeqTableSize < i → i < pdrSeqTableSize →
        table i =
          numberAt ids (k - k % pdrSeqTableSize - pdrSeqTableSize + i) :=
    fun i => filled.behind_pointer full
  unfold pdrSeqTableSize at full notLast cells ⊢
  have total :
      (∑ i ∈ Finset.Ico (k % 300 + 1) (300 - 1), gapAt table i) +
          (300 - 1 - (k % 300 + 1)) + table (k % 300 + 1) =
        table (300 - 1) := by
    refine sum_gapAt_Ico (by omega) ?_ ?_
    · intro i notBefore notAfter
      rw [cells i (by omega) (by omega)]
      exact (increasing.pos (by omega)).ne'
    · intro i notBefore before
      rw [cells i (by omega) (by omega), cells (i + 1) (by omega) (by omega)]
      exact increasing.lt (by omega) (by omega)
  rw [cells (k % 300 + 1) (by omega) (by omega),
    cells (300 - 1) (by omega) (by omega)] at total
  have oldest : k - k % 300 - 300 + (k % 300 + 1) = k + 1 - 300 := by omega
  have last : k - k % 300 - 300 + (300 - 1) = k - k % 300 - 1 := by omega
  rw [oldest, last] at total
  exact total

/-- The smallest number of the scan is the one in its smallest cell. -/
theorem ScanSees.minSeq_eq
    {seqNum passes : Nat}
    {scan : PdrScan}
    (sees : ScanSees table seqNum passes scan)
    {i : Nat}
    (inScan : i < passes)
    (scanned : Scanned table i)
    (notNewer : table i ≤ seqNum)
    (least : ∀ j, j < passes → Scanned table j → table i ≤ table j) :
    scan.minSeq = table i := by
  refine Nat.le_antisymm (sees.le_scanned i inScan scanned) ?_
  rcases sees.minSeq with isNewest | ⟨j, before, isScanned, isMin⟩
  · rw [isNewest]
    exact notNewer
  · rw [isMin]
    exact least j before isScanned

variable {scan : PdrScan}

/-- The window does not go over the end of the table: every step is compared. -/
theorem Filled.sees_whole
    (increasing : Increasing ids)
    (filled : Filled ids k table)
    (sees :
      ScanSees table (numberAt ids k) (pdrSeqTableSize - 1) scan)
    (atLeastTwo : 1 ≤ k)
    (whole :
      k < pdrSeqTableSize ∨ k % pdrSeqTableSize = pdrSeqTableSize - 1) :
    scan.missed + k % pdrSeqTableSize +
          numberAt ids (k - k % pdrSeqTableSize) =
        numberAt ids k ∧
      scan.minSeq = numberAt ids (k - k % pdrSeqTableSize) := by
  have inBounds := filled.inBounds
  have total := filled.sum_before_pointer increasing
  have round := Nat.mod_le k pdrSeqTableSize
  have somewhere : 1 ≤ k % pdrSeqTableSize := by
    unfold pdrSeqTableSize at whole ⊢
    omega
  have pointer : k % pdrSeqTableSize ≤ pdrSeqTableSize - 1 := by
    unfold pdrSeqTableSize
    omega
  have unscanned :
      ∀ i, k % pdrSeqTableSize ≤ i → i < pdrSeqTableSize - 1 →
        ¬ Scanned table i := by
    intro i notBefore inScan scanned
    rcases whole with notFull | last
    · rw [Nat.mod_eq_of_lt notFull] at notBefore
      exact scanned.2
        (filled.unused (i + 1) (by omega) (by omega))
    · omega
  constructor
  · have behind :
        (∑ i ∈ Finset.Ico (k % pdrSeqTableSize) (pdrSeqTableSize - 1),
          gapAt table i) = 0 := by
      refine Finset.sum_eq_zero fun i member => ?_
      obtain ⟨notBefore, inScan⟩ := Finset.mem_Ico.mp member
      exact if_neg (unscanned i notBefore inScan)
    have consecutive :=
      Finset.sum_Ico_consecutive (gapAt table) (Nat.zero_le _) pointer
    rw [sees.missed, Finset.range_eq_Ico]
    omega
  · have first : table 0 = numberAt ids (k - k % pdrSeqTableSize) :=
      filled.before_pointer (Nat.zero_le _)
    have second : table 1 = numberAt ids (k - k % pdrSeqTableSize + 1) :=
      filled.before_pointer somewhere
    rw [← first]
    refine sees.minSeq_eq (by unfold pdrSeqTableSize; omega) ?_ ?_ ?_
    · refine ⟨?_, ?_⟩
      · rw [first]
        exact (increasing.pos (by omega)).ne'
      · rw [second]
        exact (increasing.pos (by omega)).ne'
    · rw [first]
      exact increasing.le (by omega) inBounds
    · intro j inScan scanned
      have before : j < k % pdrSeqTableSize := by
        by_contra notBefore
        exact unscanned j (by omega) inScan scanned
      rw [first, filled.before_pointer before.le]
      exact increasing.le (by omega) (by omega)

/-- The newest number is in the cell of the pointer. -/
theorem Filled.newest_cell
    (filled : Filled ids k table) :
    table (k % pdrSeqTableSize) = numberAt ids k := by
  have holds : table (k % pdrSeqTableSize) = _ :=
    filled.before_pointer le_rfl
  rw [Nat.sub_add_cancel (Nat.mod_le k _)] at holds
  exact holds

/-- The oldest number is in the cell behind it. -/
theorem Filled.oldest_cell
    (filled : Filled ids k table)
    (full : pdrSeqTableSize ≤ k)
    (notLast : k % pdrSeqTableSize < pdrSeqTableSize - 1) :
    table (k % pdrSeqTableSize + 1) =
      numberAt ids (k + 1 - pdrSeqTableSize) := by
  have holds : table (k % pdrSeqTableSize + 1) = _ :=
    filled.behind_pointer full (Nat.lt_succ_self _) (by omega)
  have isOldest :
      k - k % pdrSeqTableSize - pdrSeqTableSize +
          (k % pdrSeqTableSize + 1) =
        k + 1 - pdrSeqTableSize := by
    unfold pdrSeqTableSize at full ⊢
    omega
  rw [holds, isOldest]

/-- Every cell of a full table is in use. -/
theorem Filled.used_of_full
    (increasing : Increasing ids)
    (filled : Filled ids k table)
    (full : pdrSeqTableSize ≤ k)
    {j : Nat}
    (inTable : j < pdrSeqTableSize) :
    table j ≠ 0 := by
  have inBounds := filled.inBounds
  rcases Nat.lt_or_ge (k % pdrSeqTableSize) j with isBehind | notAfter
  · rw [filled.behind_pointer full isBehind inTable]
    refine (increasing.pos ?_).ne'
    unfold pdrSeqTableSize at full inTable ⊢
    omega
  · rw [filled.before_pointer notAfter]
    refine (increasing.pos ?_).ne'
    omega

/-- No cell of a full table is below the oldest number. -/
theorem Filled.oldest_le
    (increasing : Increasing ids)
    (filled : Filled ids k table)
    (full : pdrSeqTableSize ≤ k)
    {j : Nat}
    (inTable : j < pdrSeqTableSize) :
    numberAt ids (k + 1 - pdrSeqTableSize) ≤ table j := by
  have inBounds := filled.inBounds
  obtain ⟨t, notAfter, notOld, holds⟩ :=
    filled.exists_number inTable
      (filled.used_of_full increasing full inTable)
  rw [holds]
  exact increasing.le (by omega) (by omega)

/-- The window goes over the end: one step is not compared. -/
theorem Filled.missed_overEnd
    (increasing : Increasing ids)
    (filled : Filled ids k table)
    (sees :
      ScanSees table (numberAt ids k) (pdrSeqTableSize - 1) scan)
    (full : pdrSeqTableSize ≤ k)
    (notLast : k % pdrSeqTableSize < pdrSeqTableSize - 1) :
    scan.missed + (pdrSeqTableSize - 2) +
        numberAt ids (k - k % pdrSeqTableSize) +
        numberAt ids (k + 1 - pdrSeqTableSize) =
      numberAt ids k + numberAt ids (k - k % pdrSeqTableSize - 1) := by
  have before := filled.sum_before_pointer increasing
  have behind := filled.sum_behind_pointer increasing full notLast
  -- From the newest number to the oldest one the cells do not grow.
  have pointerGap : gapAt table (k % pdrSeqTableSize) = 0 := by
    have notNewer :=
      filled.oldest_le increasing full
        (by omega : k % pdrSeqTableSize < pdrSeqTableSize)
    have newest := filled.newest_cell
    unfold gapAt
    rw [newest, filled.oldest_cell full notLast]
    rw [newest] at notNewer
    split <;> omega
  have first :=
    Finset.sum_Ico_consecutive (gapAt table) (Nat.zero_le _)
      (by omega : k % pdrSeqTableSize + 1 ≤ pdrSeqTableSize - 1)
  have second :=
    Finset.sum_Ico_succ_top (Nat.zero_le (k % pdrSeqTableSize))
      (gapAt table)
  rw [sees.missed, Finset.range_eq_Ico]
  omega

/-- The oldest number is not seen in the last cell of the table. -/
theorem Filled.minSeq_overEnd
    (increasing : Increasing ids)
    (filled : Filled ids k table)
    (sees :
      ScanSees table (numberAt ids k) (pdrSeqTableSize - 1) scan)
    (full : pdrSeqTableSize ≤ k)
    (notLast : k % pdrSeqTableSize < pdrSeqTableSize - 1) :
    scan.minSeq =
      if k % pdrSeqTableSize = pdrSeqTableSize - 2 then
        numberAt ids (k - k % pdrSeqTableSize)
      else
        numberAt ids (k + 1 - pdrSeqTableSize) := by
  have inBounds := filled.inBounds
  have used :
      ∀ j, j < pdrSeqTableSize → table j ≠ 0 :=
    fun j => filled.used_of_full increasing full
  split
  · rename_i atEnd
    have cell : table 0 = numberAt ids (k - k % pdrSeqTableSize) :=
      filled.before_pointer (Nat.zero_le _)
    rw [← cell]
    refine sees.minSeq_eq (by decide) ?_ ?_ ?_
    · exact ⟨used 0 (by decide), used 1 (by decide)⟩
    · rw [cell]
      exact increasing.le (Nat.sub_le _ _) inBounds
    · intro j inScan _
      rw [cell, filled.before_pointer (by omega)]
      exact increasing.le (by omega) (by omega)
  · rename_i notAtEnd
    have oldest := filled.oldest_cell full notLast
    rw [← oldest]
    refine sees.minSeq_eq (by omega) ?_ ?_ ?_
    · exact ⟨used _ (by omega), used _ (by omega)⟩
    · rw [oldest]
      exact increasing.le (by omega) inBounds
    · intro j inScan _
      rw [oldest]
      exact filled.oldest_le increasing full (by omega)

end

/-! ## The estimate after the last packet -/

/-- The numbers so far are logged, and no reset has cleared them. -/
theorem logged_take
    (increasing : Increasing ids)
    {k : Nat}
    (inBounds : k ≤ ids.length) :
    Logged (numberAt ids) 0 k ((ids.take k).foldl PdrSource.update .init) := by
  induction k with
  | zero =>
      exact logged_init (numberAt ids)
  | succ k inductionHypothesis =>
      have earlier := inductionHypothesis (by omega)
      have filled := earlier.filled (by omega : k < ids.length)
      rw [← List.take_append_getElem (by omega : k < ids.length),
        List.foldl_append]
      exact (earlier.update_of_le (numberAt_eq (by omega)).symm
        fun i inScan _ => filled.le_newest increasing (by omega)).1

/-- What the scan sees after the last packet, and the estimate from it. -/
theorem exists_lastScan
    (increasing : Increasing ids)
    {k : Nat}
    (isLast : ids.length = k + 1) :
    ∃ table scan,
      Filled ids k table ∧
        ScanSees table (numberAt ids k) (pdrSeqTableSize - 1) scan ∧
        (numberAt ids k - scan.minSeq ≠ 0 →
          (ids.foldl PdrSource.update .init).pdrIn =
            pdrOfScan (numberAt ids k) scan) := by
  have earlier := logged_take increasing (by omega : k ≤ ids.length)
  have filled := earlier.filled (by omega : k < ids.length)
  obtain ⟨_, _, scan, sees, estimate⟩ :=
    earlier.update_of_le (numberAt_eq (by omega : k < ids.length)).symm
      fun i inScan _ => filled.le_newest increasing (by omega)
  refine ⟨_, scan, filled, sees, fun nonzero => ?_⟩
  rw [if_neg nonzero] at estimate
  have whole : ids.take k ++ [ids[k]] = ids := by
    rw [List.take_append_getElem]
    exact List.take_of_length_le (by omega)
  rw [← estimate]
  conv_lhs => rw [← whole]
  rw [List.foldl_append]
  rfl

/-- Numbers that grow have an exact difference. -/
theorem cast_numberAt_sub
    (increasing : Increasing ids)
    {t later : Nat}
    (notAfter : t ≤ later)
    (inBounds : later < ids.length) :
    ((numberAt ids later - numberAt ids t : Nat) : ℚ) =
      (numberAt ids later : ℚ) - numberAt ids t :=
  Nat.cast_sub (increasing.le notAfter inBounds)

/-- A window that does not go over the end is estimated exactly. -/
theorem pdrIn_of_whole
    (increasing : Increasing ids)
    {k : Nat}
    (isLast : ids.length = k + 1)
    (atLeastTwo : 1 ≤ k)
    (whole :
      k < pdrSeqTableSize ∨ k % pdrSeqTableSize = pdrSeqTableSize - 1) :
    (ids.foldl PdrSource.update .init).pdrIn = deliveryRatio ids := by
  obtain ⟨table, scan, filled, sees, estimate⟩ :=
    exists_lastScan increasing isLast
  obtain ⟨missed, minSeq⟩ :=
    filled.sees_whole increasing sees atLeastTwo whole
  have pointer : k % pdrSeqTableSize + 1 = windowLength ids := by
    unfold windowLength
    unfold pdrSeqTableSize at whole ⊢
    omega
  have somewhere : 1 ≤ k % pdrSeqTableSize := by
    unfold pdrSeqTableSize at whole ⊢
    omega
  have round := Nat.mod_le k pdrSeqTableSize
  have grows :
      numberAt ids (k - k % pdrSeqTableSize) < numberAt ids k :=
    increasing.lt (by omega) (by omega)
  rw [estimate (by omega),
    pdrOfScan_eq (by omega : k % pdrSeqTableSize + scan.missed = _)
      (by omega),
    minSeq, cast_numberAt_sub increasing (Nat.sub_le _ _) (by omega),
    deliveryRatio, ← pointer, isLast]
  have first : k + 1 - (k % pdrSeqTableSize + 1) = k - k % pdrSeqTableSize := by
    omega
  rw [first, Nat.add_sub_cancel]
  push_cast
  ring

theorem firstCellPacket_eq
    {k : Nat}
    (isLast : ids.length = k + 1) :
    firstCellPacket ids = k - k % pdrSeqTableSize := by
  rw [firstCellPacket, isLast, Nat.add_sub_cancel]
  have splits := Nat.div_add_mod' k pdrSeqTableSize
  omega

/-- Over the end of the table, the step there is taken for one. -/
theorem pdrIn_of_overEnd
    (increasing : Increasing ids)
    {k : Nat}
    (isLast : ids.length = k + 1)
    (full : pdrSeqTableSize ≤ k)
    (notLast : k % pdrSeqTableSize < pdrSeqTableSize - 1) :
    (ids.foldl PdrSource.update .init).pdrIn =
      if k % pdrSeqTableSize = pdrSeqTableSize - 2 then
        100 * 298 / spanFromFirstCell ids
      else
        100 * (298 + stepOverEnd ids) /
          ((numberAt ids k : ℚ) - numberAt ids (k + 1 - pdrSeqTableSize)) := by
  obtain ⟨table, scan, filled, sees, estimate⟩ :=
    exists_lastScan increasing isLast
  have missed := filled.missed_overEnd increasing sees full notLast
  have minSeq := filled.minSeq_overEnd increasing sees full notLast
  have round : pdrSeqTableSize ≤ k - k % pdrSeqTableSize := by
    unfold pdrSeqTableSize at full ⊢
    omega
  have first := firstCellPacket_eq isLast
  have stepGrows :
      numberAt ids (k - k % pdrSeqTableSize - 1) <
        numberAt ids (k - k % pdrSeqTableSize) :=
    increasing.lt (by unfold pdrSeqTableSize at round ⊢; omega) (by omega)
  by_cases atEnd : k % pdrSeqTableSize = pdrSeqTableSize - 2
  · rw [if_pos atEnd] at minSeq ⊢
    have oldest :
        k + 1 - pdrSeqTableSize = k - k % pdrSeqTableSize - 1 := by
      unfold pdrSeqTableSize at atEnd full ⊢
      omega
    have spanGrows :
        numberAt ids (k - k % pdrSeqTableSize) < numberAt ids k :=
      increasing.lt (by unfold pdrSeqTableSize at atEnd ⊢; omega) (by omega)
    rw [oldest] at missed
    have splits : 298 + scan.missed = numberAt ids k - scan.minSeq := by
      unfold pdrSeqTableSize at missed minSeq
      omega
    rw [estimate (by omega), pdrOfScan_eq splits (by omega), minSeq,
      cast_numberAt_sub increasing (Nat.sub_le _ _) (by omega),
      spanFromFirstCell, first, isLast, Nat.add_sub_cancel]
    rfl
  · rw [if_neg atEnd] at minSeq ⊢
    have grows :
        numberAt ids (k + 1 - pdrSeqTableSize) < numberAt ids k :=
      increasing.lt (by unfold pdrSeqTableSize at full ⊢; omega) (by omega)
    have splits :
        298 +
            (numberAt ids (k - k % pdrSeqTableSize) -
              numberAt ids (k - k % pdrSeqTableSize - 1)) +
            scan.missed =
          numberAt ids k - scan.minSeq := by
      unfold pdrSeqTableSize at *
      omega
    rw [estimate (by omega), pdrOfScan_eq splits (by omega), minSeq,
      cast_numberAt_sub increasing (by omega) (by omega), Nat.cast_add,
      cast_numberAt_sub increasing (by omega) (by omega), stepOverEnd, first]
    rfl

/-- What the condition says when the window goes over the end of the table. -/
theorem stepOverEndHarmless_of_overEnd
    {k : Nat}
    (isLast : ids.length = k + 1)
    (full : pdrSeqTableSize ≤ k)
    (notLast : k % pdrSeqTableSize < pdrSeqTableSize - 1) :
    StepOverEndHarmless ids ↔
      if k % pdrSeqTableSize = pdrSeqTableSize - 2 then
        298 * stepOverEnd ids = spanFromFirstCell ids
      else
        stepOverEnd ids = 1 := by
  unfold StepOverEndHarmless
  rw [isLast]
  have longer : ¬ k + 1 ≤ pdrSeqTableSize := by omega
  have notWhole : ¬ (k + 1) % pdrSeqTableSize = 0 := by
    unfold pdrSeqTableSize at notLast ⊢
    omega
  have position :
      (k + 1) % pdrSeqTableSize = pdrSeqTableSize - 1 ↔
        k % pdrSeqTableSize = pdrSeqTableSize - 2 := by
    unfold pdrSeqTableSize
    omega
  by_cases atEnd : k % pdrSeqTableSize = pdrSeqTableSize - 2
  · simp only [if_pos atEnd, eq_true (position.mpr atEnd), longer, notWhole,
      false_or, true_and, not_true_eq_false, ne_eq, false_and]
  · simp only [if_neg atEnd, position.not.mpr atEnd, longer, notWhole,
      false_or, true_and, not_false_eq_true, ne_eq, false_and, or_false]

/-- A window over the end of the table has as many numbers as the table. -/
theorem deliveryRatio_of_overEnd
    {k : Nat}
    (isLast : ids.length = k + 1)
    (full : pdrSeqTableSize ≤ k) :
    deliveryRatio ids =
      100 * 299 /
        ((numberAt ids k : ℚ) - numberAt ids (k + 1 - pdrSeqTableSize)) := by
  have length : windowLength ids = pdrSeqTableSize := by
    unfold windowLength
    omega
  rw [deliveryRatio, length, isLast, Nat.add_sub_cancel]
  congr 2
  norm_num [pdrSeqTableSize]

/-- Numbers that grow have a positive difference. -/
theorem sub_numberAt_pos
    (increasing : Increasing ids)
    {t later : Nat}
    (before : t < later)
    (inBounds : later < ids.length) :
    (0 : ℚ) < (numberAt ids later : ℚ) - numberAt ids t := by
  rw [sub_pos]
  exact_mod_cast increasing.lt before inBounds

/-- When the oldest number is in the last cell, the estimate leaves it out. -/
theorem estimate_eq_ratio_iff_atEnd
    (increasing : Increasing ids)
    {k : Nat}
    (isLast : ids.length = k + 1)
    (full : pdrSeqTableSize ≤ k)
    (atEnd : k % pdrSeqTableSize = pdrSeqTableSize - 2) :
    100 * 298 / spanFromFirstCell ids =
        100 * 299 /
          ((numberAt ids k : ℚ) - numberAt ids (k + 1 - pdrSeqTableSize)) ↔
      298 * stepOverEnd ids = spanFromFirstCell ids := by
  have first := firstCellPacket_eq isLast
  -- The oldest number is the one before that in the first cell.
  have oldest :
      k + 1 - pdrSeqTableSize = k - k % pdrSeqTableSize - 1 := by
    unfold pdrSeqTableSize at atEnd full ⊢
    omega
  have spans :
      (numberAt ids k : ℚ) - numberAt ids (k + 1 - pdrSeqTableSize) =
        spanFromFirstCell ids + stepOverEnd ids := by
    rw [spanFromFirstCell, stepOverEnd, first, isLast, Nat.add_sub_cancel,
      oldest]
    ring
  have grows :
      (0 : ℚ) <
        (numberAt ids k : ℚ) - numberAt ids (k + 1 - pdrSeqTableSize) :=
    sub_numberAt_pos increasing (by unfold pdrSeqTableSize; omega) (by omega)
  have spanGrows : (0 : ℚ) < spanFromFirstCell ids := by
    rw [spanFromFirstCell, first, isLast, Nat.add_sub_cancel]
    exact sub_numberAt_pos increasing
      (by unfold pdrSeqTableSize at atEnd ⊢; omega) (by omega)
  rw [spans] at grows ⊢
  rw [div_eq_div_iff spanGrows.ne' grows.ne']
  constructor
  · intro same
    linarith
  · intro same
    linarith

/--
After at least two increasing numbers, the estimate is the delivery ratio of
the window exactly when the step over the end of the table does no harm.
-/
theorem pdrIn_eq_deliveryRatio_iff
    (increasing : Increasing ids)
    (atLeastTwo : 2 ≤ ids.length) :
    (ids.foldl PdrSource.update .init).pdrIn = deliveryRatio ids ↔
      StepOverEndHarmless ids := by
  obtain ⟨k, isLast⟩ : ∃ k, ids.length = k + 1 :=
    ⟨ids.length - 1, by omega⟩
  by_cases whole :
      k < pdrSeqTableSize ∨ k % pdrSeqTableSize = pdrSeqTableSize - 1
  · refine iff_of_true
      (pdrIn_of_whole increasing isLast (by omega) whole) ?_
    rcases whole with notFull | last
    · exact .inl (by omega)
    · refine .inr (.inl ?_)
      unfold pdrSeqTableSize at last ⊢
      omega
  · obtain ⟨notFull, notLast⟩ := not_or.mp whole
    rw [not_lt] at notFull
    have inTable : k % pdrSeqTableSize < pdrSeqTableSize :=
      Nat.mod_lt k (by decide)
    rw [pdrIn_of_overEnd increasing isLast notFull (by omega),
      deliveryRatio_of_overEnd isLast notFull,
      stepOverEndHarmless_of_overEnd isLast notFull (by omega)]
    by_cases atEnd : k % pdrSeqTableSize = pdrSeqTableSize - 2
    · rw [if_pos atEnd, if_pos atEnd]
      exact estimate_eq_ratio_iff_atEnd increasing isLast notFull atEnd
    · rw [if_neg atEnd, if_neg atEnd]
      -- The step over the end is taken for one.
      have grows :
          (0 : ℚ) <
            (numberAt ids k : ℚ) -
              numberAt ids (k + 1 - pdrSeqTableSize) :=
        sub_numberAt_pos increasing (by unfold pdrSeqTableSize; omega)
          (by omega)
      rw [div_left_inj' grows.ne']
      constructor
      · intro same
        linarith
      · intro same
        linarith

end

/--
For every source and every list of packets whose numbers from that source
increase from 1 on, at least two of them: `pdr_get` is the delivery ratio of
the last numbers, up to the size of the table, exactly when the step over the
end of the table does no harm.
-/
theorem pdr_estimatesDelivery_iff
    {srcId : UInt8}
    (isSource : hasRow srcId = true)
    {packets : List (UInt8 × UInt16)}
    (increasing : Increasing (msgIdsOf srcId packets))
    (atLeastTwo : 2 ≤ (msgIdsOf srcId packets).length) :
    pdrGet (pdrAfter packets) srcId =
        deliveryRatio (msgIdsOf srcId packets) ↔
      StepOverEndHarmless (msgIdsOf srcId packets) := by
  rw [pdrGet_pdrAfter isSource]
  exact pdrIn_eq_deliveryRatio_iff increasing atLeastTwo

/-- Numbers 1 to 300 fill the table of node 2, and the next one is 302. -/
def skipsAfterFull : List UInt16 :=
  (List.range 300).map (fun t => UInt16.ofNat (t + 1)) ++ [302]

theorem increasing_skipsAfterFull : Increasing skipsAfterFull where
  ordered := by
    rw [← List.isChain_iff_pairwise]
    decide +kernel
  nonzero := by
    have checked : skipsAfterFull.all (· != 0) = true := by
      decide +kernel
    simpa using checked

/-- Packets of node 2, and none of other nodes. -/
def packetsOfSecond (ids : List UInt16) : List (UInt8 × UInt16) :=
  ids.map fun id => (2, id)

theorem msgIdsOf_packetsOfSecond (ids : List UInt16) :
    msgIdsOf 2 (packetsOfSecond ids) = ids := by
  induction ids with
  | nil =>
      rfl
  | cons id rest inductionHypothesis =>
      simpa [msgIdsOf, packetsOfSecond] using inductionHypothesis

/-- Up to the full table the estimate is exact, with any gaps. -/
theorem pdr_estimatesDelivery_threeNumbers :
    pdrGet (pdrAfter (packetsOfSecond [5, 6, 9])) 2 = 50 := by
  have isNumbers := msgIdsOf_packetsOfSecond [5, 6, 9]
  have increasing : Increasing (msgIdsOf 2 (packetsOfSecond [5, 6, 9])) := by
    rw [isNumbers]
    exact ⟨by decide, by simp⟩
  have harmless :
      StepOverEndHarmless (msgIdsOf 2 (packetsOfSecond [5, 6, 9])) := by
    rw [isNumbers]
    exact .inl (by decide)
  have ratio : deliveryRatio [5, 6, 9] = 50 := by
    decide +kernel
  rw [(pdr_estimatesDelivery_iff (by decide) increasing
    (by rw [isNumbers]; decide)).mpr harmless, isNumbers, ratio]

theorem not_harmless_skipsAfterFull :
    ¬ StepOverEndHarmless skipsAfterFull := by
  have length : skipsAfterFull.length = 300 + 1 := by
    decide +kernel
  have step : stepOverEnd skipsAfterFull = 2 := by
    decide +kernel
  rw [stepOverEndHarmless_of_overEnd length (by decide) (by decide),
    if_neg (by decide), step]
  norm_num

/-- Behind the full table the missing 301 is not counted. -/
theorem pdr_overestimates_skipsAfterFull :
    ¬ ∀ (srcId : UInt8) (packets : List (UInt8 × UInt16)),
      hasRow srcId = true →
      Increasing (msgIdsOf srcId packets) →
      2 ≤ (msgIdsOf srcId packets).length →
        pdrGet (pdrAfter packets) srcId =
          deliveryRatio (msgIdsOf srcId packets) := by
  intro always
  have isNumbers := msgIdsOf_packetsOfSecond skipsAfterFull
  have estimate := always 2 (packetsOfSecond skipsAfterFull) (by decide)
  rw [pdrGet_pdrAfter (by decide), isNumbers] at estimate
  have atLeastTwo : 2 ≤ skipsAfterFull.length := by
    decide +kernel
  exact not_harmless_skipsAfterFull
    ((pdrIn_eq_deliveryRatio_iff increasing_skipsAfterFull atLeastTwo).mp
      (estimate increasing_skipsAfterFull atLeastTwo))

end RoutingMesh
