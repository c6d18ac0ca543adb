import Mathlib.Algebra.Order.Floor.Ring
import Mathlib.Data.Rat.Floor
import Mathlib.Tactic.Linarith
import Mathlib.Tactic.Ring
import RoutingMesh.CircularLog
import RoutingMesh.Matrix
import RoutingMesh.PeriodicTime

/-!
# The packet delivery ratio

Model of `pdr.c`: the circular table of message numbers of each source, the
scan of the table for gaps, and the calls of `MATRIX_setLinkQuality`.  The
ratio is an exact rational.
-/

namespace RoutingMesh

open CircularLog PeriodicTime

/-- `PDR_SEQ_TABLE_SIZE`. -/
def pdrSeqTableSize : Nat := 300

/-- `PDR_UPDATE_INTERVAL`. -/
def pdrUpdateInterval : Nat := 10

/--
What `pdr.c` keeps of one source: its row of `g_seq_table`, and its entries of
`g_seq_w_ptr`, `g_pdr_in` and `g_pkt_count`.
-/
structure PdrSource where
  seqTable : Nat → Nat
  seqWPtr : Nat
  pdrIn : ℚ
  pktCount : UInt16

/-- The sources, and the arguments of the calls of `MATRIX_setLinkQuality`. -/
structure PdrState where
  source : Nat → PdrSource
  pushed : List (UInt8 × UInt8)

/-- A source as `pdr_init` leaves it. -/
def PdrSource.init : PdrSource where
  seqTable := fun _ => 0
  seqWPtr := 0
  pdrIn := -1
  pktCount := 0

/-- `pdr_init`. -/
def pdrInit : PdrState where
  source := fun _ => .init
  pushed := []

/-- What the scan of the table accumulates. -/
structure PdrScan where
  missed : Nat
  minSeq : Nat
  deriving Repr, DecidableEq

/-- One pass of the scan; there is no result where the table is reset. -/
def scanEntry
    (table : Nat → Nat)
    (seqNum : Nat)
    (scan : PdrScan)
    (i : Nat) : Option PdrScan :=
  let cur := i % pdrSeqTableSize
  let next := (i + 1) % pdrSeqTableSize
  if table cur = 0 then
    some scan
  else if table next = 0 then
    some scan
  else
    let diff : ℤ := (table next : ℤ) - table cur - 1
    let missed := if diff > 0 then scan.missed + diff.toNat else scan.missed
    let minSeq := if table cur < scan.minSeq then table cur else scan.minSeq
    if table cur > seqNum then
      none
    else
      some { missed := missed, minSeq := minSeq }

/-- The first passes of the scan. -/
def scanTable
    (table : Nat → Nat)
    (seqNum passes : Nat) : Option PdrScan :=
  (List.range passes).foldlM (scanEntry table seqNum)
    { missed := 0, minSeq := seqNum }

/-- The new value of `g_pdr_in`, limited to 0 and 100. -/
def pdrOfScan (seqNum : Nat) (scan : PdrScan) : ℚ :=
  let range : ℚ := ((seqNum - scan.minSeq : Nat) : ℚ)
  let pdr := 100 * (range - scan.missed) / range
  let atLeast := if pdr < 0 then 0 else pdr
  if atLeast > 100 then 100 else atLeast

/-- `pdr_estimate`. -/
def PdrSource.estimate (source : PdrSource) (seqNum : Nat) : PdrSource :=
  let stored :=
    { source with
      seqTable := Function.update source.seqTable source.seqWPtr seqNum
      seqWPtr := (source.seqWPtr + 1) % pdrSeqTableSize }
  match scanTable stored.seqTable seqNum (pdrSeqTableSize - 1) with
  | none => { stored with seqTable := fun _ => 0 }
  | some scan =>
      if seqNum - scan.minSeq = 0 then
        stored
      else
        { stored with pdrIn := pdrOfScan seqNum scan }

/-- `pdr_update`, for a source that has a row. -/
def PdrSource.update (source : PdrSource) (msgId : UInt16) : PdrSource :=
  { source with pktCount := source.pktCount + 1 }.estimate msgId.toNat

/-- What `pdr_update` gives to `MATRIX_setLinkQuality` after the estimate. -/
def PdrSource.quality (source : PdrSource) : Option UInt8 :=
  if source.pktCount.toNat % pdrUpdateInterval = 0 then
    if source.pdrIn ≥ 0 then
      some (UInt8.ofNat (truncate source.pdrIn).toNat)
    else
      none
  else
    none

/-- The identifiers that have a row. -/
def hasRow (srcId : UInt8) : Bool :=
  decide (srcId ≠ 0 ∧ srcId.toNat ≤ maxNodes)

/-- `pdr_update`. -/
def pdrUpdate (state : PdrState) (srcId : UInt8) (msgId : UInt16) : PdrState :=
  if hasRow srcId then
    let updated := (state.source srcId.toNat).update msgId
    { source := Function.update state.source srcId.toNat updated
      pushed :=
        state.pushed ++
          updated.quality.toList.map fun quality => (srcId, quality) }
  else
    state

/-- `pdr_get`. -/
def pdrGet (state : PdrState) (srcId : UInt8) : ℚ :=
  if hasRow srcId then (state.source srcId.toNat).pdrIn else -1

/-- The calls of `pdr_update` for a list of packets, from `pdr_init`. -/
def pdrAfter (packets : List (UInt8 × UInt16)) : PdrState :=
  packets.foldl (fun state packet => pdrUpdate state packet.1 packet.2) pdrInit

/-- The message numbers that came from a source, in order. -/
def msgIdsOf (srcId : UInt8) (packets : List (UInt8 × UInt16)) : List UInt16 :=
  (packets.filter fun packet => packet.1 == srcId).map Prod.snd

/-! ## Each source by itself -/

section

variable {srcId : UInt8}

theorem msgIdsOf_append
    (packets more : List (UInt8 × UInt16)) :
    msgIdsOf srcId (packets ++ more) =
      msgIdsOf srcId packets ++ msgIdsOf srcId more := by
  simp [msgIdsOf]

/-- A source has seen its own packets and no others. -/
theorem source_pdrAfter
    (isSource : hasRow srcId = true)
    (packets : List (UInt8 × UInt16)) :
    (pdrAfter packets).source srcId.toNat =
      (msgIdsOf srcId packets).foldl PdrSource.update .init := by
  induction packets using List.reverseRecOn with
  | nil =>
      rfl
  | append_singleton packets packet inductionHypothesis =>
      rw [msgIdsOf_append, List.foldl_append, ← inductionHypothesis, pdrAfter,
        List.foldl_append, ← pdrAfter]
      simp only [List.foldl_cons, List.foldl_nil, pdrUpdate]
      by_cases own : packet.1 = srcId
      · rw [own, if_pos isSource]
        simp [msgIdsOf, own]
      · have others : msgIdsOf srcId [packet] = [] := by
          simp [msgIdsOf, own]
        rw [others, List.foldl_nil]
        split
        · dsimp only
          rw [Function.update_of_ne]
          exact fun same => own (UInt8.toNat_inj.mp same).symm
        · rfl

theorem pdrGet_pdrAfter
    (isSource : hasRow srcId = true)
    (packets : List (UInt8 × UInt16)) :
    pdrGet (pdrAfter packets) srcId =
      ((msgIdsOf srcId packets).foldl PdrSource.update .init).pdrIn := by
  rw [pdrGet, if_pos isSource, source_pdrAfter isSource]

/-- What is pushed for a source comes from the state after one of its packets. -/
theorem quality_of_pushed
    (isSource : hasRow srcId = true)
    {packets : List (UInt8 × UInt16)}
    {quality : UInt8}
    (pushed : (srcId, quality) ∈ (pdrAfter packets).pushed) :
    ∃ ids, ids <+: msgIdsOf srcId packets ∧
      (ids.foldl PdrSource.update .init).quality = some quality := by
  induction packets using List.reverseRecOn with
  | nil =>
      cases pushed
  | append_singleton packets packet inductionHypothesis =>
      have later :
          (srcId, quality) ∈ (pdrAfter packets).pushed →
            ∃ ids, ids <+: msgIdsOf srcId (packets ++ [packet]) ∧
              (ids.foldl PdrSource.update .init).quality = some quality := by
        intro earlier
        obtain ⟨ids, isPrefix, gives⟩ := inductionHypothesis earlier
        rw [msgIdsOf_append]
        exact ⟨ids, isPrefix.trans (List.prefix_append _ _), gives⟩
      rw [pdrAfter, List.foldl_append, ← pdrAfter] at pushed
      simp only [List.foldl_cons, List.foldl_nil, pdrUpdate] at pushed
      by_cases own : packet.1 = srcId
      · rw [own, if_pos isSource] at pushed
        rcases List.mem_append.mp pushed with earlier | last
        · exact later earlier
        · refine ⟨msgIdsOf srcId (packets ++ [packet]), List.prefix_rfl, ?_⟩
          rw [source_pdrAfter isSource] at last
          rw [msgIdsOf_append, List.foldl_append]
          simpa [msgIdsOf, own] using last
      · split at pushed
        · rcases List.mem_append.mp pushed with earlier | last
          · exact later earlier
          · obtain ⟨_, _, same⟩ := List.mem_map.mp last
            exact absurd (congrArg Prod.fst same) own
        · exact later pushed

end

/-! ## The scan -/

/-- A cell that the scan compares with the next one. -/
def Scanned (table : Nat → Nat) (i : Nat) : Prop :=
  table i ≠ 0 ∧ table (i + 1) ≠ 0

instance (table : Nat → Nat) (i : Nat) : Decidable (Scanned table i) :=
  inferInstanceAs (Decidable (_ ∧ _))

/-- How many numbers are missing between a cell and the next one. -/
def gapAt (table : Nat → Nat) (i : Nat) : Nat :=
  if Scanned table i then table (i + 1) - table i - 1 else 0

/-- What the scan has seen after its first passes. -/
structure ScanSees
    (table : Nat → Nat)
    (seqNum passes : Nat)
    (scan : PdrScan) : Prop where
  missed : scan.missed = ∑ i ∈ Finset.range passes, gapAt table i
  minSeq :
    scan.minSeq = seqNum ∨
      ∃ i, i < passes ∧ Scanned table i ∧ scan.minSeq = table i
  le_seqNum : scan.minSeq ≤ seqNum
  le_scanned : ∀ i, i < passes → Scanned table i → scan.minSeq ≤ table i

section

variable {table : Nat → Nat}
variable {seqNum passes : Nat}

/-- A pass of the scan, within the table. -/
theorem scanEntry_eq
    {i : Nat}
    (inTable : i < pdrSeqTableSize - 1)
    (scan : PdrScan) :
    scanEntry table seqNum scan i =
      if Scanned table i then
        if table i > seqNum then
          none
        else
          some
            { missed := scan.missed + gapAt table i
              minSeq := min scan.minSeq (table i) }
      else
        some scan := by
  unfold pdrSeqTableSize at inTable
  have isCur : i % pdrSeqTableSize = i :=
    Nat.mod_eq_of_lt (by unfold pdrSeqTableSize; omega)
  have isNext : (i + 1) % pdrSeqTableSize = i + 1 :=
    Nat.mod_eq_of_lt (by unfold pdrSeqTableSize; omega)
  unfold scanEntry
  rw [isCur, isNext]
  by_cases scanned : Scanned table i
  · have gap : gapAt table i = table (i + 1) - table i - 1 :=
      if_pos scanned
    rw [if_neg scanned.1, if_neg scanned.2, if_pos scanned, gap]
    dsimp only
    by_cases late : table i > seqNum
    · rw [if_pos late, if_pos late]
    · rw [if_neg late, if_neg late]
      congr 2
      · split <;> omega
      · split <;> omega
  · rw [if_neg scanned]
    by_cases unused : table i = 0
    · rw [if_pos unused]
    · rw [if_neg unused, if_pos (by_contra fun used => scanned ⟨unused, used⟩)]

theorem scanTable_succ :
    scanTable table seqNum (passes + 1) =
      (scanTable table seqNum passes).bind fun scan =>
        scanEntry table seqNum scan passes := by
  unfold scanTable
  rw [List.range_succ, List.foldlM_append]
  simp only [List.foldlM_cons, List.foldlM_nil, bind_pure]
  rfl

/-- Without a cell above the new number the scan comes to its end. -/
theorem scanTable_of_le
    (inTable : passes ≤ pdrSeqTableSize - 1)
    (ordered : ∀ i, i < passes → Scanned table i → table i ≤ seqNum) :
    ∃ scan,
      scanTable table seqNum passes = some scan ∧
        ScanSees table seqNum passes scan := by
  induction passes with
  | zero =>
      exact ⟨{ missed := 0, minSeq := seqNum }, rfl, rfl, .inl rfl, le_rfl,
        fun _ none => absurd none (Nat.not_lt_zero _)⟩
  | succ passes inductionHypothesis =>
      obtain ⟨scan, reads, sees⟩ :=
        inductionHypothesis (by omega) fun i before =>
          ordered i (by omega)
      rw [scanTable_succ, reads, Option.bind_some, scanEntry_eq (by omega)]
      by_cases scanned : Scanned table passes
      · have notLate := ordered passes (Nat.lt_succ_self passes) scanned
        rw [if_pos scanned, if_neg (not_lt.mpr notLate)]
        refine ⟨_, rfl, ?_, ?_, ?_, ?_⟩
        · rw [Finset.sum_range_succ, ← sees.missed]
        · rcases min_choice scan.minSeq (table passes) with isOld | isNew
          · dsimp only
            rw [isOld]
            exact sees.minSeq.imp_right fun ⟨i, before, rest⟩ =>
              ⟨i, by omega, rest⟩
          · exact .inr ⟨passes, Nat.lt_succ_self passes, scanned, isNew⟩
        · exact (min_le_left _ _).trans sees.le_seqNum
        · intro i before isScanned
          rcases Nat.lt_or_eq_of_le (Nat.le_of_lt_succ before) with
            earlier | same
          · exact (min_le_left _ _).trans
              (sees.le_scanned i earlier isScanned)
          · rw [same]
            exact min_le_right _ _
      · rw [if_neg scanned]
        refine ⟨scan, rfl, ?_, ?_, sees.le_seqNum, ?_⟩
        · rw [Finset.sum_range_succ, gapAt, if_neg scanned, Nat.add_zero]
          exact sees.missed
        · exact sees.minSeq.imp_right fun ⟨i, before, rest⟩ =>
            ⟨i, by omega, rest⟩
        · intro i before isScanned
          rcases Nat.lt_or_eq_of_le (Nat.le_of_lt_succ before) with
            earlier | same
          · exact sees.le_scanned i earlier isScanned
          · exact absurd (same ▸ isScanned) scanned

/-- A cell above the new number resets the table. -/
theorem scanTable_of_gt
    (inTable : passes ≤ pdrSeqTableSize - 1)
    {i : Nat}
    (before : i < passes)
    (scanned : Scanned table i)
    (late : seqNum < table i) :
    scanTable table seqNum passes = none := by
  induction passes with
  | zero =>
      exact absurd before (Nat.not_lt_zero i)
  | succ passes inductionHypothesis =>
      rw [scanTable_succ]
      rcases Nat.lt_or_eq_of_le (Nat.le_of_lt_succ before) with
        earlier | same
      · rw [inductionHypothesis (by omega) earlier]
        rfl
      · subst same
        cases scanTable table seqNum i with
        | none =>
            rfl
        | some scan =>
            rw [Option.bind_some, scanEntry_eq (by omega), if_pos scanned,
              if_pos late]

end

/-! ## The estimate -/

/-- The pointer and the table of a source after so many packets. -/
structure Logged
    (numbers : Nat → Nat)
    (since count : Nat)
    (source : PdrSource) : Prop where
  ptr : source.seqWPtr = count % pdrSeqTableSize
  log : Keeps pdrSeqTableSize 0 numbers since count source.seqTable

theorem logged_init (numbers : Nat → Nat) : Logged numbers 0 0 .init where
  ptr := rfl
  log := Keeps.cleared pdrSeqTableSize numbers 0

section

variable {numbers : Nat → Nat}
variable {since count : Nat}
variable {source : PdrSource}
variable {msgId : UInt16}

/-- The table with one more number. -/
def PdrSource.storing (source : PdrSource) (seqNum : Nat) : Nat → Nat :=
  Function.update source.seqTable source.seqWPtr seqNum

theorem Logged.keeps_storing
    (logged : Logged numbers since count source) :
    Keeps pdrSeqTableSize 0 numbers since (count + 1)
      (source.storing (numbers count)) := by
  unfold PdrSource.storing
  rw [logged.ptr]
  exact logged.log.write

theorem seqWPtr_update
    (logged : Logged numbers since count source)
    (msgId : UInt16) :
    (source.update msgId).seqWPtr = (count + 1) % pdrSeqTableSize := by
  have advanced :
      (source.seqWPtr + 1) % pdrSeqTableSize =
        (count + 1) % pdrSeqTableSize := by
    rw [logged.ptr, Nat.mod_add_mod]
  rw [← advanced, PdrSource.update, PdrSource.estimate]
  dsimp only
  split
  · rfl
  · split <;> rfl

/-- A number that is not below the scanned cells is kept. -/
theorem Logged.update_of_le
    (logged : Logged numbers since count source)
    (isNext : msgId.toNat = numbers count)
    (ordered :
      ∀ i, i < pdrSeqTableSize - 1 →
        Scanned (source.storing (numbers count)) i →
        source.storing (numbers count) i ≤ numbers count) :
    Logged numbers since (count + 1) (source.update msgId) ∧
      (source.update msgId).seqTable = source.storing (numbers count) ∧
      ∃ scan,
        ScanSees (source.storing (numbers count)) (numbers count)
            (pdrSeqTableSize - 1) scan ∧
          (source.update msgId).pdrIn =
            if numbers count - scan.minSeq = 0 then
              source.pdrIn
            else
              pdrOfScan (numbers count) scan := by
  obtain ⟨scan, reads, sees⟩ := scanTable_of_le le_rfl ordered
  have updated :
      source.update msgId =
        { seqTable := source.storing (numbers count)
          seqWPtr := (source.seqWPtr + 1) % pdrSeqTableSize
          pdrIn :=
            if numbers count - scan.minSeq = 0 then
              source.pdrIn
            else
              pdrOfScan (numbers count) scan
          pktCount := source.pktCount + 1 } := by
    rw [PdrSource.update, PdrSource.estimate, isNext]
    dsimp only
    rw [← PdrSource.storing, reads]
    dsimp only
    split <;> rfl
  refine ⟨⟨seqWPtr_update logged msgId, ?_⟩, ?_, scan, sees, ?_⟩
  · rw [updated]
    exact logged.keeps_storing
  · rw [updated]
  · rw [updated]

/-- A number below a scanned cell clears the table. -/
theorem Logged.update_of_gt
    (logged : Logged numbers since count source)
    (isNext : msgId.toNat = numbers count)
    {i : Nat}
    (inScan : i < pdrSeqTableSize - 1)
    (scanned : Scanned (source.storing (numbers count)) i)
    (late : numbers count < source.storing (numbers count) i) :
    Logged numbers (count + 1) (count + 1) (source.update msgId) ∧
      ((source.update msgId).seqTable = fun _ => 0) ∧
      (source.update msgId).pdrIn = source.pdrIn := by
  have reset := scanTable_of_gt le_rfl inScan scanned late
  have updated :
      source.update msgId =
        { seqTable := fun _ => 0
          seqWPtr := (source.seqWPtr + 1) % pdrSeqTableSize
          pdrIn := source.pdrIn
          pktCount := source.pktCount + 1 } := by
    rw [PdrSource.update, PdrSource.estimate, isNext]
    dsimp only
    rw [← PdrSource.storing, reset]
  refine ⟨⟨seqWPtr_update logged msgId, ?_⟩, ?_, ?_⟩
  · rw [updated]
    exact Keeps.cleared pdrSeqTableSize numbers (count + 1)
  · rw [updated]
  · rw [updated]

/-- The ratio of what was received and what should have been. -/
theorem pdrOfScan_eq
    {seqNum received : Nat}
    {scan : PdrScan}
    (splits : received + scan.missed = seqNum - scan.minSeq)
    (positive : 0 < seqNum - scan.minSeq) :
    pdrOfScan seqNum scan =
      100 * (received : ℚ) / ((seqNum - scan.minSeq : Nat) : ℚ) := by
  have range : (0 : ℚ) < ((seqNum - scan.minSeq : Nat) : ℚ) := by
    exact_mod_cast positive
  have castSplits :
      ((seqNum - scan.minSeq : Nat) : ℚ) - scan.missed = received := by
    rw [← splits]
    push_cast
    ring
  have atMost : (received : ℚ) ≤ ((seqNum - scan.minSeq : Nat) : ℚ) := by
    exact_mod_cast (by omega : received ≤ seqNum - scan.minSeq)
  have nonneg : (0 : ℚ) ≤ received := Nat.cast_nonneg received
  have notBelow :
      ¬ 100 * (received : ℚ) / ((seqNum - scan.minSeq : Nat) : ℚ) < 0 := by
    rw [not_lt]
    exact div_nonneg (by linarith) range.le
  have notAbove :
      ¬ 100 * (received : ℚ) / ((seqNum - scan.minSeq : Nat) : ℚ) > 100 := by
    rw [gt_iff_lt, not_lt, div_le_iff₀ range]
    linarith
  unfold pdrOfScan
  dsimp only
  rw [castSplits, if_neg notBelow, if_neg notAbove]

end

end RoutingMesh
