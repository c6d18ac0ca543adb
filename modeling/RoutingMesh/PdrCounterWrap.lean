import RoutingMesh.Pdr

/-!
# A message counter that wraps around

`pdr_update` for a stream without losses, across any number of wraps of the
16-bit counter.  A wrap clears the table but not the pointer, unless the first
number of the stream was the only one; that one then stays behind a cell that
holds the number 0, and the scan passes over both.  So neighbouring cells that
are compared never differ by more than one upwards, and nothing is missed.
-/

namespace RoutingMesh

open CircularLog

/-- The number of a packet of a stream without losses. -/
def streamNumber (start : UInt16) (t : Nat) : Nat :=
  (start.toNat + t) % 2 ^ 16

/-- A stream without losses, from any number on. -/
def losslessStream (start : UInt16) (length : Nat) : List UInt16 :=
  (List.range length).map fun t => start + UInt16.ofNat t

/--
The invariant of a stream: the numbers from `since` on have not wrapped around
and are all in the table, and what is left of earlier ones is the number of
the first packet, with the number 0 behind it.
-/
structure StreamLogged
    (start : UInt16)
    (since count : Nat)
    (source : PdrSource) : Prop where
  logged : Logged (streamNumber start) since count source
  notAfter : since ≤ count
  unwrapped : ∀ t, since < t → t < count → streamNumber start t ≠ 0
  startsLow : since = 0 ∨ streamNumber start since ≤ 1
  stale :
    ∀ t, t < since → Recent pdrSeqTableSize count t →
      source.seqTable (t % pdrSeqTableSize) ≠ 0 →
      t = 0 ∧ streamNumber start 1 = 0
  estimate : source.pdrIn = -1 ∨ source.pdrIn = 100

section

variable {start : UInt16}

theorem toNat_stream (start : UInt16) (t : Nat) :
    (start + UInt16.ofNat t).toNat = streamNumber start t := by
  simp [streamNumber]

theorem losslessStream_succ (start : UInt16) (length : Nat) :
    losslessStream start (length + 1) =
      losslessStream start length ++ [start + UInt16.ofNat length] := by
  simp [losslessStream, List.range_succ]

/-- What comes before the end of a stream is a stream. -/
theorem eq_losslessStream_of_isPrefix
    {ids : List UInt16}
    {length : Nat}
    (isPrefix : ids <+: losslessStream start length) :
    ids = losslessStream start ids.length := by
  have shorter := isPrefix.length_le
  rw [List.prefix_iff_eq_take.mp isPrefix]
  simp only [losslessStream, List.length_map, List.length_range] at shorter ⊢
  rw [← List.map_take, List.take_range, List.length_map, List.length_range]

/-- Without a wrap in between, numbers differ like their packets. -/
theorem streamNumber_add
    {start : UInt16}
    (t more : Nat)
    (unwrapped : ∀ u, t < u → u ≤ t + more → streamNumber start u ≠ 0) :
    streamNumber start (t + more) = streamNumber start t + more := by
  induction more with
  | zero =>
      rfl
  | succ more inductionHypothesis =>
      have earlier :=
        inductionHypothesis fun u after notAfter =>
          unwrapped u after (by omega)
      have nonzero := unwrapped (t + (more + 1)) (by omega) le_rfl
      unfold streamNumber at earlier nonzero ⊢
      omega

/-- Before a wrap comes the largest number. -/
theorem streamNumber_of_wrap
    {t : Nat}
    (wraps : streamNumber start (t + 1) = 0) :
    streamNumber start t = 65535 := by
  unfold streamNumber at wraps ⊢
  omega

namespace StreamLogged

variable {since count : Nat}
variable {source : PdrSource}

theorem init (start : UInt16) : StreamLogged start 0 0 .init where
  logged := logged_init (streamNumber start)
  notAfter := le_rfl
  unwrapped := fun t _ before => absurd before (Nat.not_lt_zero t)
  startsLow := .inl rfl
  stale := fun t before => absurd before (Nat.not_lt_zero t)
  estimate := .inl rfl

/-- One more number is stored in a cell of its own. -/
theorem stale_storing
    (stream : StreamLogged start since count source)
    (seqNum : Nat) :
    ∀ t, t < since → Recent pdrSeqTableSize (count + 1) t →
      source.storing seqNum (t % pdrSeqTableSize) ≠ 0 →
      t = 0 ∧ streamNumber start 1 = 0 := by
  intro t before isRecent used
  have notAfter := stream.notAfter
  obtain ⟨_, notOld⟩ := isRecent
  have otherCell : t % pdrSeqTableSize ≠ count % pdrSeqTableSize :=
    mod_ne_of_lt (by omega) (by omega)
  rw [PdrSource.storing, stream.logged.ptr,
    Function.update_of_ne otherCell] at used
  exact stream.stale t before ⟨by omega, by omega⟩ used

/-- Cells that the scan compares hold numbers from `since` on. -/
theorem since_le_of_scanned
    (stream : StreamLogged start since count source)
    {seqNum i t next : Nat}
    (scanned : Scanned (source.storing seqNum) i)
    (isRecent : Recent pdrSeqTableSize (count + 1) t)
    (isCell : t % pdrSeqTableSize = i)
    (nextRecent : Recent pdrSeqTableSize (count + 1) next)
    (isNextCell : next % pdrSeqTableSize = i + 1)
    (nextHolds :
      source.storing seqNum (i + 1) = streamNumber start next) :
    since ≤ t ∧ since ≤ next := by
  constructor
  · by_contra before
    obtain ⟨isFirst, isZero⟩ :=
      stream.stale_storing seqNum t (by omega) isRecent
        (by rw [isCell]; exact scanned.1)
    -- The number behind the first one is 0, and such a cell is not compared.
    have second : next = 1 := by
      obtain ⟨nextBefore, _⟩ := nextRecent
      obtain ⟨_, notOld⟩ := isRecent
      rw [isFirst, Nat.zero_mod] at isCell
      unfold pdrSeqTableSize at isNextCell notOld
      omega
    rw [second, isZero] at nextHolds
    exact scanned.2 nextHolds
  · by_contra before
    obtain ⟨isFirst, _⟩ :=
      stream.stale_storing seqNum next (by omega) nextRecent
        (by rw [isNextCell]; exact scanned.2)
    rw [isFirst, Nat.zero_mod] at isNextCell
    omega

/-- The estimate when nothing is missed. -/
theorem pdrIn_of_not_missed
    {table : Nat → Nat}
    {seqNum : Nat}
    {pdrIn : ℚ}
    {scan : PdrScan}
    (sees : ScanSees table seqNum (pdrSeqTableSize - 1) scan)
    (noGap : ∀ i, i < pdrSeqTableSize - 1 → gapAt table i = 0)
    (earlier : pdrIn = -1 ∨ pdrIn = 100) :
    (if seqNum - scan.minSeq = 0 then pdrIn else pdrOfScan seqNum scan) = -1 ∨
      (if seqNum - scan.minSeq = 0 then pdrIn else pdrOfScan seqNum scan) =
        100 := by
  split
  · exact earlier
  · rename_i ranges
    have missed : scan.missed = 0 := by
      rw [sees.missed]
      exact Finset.sum_eq_zero fun i member =>
        noGap i (Finset.mem_range.mp member)
    have range : ((seqNum - scan.minSeq : Nat) : ℚ) ≠ 0 := by
      exact_mod_cast ranges
    right
    rw [pdrOfScan_eq (by omega : seqNum - scan.minSeq + scan.missed = _)
      (by omega), mul_div_assoc, div_self range, mul_one]

/-- A number that does not wrap around is stored behind the others. -/
theorem update_of_unwrapped
    (stream : StreamLogged start since count source)
    (isNext : count = since ∨ streamNumber start count ≠ 0) :
    StreamLogged start since (count + 1)
      (source.update (start + UInt16.ofNat count)) := by
  have notAfter := stream.notAfter
  have unwrapped :
      ∀ t, since < t → t < count + 1 → streamNumber start t ≠ 0 := by
    intro t after before
    rcases Nat.lt_or_eq_of_le (Nat.le_of_lt_succ before) with earlier | same
    · exact stream.unwrapped t after earlier
    · rw [same]
      exact isNext.resolve_left (by omega)
  have grows :
      ∀ t, since ≤ t → t ≤ count →
        streamNumber start count = streamNumber start t + (count - t) := by
    intro t notBefore notLater
    have steps :=
      streamNumber_add t (count - t)
        fun u after notAfterCount => unwrapped u (by omega) (by omega)
    rwa [Nat.add_sub_cancel' notLater] at steps
  have keeps := stream.logged.keeps_storing
  have compared :
      ∀ i, i < pdrSeqTableSize - 1 →
        Scanned (source.storing (streamNumber start count)) i →
        source.storing (streamNumber start count) i ≤
            streamNumber start count ∧
          gapAt (source.storing (streamNumber start count)) i = 0 := by
    intro i inScan scanned
    obtain ⟨t, isRecent, isCell, holds⟩ :=
      keeps.cells i (by omega) scanned.1
    obtain ⟨next, nextRecent, isNextCell, nextHolds⟩ :=
      keeps.cells (i + 1) (by omega) scanned.2
    obtain ⟨notBefore, nextNotBefore⟩ :=
      stream.since_le_of_scanned scanned isRecent isCell nextRecent
        isNextCell nextHolds
    have ofCell := grows t notBefore (by have := isRecent.1; omega)
    have ofNext := grows next nextNotBefore (by have := nextRecent.1; omega)
    refine ⟨by omega, ?_⟩
    rw [gapAt, if_pos scanned, holds, nextHolds]
    rcases isRecent.next_cell nextRecent (by omega) with follows | newest
    · have before := nextRecent.1
      omega
    · omega
  obtain ⟨logged, table, scan, sees, estimate⟩ :=
    stream.logged.update_of_le (toNat_stream start count)
      fun i inScan scanned => (compared i inScan scanned).1
  refine ⟨logged, by omega, unwrapped, stream.startsLow, ?_, ?_⟩
  · rw [table]
    exact stream.stale_storing (streamNumber start count)
  · rw [estimate]
    refine pdrIn_of_not_missed sees (fun i inScan => ?_) stream.estimate
    by_cases scanned :
        Scanned (source.storing (streamNumber start count)) i
    · exact (compared i inScan scanned).2
    · exact if_neg scanned

/-- At a wrap two of the last numbers are compared, if there are two. -/
theorem exists_scanned_of_wrap
    (stream : StreamLogged start since count source)
    (some : since < count)
    (wraps : streamNumber start count = 0)
    (notFirst : count ≠ 1) :
    ∃ i, i < pdrSeqTableSize - 1 ∧
      Scanned (source.storing (streamNumber start count)) i := by
  have keeps := stream.logged.keeps_storing
  have last : streamNumber start (count - 1) = 65535 := by
    apply streamNumber_of_wrap
    rwa [Nat.sub_add_cancel (by omega)]
  have largest :
      ∀ t, since ≤ t → t < count →
        streamNumber start t + (count - 1 - t) = 65535 := by
    intro t notBefore before
    have steps :=
      streamNumber_add t (count - 1 - t)
        fun u after notAfter => stream.unwrapped u (by omega) (by omega)
    rw [Nat.add_sub_cancel' (by omega), last] at steps
    exact steps.symm
  have long : since = 0 ∨ since + 3 ≤ count := by
    refine stream.startsLow.imp_right fun low => ?_
    have total := largest since le_rfl some
    omega
  have scannedAt :
      ∀ t, since ≤ t → t + 2 ≤ count → count < t + 4 →
        t % pdrSeqTableSize ≠ pdrSeqTableSize - 1 →
        ∃ i, i < pdrSeqTableSize - 1 ∧
          Scanned (source.storing (streamNumber start count)) i := by
    intro t notBefore before near notLast
    have nextCell :
        (t + 1) % pdrSeqTableSize = t % pdrSeqTableSize + 1 := by
      unfold pdrSeqTableSize at notLast ⊢
      omega
    have ofCell := largest t notBefore (by omega)
    have ofNext := largest (t + 1) (by omega) (by omega)
    refine ⟨t % pdrSeqTableSize, ?_, ?_, ?_⟩
    · have inTable := Nat.mod_lt t (by decide : 0 < pdrSeqTableSize)
      omega
    · rw [keeps.kept t notBefore
        ⟨by omega, by unfold pdrSeqTableSize; omega⟩]
      omega
    · rw [← nextCell, keeps.kept (t + 1) (by omega)
        ⟨by omega, by unfold pdrSeqTableSize; omega⟩]
      omega
  by_cases onEnd : (count - 2) % pdrSeqTableSize = pdrSeqTableSize - 1
  · unfold pdrSeqTableSize at onEnd
    exact scannedAt (count - 3) (by omega) (by omega) (by omega)
      (by unfold pdrSeqTableSize; omega)
  · exact scannedAt (count - 2) (by omega) (by omega) (by omega) onEnd

/-- A second number that is 0 is not compared with the first one. -/
theorem not_scanned_of_second
    (stream : StreamLogged start 0 1 source)
    (wraps : streamNumber start 1 = 0)
    {i : Nat}
    (inScan : i < pdrSeqTableSize - 1) :
    ¬ Scanned (source.storing (streamNumber start 1)) i := by
  intro scanned
  obtain ⟨next, nextRecent, isNextCell, nextHolds⟩ :=
    stream.logged.keeps_storing.cells (i + 1) (by omega) scanned.2
  obtain ⟨before, _⟩ := nextRecent
  have second : next = 1 := by
    by_contra differ
    obtain rfl : next = 0 := by omega
    rw [Nat.zero_mod] at isNextCell
    omega
  rw [second] at nextHolds
  exact scanned.2 (nextHolds.trans wraps)

/-- A wrap clears the table, unless the first number is the only one. -/
theorem update_of_wrap
    (stream : StreamLogged start since count source)
    (some : since < count)
    (wraps : streamNumber start count = 0) :
    ∃ later,
      StreamLogged start later (count + 1)
        (source.update (start + UInt16.ofNat count)) := by
  by_cases isFirst : count = 1
  · subst isFirst
    obtain rfl : since = 0 := by omega
    have notScanned :
        ∀ i, i < pdrSeqTableSize - 1 →
          ¬ Scanned (source.storing (streamNumber start 1)) i :=
      fun i => stream.not_scanned_of_second wraps
    obtain ⟨logged, table, scan, sees, estimate⟩ :=
      stream.logged.update_of_le (toNat_stream start 1)
        fun i inScan scanned => absurd scanned (notScanned i inScan)
    refine ⟨1, ⟨logged.ptr, logged.log.later (Nat.zero_le 1)⟩, by omega,
      fun t after before => by omega, .inr (by omega), ?_, ?_⟩
    · intro t before _ _
      exact ⟨by omega, wraps⟩
    · rw [estimate]
      exact pdrIn_of_not_missed sees
        (fun i inScan => if_neg (notScanned i inScan)) stream.estimate
  · obtain ⟨i, inScan, scanned⟩ :=
      stream.exists_scanned_of_wrap some wraps isFirst
    have late :
        streamNumber start count <
          source.storing (streamNumber start count) i := by
      have used := scanned.1
      omega
    obtain ⟨logged, table, estimate⟩ :=
      stream.logged.update_of_gt (toNat_stream start count) inScan scanned
        late
    refine ⟨count + 1, logged, le_rfl, fun t after before => by omega, .inr ?_,
      ?_, ?_⟩
    · unfold streamNumber at wraps ⊢
      omega
    · intro t _ _ used
      rw [table] at used
      exact absurd rfl used
    · rw [estimate]
      exact stream.estimate

/-- Each packet keeps the invariant. -/
theorem update
    (stream : StreamLogged start since count source) :
    ∃ later,
      StreamLogged start later (count + 1)
        (source.update (start + UInt16.ofNat count)) := by
  by_cases isNext : count = since ∨ streamNumber start count ≠ 0
  · exact ⟨since, stream.update_of_unwrapped isNext⟩
  · obtain ⟨differ, wraps⟩ := not_or.mp isNext
    have notAfter := stream.notAfter
    exact stream.update_of_wrap (by omega) (not_not.mp wraps)

end StreamLogged

/-- After any number of packets the invariant holds. -/
theorem exists_streamLogged (start : UInt16) (length : Nat) :
    ∃ since,
      StreamLogged start since length
        ((losslessStream start length).foldl PdrSource.update .init) := by
  induction length with
  | zero =>
      exact ⟨0, .init start⟩
  | succ length inductionHypothesis =>
      obtain ⟨since, stream⟩ := inductionHypothesis
      rw [losslessStream_succ, List.foldl_append]
      exact stream.update

theorem pdrIn_of_losslessStream (start : UInt16) (length : Nat) :
    ((losslessStream start length).foldl PdrSource.update .init).pdrIn = -1 ∨
      ((losslessStream start length).foldl PdrSource.update .init).pdrIn =
        100 := by
  obtain ⟨_, stream⟩ := exists_streamLogged start length
  exact stream.estimate

/-- An estimate of 100 is the only one that is pushed. -/
theorem quality_of_estimate
    {source : PdrSource}
    (estimate : source.pdrIn = -1 ∨ source.pdrIn = 100)
    {quality : UInt8}
    (gives : source.quality = some quality) :
    quality = 100 := by
  unfold PdrSource.quality at gives
  split at gives
  · rcases estimate with none | full
    · rw [none, if_neg (by norm_num)] at gives
      cases gives
    · rw [full, if_pos (by norm_num), Option.some.injEq] at gives
      rw [← gives]
      decide +kernel
  · cases gives

end

/--
For every source, every number to start with and every number of packets
without losses, with any packets of other sources in between: the estimate is
not there yet or is 100, and every quality that is pushed for the source is 100.
-/
theorem pdr_losslessStream
    {srcId : UInt8}
    (isSource : hasRow srcId = true)
    {start : UInt16}
    {length : Nat}
    {packets : List (UInt8 × UInt16)}
    (lossless : msgIdsOf srcId packets = losslessStream start length) :
    (pdrGet (pdrAfter packets) srcId = -1 ∨
        pdrGet (pdrAfter packets) srcId = 100) ∧
      ∀ quality, (srcId, quality) ∈ (pdrAfter packets).pushed →
        quality = 100 := by
  constructor
  · rw [pdrGet_pdrAfter isSource, lossless]
    exact pdrIn_of_losslessStream start length
  · intro quality pushed
    obtain ⟨ids, isPrefix, gives⟩ := quality_of_pushed isSource pushed
    rw [lossless] at isPrefix
    rw [eq_losslessStream_of_isPrefix isPrefix] at gives
    exact quality_of_estimate
      (pdrIn_of_losslessStream start ids.length) gives

/-- A stream of node 3 that starts just before the wrap. -/
def wrappingPackets : List (UInt8 × UInt16) :=
  (losslessStream 65530 20).map fun id => (3, id)

/-- It wraps around without a loss. -/
theorem pdr_losslessStream_wrappingPackets :
    (pdrGet (pdrAfter wrappingPackets) 3 = -1 ∨
        pdrGet (pdrAfter wrappingPackets) 3 = 100) ∧
      ∀ quality, (3, quality) ∈ (pdrAfter wrappingPackets).pushed →
        quality = 100 :=
  pdr_losslessStream (by decide)
    (by decide : msgIdsOf 3 wrappingPackets = losslessStream 65530 20)

end RoutingMesh
