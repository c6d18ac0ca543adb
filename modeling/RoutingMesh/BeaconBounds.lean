import RoutingMesh.BeaconCodec

/-!
# What decoding a beacon touches

The bytes that the MATRIX branch of `receiver_loop` reads from a datagram, and
the cells of the new matrix that `deserializeMatrix` writes.  Every size and
offset comes from the count byte, and the received length is not consulted,
so the accesses stay in bounds exactly for the datagrams that are as long as
their own count says, with a count that leaves room for one more age.
-/

namespace RoutingMesh

/-- `MATRIX`, the type of a beacon. -/
def matrixType : UInt8 := 1

/-- The size of the buffer of `receiver_loop`. -/
def receiverBufferSize : Nat := 2048

/-- What `recvfrom` returns of a datagram. -/
def receivedBytes (datagram : List UInt8) : List UInt8 :=
  datagram.take receiverBufferSize

/-- The buffer after `recvfrom`; `rest` is what it held before. -/
def receiverBuffer
    (datagram : List UInt8)
    (rest : Nat → UInt8) : Nat → UInt8 :=
  fun p => (receivedBytes datagram).getD p (rest p)

/-- Consecutive bytes of a packet or of an array. -/
structure ByteRange where
  start : Nat
  size : Nat

/-- Every byte of the range lies below `limit`. -/
def ByteRange.Below (range : ByteRange) (limit : Nat) : Prop :=
  ∀ q, q < range.size → range.start + q < limit

instance (range : ByteRange) (limit : Nat) : Decidable (range.Below limit) :=
  inferInstanceAs (Decidable (∀ _, _ → _))

/--
The header fields that the MATRIX branch reads: `type`, `slot_id`,
`timestamp`, `slot_begin_ms` and `slot_end_ms`.
-/
def headerReads : List ByteRange :=
  [⟨0, 1⟩, ⟨1, 1⟩, ⟨6, 8⟩, ⟨14, 2⟩, ⟨16, 2⟩]

/-- The arrays of `tdma_matrix_t` that are filled from a packet. -/
inductive FilledArray where
  | idOfActiveNodes
  | matrix
  | age
  deriving Repr, DecidableEq

/-- The bytes of an array of `tdma_matrix_t`. -/
def FilledArray.sizeInBytes : FilledArray → Nat
  | idOfActiveNodes => maxNodes
  | matrix => maxNodes * maxNodes
  | age => 8 * maxNodes

/-- One `memcpy` of `deserializeMatrix`. -/
structure PacketCopy where
  source : ByteRange
  target : FilledArray
  targetStart : Nat

/-- The bytes that a copy writes, counted from the start of its array. -/
def PacketCopy.written (copy : PacketCopy) : ByteRange where
  start := copy.targetStart
  size := copy.source.size

/-- The `memcpy` calls of `deserializeMatrix`, for the count byte it has read. -/
def deserializeCopies (count : UInt8) : List PacketCopy :=
  let size := parameterSize count
  let pos := parameterPos count
  [{ source :=
       { start := headerSize + pos.idOfActiveNodesStart.toNat
         size := size.idOfActiveNodesSize.toNat }
     target := .idOfActiveNodes
     targetStart := 0 }] ++
    (List.range count.toNat).map (fun x =>
      { source :=
          { start := headerSize + (pos.matrixStart.toNat + count.toNat * x)
            size := count.toNat }
        target := .matrix
        targetStart := maxNodes * x }) ++
    [{ source :=
         { start := headerSize + pos.ageStart.toNat
           size := size.ageSize.toNat }
       target := .age
       targetStart := 0 }]

/-- The accesses stay inside the received bytes and the arrays they fill. -/
structure DecodesInBounds
    (datagram : List UInt8)
    (rest : Nat → UInt8) : Prop where
  header :
    ∀ field ∈ headerReads, field.Below (receivedBytes datagram).length
  count : headerSize < (receivedBytes datagram).length
  read :
    ∀ copy ∈ deserializeCopies (receiverBuffer datagram rest headerSize),
      copy.source.Below (receivedBytes datagram).length
  written :
    ∀ copy ∈ deserializeCopies (receiverBuffer datagram rest headerSize),
      copy.written.Below copy.target.sizeInBytes

/-- A datagram that holds everything its count byte announces. -/
structure HoldsItsCount (datagram : List UInt8) : Prop where
  counted : headerSize < datagram.length
  bounded : (datagram.getD headerSize 0).toNat < maxNodes
  rows :
    headerSize + (2 + (datagram.getD headerSize 0).toNat +
        (datagram.getD headerSize 0).toNat *
          (datagram.getD headerSize 0).toNat) ≤
      datagram.length
  ages :
    headerSize + ((3 + (datagram.getD headerSize 0).toNat +
        (datagram.getD headerSize 0).toNat *
          (datagram.getD headerSize 0).toNat) % 256 +
        8 * ((datagram.getD headerSize 0).toNat + 1)) ≤
      datagram.length

theorem holdsItsCount_iff
    {datagram : List UInt8} :
    HoldsItsCount datagram ↔
      headerSize < datagram.length ∧
        (datagram.getD headerSize 0).toNat < maxNodes ∧
        headerSize + (2 + (datagram.getD headerSize 0).toNat +
            (datagram.getD headerSize 0).toNat *
              (datagram.getD headerSize 0).toNat) ≤
          datagram.length ∧
        headerSize + ((3 + (datagram.getD headerSize 0).toNat +
            (datagram.getD headerSize 0).toNat *
              (datagram.getD headerSize 0).toNat) % 256 +
            8 * ((datagram.getD headerSize 0).toNat + 1)) ≤
          datagram.length :=
  ⟨fun holds => ⟨holds.counted, holds.bounded, holds.rows, holds.ages⟩,
    fun ⟨counted, bounded, rows, ages⟩ => ⟨counted, bounded, rows, ages⟩⟩

instance : DecidablePred HoldsItsCount :=
  fun _ => decidable_of_iff' _ holdsItsCount_iff

/-!
## The decoder reads nothing else
-/

/-- A packet decodes by its count byte and by the bytes that the copies read. -/
theorem deserializeMatrix_congr
    {first second : Nat → UInt8}
    (sameCount : first headerSize = second headerSize)
    (sameBytes :
      ∀ copy ∈ deserializeCopies (first headerSize),
        ∀ q, q < copy.source.size →
          first (copy.source.start + q) = second (copy.source.start + q)) :
    deserializeMatrix first = deserializeMatrix second := by
  have ids :=
    sameBytes _ (List.mem_append_left _ (List.mem_append_left _
      List.mem_cons_self))
  have row :
      ∀ x, x < (first headerSize).toNat → _ :=
    fun x inBounds => sameBytes _ (List.mem_append_left _
      (List.mem_append_right _
        (List.mem_map_of_mem (List.mem_range.mpr inBounds))))
  have ages := sameBytes _ (List.mem_append_right _ List.mem_cons_self)
  dsimp only at ids row ages
  unfold deserializeMatrix
  rw [← sameCount]
  dsimp only
  rw [DecodedMatrix.mk.injEq]
  refine ⟨rfl, ?_, ?_, ?_⟩
  · refine List.map_congr_left ?_
    intro i inRange
    have sameByte := ids i (List.mem_range.mp inRange)
    rwa [Nat.add_assoc] at sameByte
  · funext x j
    split
    · rename_i inBounds
      have sameByte := row x inBounds.1 j inBounds.2
      rwa [Nat.add_assoc] at sameByte
    · rfl
  · funext i
    split
    · rename_i inBounds
      refine ByteBlocks.wordOf_congr ?_
      intro b isByte
      have wordInside :
          8 * i + b <
            (parameterSize (first headerSize)).ageSize.toNat := by
        have whole :
            (parameterSize (first headerSize)).ageSize.toNat =
              8 * ((first headerSize).toNat + 1) := by
          have small := (first headerSize).toNat_lt
          simp only [parameterSize, UInt16.toNat_ofNat']
          omega
        omega
      have sameByte := ages (8 * i + b) wordInside
      rwa [Nat.add_assoc] at sameByte
    · rfl

/-!
## The accesses in numbers
-/

section Count

variable (count : UInt8)

theorem toNat_idOfActiveNodesSize_of_count :
    (parameterSize count).idOfActiveNodesSize.toNat = count.toNat := by
  have small := count.toNat_lt
  simp only [parameterSize, UInt16.toNat_ofNat']
  omega

theorem toNat_ageSize_of_count :
    (parameterSize count).ageSize.toNat = 8 * (count.toNat + 1) := by
  have small := count.toNat_lt
  simp only [parameterSize, UInt16.toNat_ofNat']
  omega

theorem toNat_matrixStart_of_count :
    (parameterPos count).matrixStart.toNat = (2 + count.toNat) % 256 := by
  simp only [parameterPos, UInt8.toNat_ofNat']
  omega

theorem toNat_ageStart_of_count :
    (parameterPos count).ageStart.toNat =
      (3 + count.toNat + count.toNat * count.toNat) % 256 := by
  simp only [parameterPos, UInt8.toNat_ofNat']
  omega

/-- A property of all copies is one of the three groups of them. -/
theorem forall_deserializeCopies
    {holds : PacketCopy → Prop} :
    (∀ copy ∈ deserializeCopies count, holds copy) ↔
      holds
          { source := { start := headerSize + 1, size := count.toNat }
            target := .idOfActiveNodes
            targetStart := 0 } ∧
        (∀ x, x < count.toNat →
          holds
            { source :=
                { start :=
                    headerSize +
                      ((2 + count.toNat) % 256 + count.toNat * x)
                  size := count.toNat }
              target := .matrix
              targetStart := maxNodes * x }) ∧
        holds
          { source :=
              { start :=
                  headerSize +
                    (3 + count.toNat + count.toNat * count.toNat) % 256
                size := 8 * (count.toNat + 1) }
            target := .age
            targetStart := 0 } := by
  have idStart : (parameterPos count).idOfActiveNodesStart.toNat = 1 := rfl
  simp only [deserializeCopies, idStart,
    toNat_idOfActiveNodesSize_of_count, toNat_ageSize_of_count,
    toNat_matrixStart_of_count, toNat_ageStart_of_count, List.mem_append,
    List.mem_singleton, List.mem_map, List.mem_range]
  constructor
  · intro all
    exact ⟨all _ (.inl (.inl rfl)),
      fun x inBounds => all _ (.inl (.inr ⟨x, inBounds, rfl⟩)),
      all _ (.inr rfl)⟩
  · rintro ⟨ids, rows, ages⟩ copy ((rfl | ⟨x, inBounds, rfl⟩) | rfl)
    · exact ids
    · exact rows x inBounds
    · exact ages

end Count

/-- The last byte of the last row ends the rows. -/
private theorem row_offset_lt
    {count x q : Nat}
    (isRow : x < count)
    (isCell : q < count) :
    count * x + q < count * count := by
  calc
    count * x + q < count * x + count := Nat.add_lt_add_left isCell _
    _ = count * (x + 1) := (Nat.mul_succ count x).symm
    _ ≤ count * count := Nat.mul_le_mul_left count isRow

/-- The copies write inside their arrays exactly below 20 nodes. -/
theorem written_below_iff (count : UInt8) :
    (∀ copy ∈ deserializeCopies count,
        copy.written.Below copy.target.sizeInBytes) ↔
      count.toNat < maxNodes := by
  rw [forall_deserializeCopies]
  simp only [PacketCopy.written, ByteRange.Below, FilledArray.sizeInBytes]
  constructor
  · rintro ⟨_, _, ages⟩
    have last := ages (8 * (count.toNat + 1) - 1) (by omega)
    omega
  · intro small
    refine ⟨?_, ?_, ?_⟩
    · intro q isId
      omega
    · intro x isRow q isCell
      have lastRow : maxNodes * (x + 1) ≤ maxNodes * maxNodes :=
        Nat.mul_le_mul_left maxNodes (by omega)
      rw [Nat.mul_succ] at lastRow
      omega
    · intro q isByte
      omega

/-- What a small count announces lies in front of `limit`. -/
theorem read_below_iff
    {count : UInt8}
    (small : count.toNat < maxNodes)
    (limit : Nat) :
    (∀ copy ∈ deserializeCopies count, copy.source.Below limit) ↔
      headerSize + (2 + count.toNat + count.toNat * count.toNat) ≤ limit ∧
        headerSize +
            ((3 + count.toNat + count.toNat * count.toNat) % 256 +
              8 * (count.toNat + 1)) ≤
          limit := by
  have noWrap : (2 + count.toNat) % 256 = 2 + count.toNat := by
    unfold maxNodes at small
    omega
  rw [forall_deserializeCopies]
  simp only [ByteRange.Below, noWrap]
  constructor
  · rintro ⟨ids, rows, ages⟩
    have last := ages (8 * (count.toNat + 1) - 1) (by omega)
    refine ⟨?_, by omega⟩
    rcases Nat.eq_zero_or_pos count.toNat with empty | positive
    · rw [empty] at last ⊢
      omega
    · have lastCell :=
        rows (count.toNat - 1) (by omega) (count.toNat - 1) (by omega)
      have whole :
          count.toNat * (count.toNat - 1) + count.toNat =
            count.toNat * count.toNat := by
        rw [← Nat.mul_succ]
        congr 1
        omega
      omega
  · rintro ⟨rows, ages⟩
    refine ⟨?_, ?_, ?_⟩
    · intro q isId
      omega
    · intro x isRow q isCell
      have inside := row_offset_lt isRow isCell
      omega
    · intro q isByte
      omega

/-- What a small count announces fits into the buffer of the receiver. -/
private theorem announced_le_buffer
    {count : Nat}
    (small : count < maxNodes) :
    headerSize + (2 + count + count * count) ≤ receiverBufferSize ∧
      headerSize + ((3 + count + count * count) % 256 + 8 * (count + 1)) ≤
        receiverBufferSize := by
  have square : count * count ≤ maxNodes * maxNodes :=
    Nat.mul_le_mul small.le small.le
  unfold maxNodes at small square
  unfold headerSize receiverBufferSize
  omega

/--
Decoding a beacon stays inside the datagram and inside the new matrix exactly
when the datagram holds the rows and ages of its count, which is at most 19.
-/
theorem decodesInBounds_iff
    (datagram : List UInt8)
    (rest : Nat → UInt8) :
    DecodesInBounds datagram rest ↔ HoldsItsCount datagram := by
  have length :
      (receivedBytes datagram).length =
        min receiverBufferSize datagram.length :=
    List.length_take
  have countByte :
      headerSize < datagram.length →
        receiverBuffer datagram rest headerSize =
          datagram.getD headerSize 0 := by
    intro counted
    have received : headerSize < (receivedBytes datagram).length := by
      rw [length]
      exact lt_min (by decide) counted
    rw [receiverBuffer, ← List.getElem_eq_getD (h := received),
      ← List.getElem_eq_getD (h := counted)]
    exact List.getElem_take
  constructor
  · intro inBounds
    have counted : headerSize < datagram.length := by
      have received := inBounds.count
      rw [length] at received
      exact received.trans_le (min_le_right _ _)
    have written := inBounds.written
    have read := inBounds.read
    rw [countByte counted] at written read
    have bounded := (written_below_iff _).mp written
    obtain ⟨rows, ages⟩ := (read_below_iff bounded _).mp read
    rw [length] at rows ages
    exact
      { counted := counted
        bounded := bounded
        rows := rows.trans (min_le_right _ _)
        ages := ages.trans (min_le_right _ _) }
  · intro holds
    obtain ⟨rowsFit, agesFit⟩ := announced_le_buffer holds.bounded
    refine ⟨?_, ?_, ?_, ?_⟩
    · intro field listed q inField
      have inHeader : field.start + q < headerSize := by
        have fields : ∀ field ∈ headerReads, field.Below headerSize := by
          decide
        exact fields field listed q inField
      rw [length]
      exact lt_min (inHeader.trans (by decide)) (inHeader.trans holds.counted)
    · rw [length]
      exact lt_min (by decide) holds.counted
    · rw [countByte holds.counted, read_below_iff holds.bounded, length]
      exact ⟨le_min rowsFit holds.rows, le_min agesFit holds.ages⟩
    · rw [countByte holds.counted]
      exact (written_below_iff _).mpr holds.bounded

instance (datagram : List UInt8) (rest : Nat → UInt8) :
    Decidable (DecodesInBounds datagram rest) :=
  decidable_of_iff' _ (decodesInBounds_iff datagram rest)

/-- A beacon of 19 bytes whose count byte announces 255 nodes. -/
def announcesTooMany : List UInt8 :=
  [matrixType, 2, 0, 0, 0, 0, 0, 0, 0, 0, 0, 0, 0, 0, 0, 0, 0, 0, 255]

/-- The copies of its identifiers, rows and ages leave both buffers. -/
theorem decoder_overruns_announcesTooMany :
    ¬ ∀ (datagram : List UInt8) (rest : Nat → UInt8),
      datagram.head? = some matrixType → DecodesInBounds datagram rest := by
  intro always
  have inBounds := always announcesTooMany (fun _ => 0) rfl
  have written :=
    ((decodesInBounds_iff announcesTooMany _).mp inBounds).bounded
  revert written
  decide

end RoutingMesh
