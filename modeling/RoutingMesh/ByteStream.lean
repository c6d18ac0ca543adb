import Mathlib.Data.List.Infix
import RoutingMesh.ByteBlocks

/-!
# Reading from a byte stream

A stream arrives in segments that have nothing to do with how it was written.
A read that waits for all its bytes takes them from as many segments as it
needs.  Words are written as bytes in host order or in network order, and what
is read goes to the start of a buffer that is used again.
-/

namespace ByteStream

open ByteBlocks

variable {α : Type*}

/-! ## Reads that wait for all their items -/

/--
Take `count` items from the segments, in order; what is left of the last
segment stays.  There is no result when the segments do not hold that many.
-/
def recvAll (count : Nat) : List (List α) → Option (List α × List (List α))
  | [] => if count = 0 then some ([], []) else none
  | segment :: rest =>
      if count ≤ segment.length then
        some (segment.take count, segment.drop count :: rest)
      else
        (recvAll (count - segment.length) rest).map fun read =>
          (segment ++ read.1, read.2)

/-- However the stream is cut, a read takes its first items. -/
theorem recvAll_eq_some
    {count : Nat}
    {segments : List (List α)}
    (holds : count ≤ segments.flatten.length) :
    ∃ left,
      recvAll count segments = some (segments.flatten.take count, left) ∧
        left.flatten = segments.flatten.drop count := by
  induction segments generalizing count with
  | nil =>
      have nothing : count = 0 := by simpa using holds
      exact ⟨[], by simp [recvAll, nothing], by simp⟩
  | cons segment rest inductionHypothesis =>
      rw [recvAll]
      split
      · rename_i within
        refine ⟨segment.drop count :: rest, ?_, ?_⟩
        · rw [List.flatten_cons, List.take_append_of_le_length within]
        · rw [List.flatten_cons, List.flatten_cons,
            List.drop_append_of_le_length within]
      · rename_i beyond
        have longer : segment.length ≤ count := by omega
        rw [List.flatten_cons, List.length_append] at holds
        have restHolds :
            count - segment.length ≤ rest.flatten.length := by
          omega
        obtain ⟨left, reads, remains⟩ := inductionHypothesis restHolds
        refine ⟨left, ?_, ?_⟩
        · rw [reads, List.flatten_cons, List.take_append,
            List.take_of_length_le longer]
          rfl
        · rw [remains, List.flatten_cons, List.drop_append,
            List.drop_of_length_le longer, List.nil_append]

/-- A read of exactly the leading part of the stream. -/
theorem recvAll_of_flatten_eq
    {leading trailing : List α}
    {segments : List (List α)}
    (carries : segments.flatten = leading ++ trailing) :
    ∃ left,
      recvAll leading.length segments = some (leading, left) ∧
        left.flatten = trailing := by
  have holds : leading.length ≤ segments.flatten.length := by
    rw [carries, List.length_append]
    omega
  obtain ⟨left, reads, remains⟩ := recvAll_eq_some holds
  rw [carries, List.take_left] at reads
  rw [carries, List.drop_left] at remains
  exact ⟨left, reads, remains⟩

/-- A read for more than there is waits. -/
theorem recvAll_eq_none
    {count : Nat}
    {segments : List (List α)}
    (tooFew : segments.flatten.length < count) :
    recvAll count segments = none := by
  induction segments generalizing count with
  | nil =>
      rw [recvAll, if_neg]
      simp only [List.flatten_nil, List.length_nil] at tooFew
      omega
  | cons segment rest inductionHypothesis =>
      rw [List.flatten_cons, List.length_append] at tooFew
      rw [recvAll, if_neg (by omega), inductionHypothesis (by omega)]
      rfl

/-! ## Reads that return early -/

/-- A read that gets as many items as the leading part has gets that part. -/
theorem eq_leading_of_isPrefix
    {read unread leading trailing : List α}
    (isRead : read <+: unread)
    (carries : unread <+: leading ++ trailing)
    (full : read.length = leading.length) :
    read = leading := by
  obtain ⟨later, shape⟩ := isRead.trans carries
  exact List.append_inj_left shape full

/-- What such a read leaves comes from the trailing part. -/
theorem drop_isPrefix
    {unread leading trailing : List α}
    (carries : unread <+: leading ++ trailing) :
    unread.drop leading.length <+: trailing := by
  have dropped := carries.drop leading.length
  rwa [List.drop_left] at dropped

/-! ## Words -/

/-- The lowest bytes of a word, in host order. -/
def hostOrder (count : Nat) (word : UInt64) : List UInt8 :=
  (List.range count).map (byteOf word)

/-- The lowest bytes of a word, in network order. -/
def networkOrder (count : Nat) (word : UInt64) : List UInt8 :=
  (hostOrder count word).reverse

/-- The number that bytes in network order stand for. -/
def networkValue (bytes : List UInt8) : Nat :=
  littleEndian (fun b => bytes.reverse.getD b 0) bytes.length

@[simp]
theorem length_hostOrder (count : Nat) (word : UInt64) :
    (hostOrder count word).length = count := by
  simp [hostOrder]

@[simp]
theorem length_networkOrder (count : Nat) (word : UInt64) :
    (networkOrder count word).length = count := by
  simp [networkOrder]

theorem littleEndian_congr
    {first second : Nat → UInt8}
    {count : Nat}
    (same : ∀ b, b < count → first b = second b) :
    littleEndian first count = littleEndian second count := by
  induction count with
  | zero =>
      rfl
  | succ count inductionHypothesis =>
      rw [littleEndian, littleEndian, same count (by omega),
        inductionHypothesis fun b below => same b (by omega)]

theorem littleEndian_lt
    (bytes : Nat → UInt8)
    (count : Nat) :
    littleEndian bytes count < 256 ^ count := by
  induction count with
  | zero =>
      exact Nat.one_pos
  | succ count inductionHypothesis =>
      have digit := (bytes count).toNat_lt
      have highest :
          256 ^ count * (bytes count).toNat ≤ 256 ^ count * 255 :=
        Nat.mul_le_mul_left _ (by omega)
      rw [littleEndian, Nat.pow_succ]
      omega

/-- A word that fits in its bytes reads back. -/
theorem networkValue_networkOrder
    {count : Nat}
    {word : UInt64}
    (fits : word.toNat < 256 ^ count) :
    networkValue (networkOrder count word) = word.toNat := by
  have sameBytes :
      littleEndian
          (fun b => (networkOrder count word).reverse.getD b 0) count =
        littleEndian (byteOf word) count := by
    apply littleEndian_congr
    intro b below
    simp [networkOrder, hostOrder, List.getD, below]
  rw [networkValue, length_networkOrder, sameBytes, littleEndian_byteOf,
    Nat.mod_eq_of_lt fits]

/-- The number that bytes in host order stand for. -/
def hostValue (bytes : List UInt8) : Nat :=
  littleEndian (fun b => bytes.getD b 0) bytes.length

/-- A word that fits in its bytes reads back in host order. -/
theorem hostValue_hostOrder
    {count : Nat}
    {word : UInt64}
    (fits : word.toNat < 256 ^ count) :
    hostValue (hostOrder count word) = word.toNat := by
  have sameBytes :
      littleEndian (fun b => (hostOrder count word).getD b 0) count =
        littleEndian (byteOf word) count := by
    apply littleEndian_congr
    intro b below
    simp [hostOrder, List.getD, below]
  rw [hostValue, length_hostOrder, sameBytes, littleEndian_byteOf,
    Nat.mod_eq_of_lt fits]

/-! ## The buffer -/

/-- The buffer after bytes are read to its start. -/
def overlay (bytes : List α) (buffer : Nat → α) : Nat → α :=
  fun p => bytes.getD p (buffer p)

/-- Consecutive items of the buffer. -/
def slice (buffer : Nat → α) (start size : Nat) : List α :=
  (List.range size).map fun offset => buffer (start + offset)

/-- Where bytes were read, what was there before does not matter. -/
theorem overlay_congr_of_lt
    {bytes : List α}
    (one other : Nat → α)
    {p : Nat}
    (inBytes : p < bytes.length) :
    overlay bytes one p = overlay bytes other p := by
  simp [overlay, List.getD, inBytes]

/-- After the bytes that were read, the buffer is what it was. -/
theorem overlay_of_le
    {bytes : List α}
    {p : Nat}
    (buffer : Nat → α)
    (beyond : bytes.length ≤ p) :
    overlay bytes buffer p = buffer p := by
  simp [overlay, List.getD, beyond]

theorem slice_congr
    {one other : Nat → α}
    {start size : Nat}
    (same :
      ∀ offset, offset < size →
        one (start + offset) = other (start + offset)) :
    slice one start size = slice other start size :=
  List.map_congr_left fun offset listed => same offset (List.mem_range.mp listed)

/-- What lies in a part of the bytes that were read. -/
theorem overlay_append
    (leading part trailing : List α)
    (buffer : Nat → α)
    {offset : Nat}
    (inPart : offset < part.length) :
    overlay (leading ++ part ++ trailing) buffer (leading.length + offset) =
      part[offset] := by
  simp [overlay, List.getD, List.getElem?_append, inPart]

/-- A part of what was read comes back from its place. -/
theorem slice_overlay
    (leading part trailing : List α)
    (buffer : Nat → α) :
    slice (overlay (leading ++ part ++ trailing) buffer) leading.length
        part.length =
      part := by
  apply List.ext_getElem
  · simp [slice]
  · intro offset _ inPart
    simp only [slice, List.getElem_map, List.getElem_range]
    exact overlay_append leading part trailing buffer inPart

/-- A word that fits in its bytes comes back from its place. -/
theorem littleEndian_overlay
    (leading trailing : List UInt8)
    {count : Nat}
    {word : UInt64}
    (fits : word.toNat < 256 ^ count)
    (buffer : Nat → UInt8) :
    littleEndian
        (fun b =>
          overlay (leading ++ hostOrder count word ++ trailing) buffer
            (leading.length + b))
        count =
      word.toNat := by
  calc
    littleEndian _ count = littleEndian (byteOf word) count := by
      apply littleEndian_congr
      intro b below
      rw [overlay_append leading (hostOrder count word) trailing buffer
        (by simpa using below)]
      simp [hostOrder]
    _ = word.toNat % 256 ^ count := littleEndian_byteOf word count
    _ = word.toNat := Nat.mod_eq_of_lt fits

end ByteStream
