import RoutingMesh.ByteStream

/-!
# Lists of aligned attributes

An attribute is a length, a type and its data; it begins at the next multiple
of four bytes after the attribute before.  A reader that walks the bytes by
their lengths gets back the attributes that were appended one after the other,
whatever the sizes of their data are.
-/

namespace AttributeList

open ByteBlocks ByteStream

/-- An attribute and its data. -/
structure Attribute where
  type : UInt16
  data : List UInt8
  deriving DecidableEq, Repr

/-- The next multiple of four. -/
def align (length : Nat) : Nat :=
  (length + 3) / 4 * 4

/-- The length that is stored with an attribute. -/
def Attribute.length (item : Attribute) : Nat :=
  4 + item.data.length

/-- The length fits in its two bytes. -/
def Attribute.Fits (item : Attribute) : Prop :=
  item.length < 65536

/-- The bytes of an attribute. -/
def Attribute.bytes (item : Attribute) : List UInt8 :=
  hostOrder 2 (UInt64.ofNat item.length) ++
    hostOrder 2 item.type.toUInt64 ++ item.data

/-- Bytes with zeros up to the next multiple of four. -/
def padded (body : List UInt8) : List UInt8 :=
  body ++ List.replicate (align body.length - body.length) 0

/-- The bytes with one more attribute. -/
def append (body : List UInt8) (item : Attribute) : List UInt8 :=
  padded body ++ item.bytes

/-- The bytes after some attributes were appended. -/
def encode (attributes : List Attribute) : List UInt8 :=
  attributes.foldl append []

/-- The attributes of some bytes, as long as their lengths are possible. -/
def decodeFrom : Nat → List UInt8 → List Attribute
  | 0, _ => []
  | fuel + 1, body =>
      let length := hostValue (body.take 2)
      if 4 ≤ body.length ∧ 4 ≤ length ∧ length ≤ body.length then
        { type := UInt16.ofNat (hostValue ((body.drop 2).take 2))
          data := (body.take length).drop 4 } ::
          decodeFrom fuel (body.drop (align length))
      else
        []

/-- The attributes of some bytes: no attribute is shorter than four of them. -/
def decode (body : List UInt8) : List Attribute :=
  decodeFrom body.length body

/-! ## Alignment -/

theorem le_align (length : Nat) : length ≤ align length := by
  unfold align
  omega

theorem align_mod (length : Nat) : align length % 4 = 0 := by
  unfold align
  omega

theorem align_add_of_mod
    {aligned : Nat}
    (isAligned : aligned % 4 = 0)
    (length : Nat) :
    align (aligned + length) = aligned + align length := by
  unfold align
  omega

@[simp]
theorem length_padded (body : List UInt8) :
    (padded body).length = align body.length := by
  have more := le_align body.length
  simp only [padded, List.length_append, List.length_replicate]
  omega

/-- Padding looks at the last part only, when the first is aligned. -/
theorem padded_append
    {first : List UInt8}
    (isAligned : first.length % 4 = 0)
    (second : List UInt8) :
    padded (first ++ second) = first ++ padded second := by
  unfold padded
  rw [List.length_append, align_add_of_mod isAligned, List.append_assoc,
    Nat.add_sub_add_left]

@[simp]
theorem length_bytes (item : Attribute) :
    item.bytes.length = item.length := by
  simp only [Attribute.bytes, Attribute.length, List.length_append,
    length_hostOrder]

@[simp]
theorem append_encode
    (attributes : List Attribute)
    (item : Attribute) :
    append (encode attributes) item = encode (attributes ++ [item]) := by
  rw [encode, encode, List.foldl_append]
  rfl

/-- The bytes of attributes that are no longer than an aligned size. -/
theorem length_encode_le
    {size : Nat}
    (isAligned : size % 4 = 0)
    {attributes : List Attribute}
    (each : ∀ item ∈ attributes, item.length ≤ size) :
    (encode attributes).length ≤ attributes.length * size := by
  induction attributes using List.reverseRecOn with
  | nil =>
      simp [encode]
  | append_singleton earlier item inductionHypothesis =>
      have before :=
        inductionHypothesis fun other listed =>
          each other (List.mem_append_left _ listed)
      have last := each item (by simp)
      have allAligned : earlier.length * size % 4 = 0 := by
        rw [Nat.mul_mod, isAligned, Nat.mul_zero, Nat.zero_mod]
      have padding : align (encode earlier).length ≤ earlier.length * size := by
        unfold align
        omega
      rw [← append_encode, append, List.length_append, length_padded,
        length_bytes, List.length_append, List.length_singleton, Nat.succ_mul]
      omega

/-! ## The round trip -/

/-- The bytes of attributes from the first one on. -/
def laidOut : List Attribute → List UInt8
  | [] => []
  | [last] => last.bytes
  | first :: second :: rest => padded first.bytes ++ laidOut (second :: rest)

theorem append_laidOut
    (attributes : List Attribute)
    (item : Attribute) :
    append (laidOut attributes) item =
      laidOut (attributes ++ [item]) := by
  induction attributes with
  | nil =>
      rfl
  | cons first rest inductionHypothesis =>
      cases rest with
      | nil =>
          rfl
      | cons second rest =>
          rw [laidOut, append,
            padded_append (by rw [length_padded, align_mod]),
            List.append_assoc, ← append, inductionHypothesis]
          rfl

/-- What is appended lies one after the other. -/
theorem encode_eq_laidOut (attributes : List Attribute) :
    encode attributes = laidOut attributes := by
  induction attributes using List.reverseRecOn with
  | nil =>
      rfl
  | append_singleton earlier item inductionHypothesis =>
      rw [encode, List.foldl_append, ← encode, inductionHypothesis]
      exact append_laidOut earlier item

/-- The first attribute of some bytes. -/
theorem decodeFrom_append
    {item : Attribute}
    (fits : item.Fits)
    (fuel : Nat)
    {trailing : List UInt8}
    (rest : List UInt8)
    (isRest :
      (item.bytes ++ trailing).drop (align item.length) = rest) :
    decodeFrom (fuel + 1) (item.bytes ++ trailing) =
      item :: decodeFrom fuel rest := by
  have lengthFits :
      (UInt64.ofNat item.length).toNat = item.length := by
    rw [UInt64.toNat_ofNat']
    exact Nat.mod_eq_of_lt (lt_of_lt_of_le fits (by decide))
  have typeFits : item.type.toUInt64.toNat < 256 ^ 2 := by
    rw [UInt16.toNat_toUInt64]
    exact item.type.toNat_lt
  have storedLength :
      hostValue ((item.bytes ++ trailing).take 2) =
        item.length := by
    have isFirst :
        (item.bytes ++ trailing).take 2 =
          hostOrder 2 (UInt64.ofNat item.length) := by
      simp only [Attribute.bytes, List.append_assoc]
      exact List.take_left' (length_hostOrder 2 _)
    rw [isFirst, hostValue_hostOrder, lengthFits]
    rw [lengthFits]
    exact fits
  have storedType :
      UInt16.ofNat
          (hostValue (((item.bytes ++ trailing).drop 2).take 2)) =
        item.type := by
    have isSecond :
        ((item.bytes ++ trailing).drop 2).take 2 =
          hostOrder 2 item.type.toUInt64 := by
      simp only [Attribute.bytes, List.append_assoc]
      rw [List.drop_left' (length_hostOrder 2 _)]
      exact List.take_left' (length_hostOrder 2 _)
    rw [isSecond, hostValue_hostOrder typeFits, UInt16.toNat_toUInt64,
      UInt16.ofNat_toNat]
  have storedData :
      ((item.bytes ++ trailing).take item.length).drop 4 =
        item.data := by
    rw [List.take_left' (length_bytes item), Attribute.bytes]
    exact List.drop_left' (by simp)
  have possible :
      4 ≤ (item.bytes ++ trailing).length ∧ 4 ≤ item.length ∧
        item.length ≤ (item.bytes ++ trailing).length := by
    rw [List.length_append, length_bytes]
    unfold Attribute.length
    omega
  rw [decodeFrom, storedLength, if_pos possible, storedType, storedData, isRest]

theorem decodeFrom_laidOut
    {attributes : List Attribute}
    (fit : ∀ item ∈ attributes, item.Fits)
    {fuel : Nat}
    (enough : attributes.length < fuel) :
    decodeFrom fuel (laidOut attributes) = attributes := by
  induction attributes generalizing fuel with
  | nil =>
      cases fuel with
      | zero => rfl
      | succ fuel => simp [decodeFrom, laidOut]
  | cons first rest inductionHypothesis =>
      obtain ⟨fuel, rfl⟩ := Nat.exists_eq_succ_of_ne_zero (by omega : fuel ≠ 0)
      rw [List.length_cons] at enough
      have restFits : ∀ item ∈ rest, item.Fits :=
        fun item listed => fit item (List.mem_cons_of_mem _ listed)
      have firstFits := fit first List.mem_cons_self
      have decodesRest := inductionHypothesis restFits (by omega : rest.length < fuel)
      cases rest with
      | nil =>
          have nothingLeft :
              (first.bytes ++ []).drop (align first.length) = [] := by
            rw [List.append_nil]
            exact List.drop_of_length_le
              (by rw [length_bytes]; exact le_align _)
          rw [laidOut, ← List.append_nil first.bytes,
            decodeFrom_append firstFits fuel [] nothingLeft]
          exact congrArg (first :: ·) decodesRest
      | cons second rest =>
          rw [laidOut, padded, List.append_assoc]
          rw [decodeFrom_append firstFits fuel (laidOut (second :: rest))]
          · rw [decodesRest]
          · rw [← List.append_assoc, ← padded]
            exact List.drop_left' (by rw [length_padded, length_bytes])

theorem length_le_laidOut (attributes : List Attribute) :
    4 * attributes.length ≤ (laidOut attributes).length := by
  induction attributes with
  | nil =>
      rfl
  | cons first rest inductionHypothesis =>
      cases rest with
      | nil =>
          simp [laidOut, Attribute.length]
      | cons second rest =>
          have more := le_align first.length
          rw [laidOut, List.length_append, length_padded, length_bytes,
            List.length_cons]
          unfold Attribute.length at more ⊢
          omega

/-- What was appended is what a reader gets. -/
theorem decode_encode
    {attributes : List Attribute}
    (fit : ∀ item ∈ attributes, item.Fits) :
    decode (encode attributes) = attributes := by
  rw [encode_eq_laidOut, decode]
  have bytes := length_le_laidOut attributes
  cases attributes with
  | nil => rfl
  | cons first rest =>
      refine decodeFrom_laidOut fit ?_
      rw [List.length_cons] at bytes ⊢
      omega

end AttributeList
