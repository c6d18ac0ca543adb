import Mathlib.Data.List.Basic

/-!
# Addresses as text

An address is written as its octets in decimal with dots between them.  The
text of different addresses is different, and a reader that takes octets
without leading zeros only gets back the octets that were written.
-/

namespace DottedQuad

/-- An octet in decimal. -/
def octetText (octet : UInt8) : List Char :=
  Nat.toDigits 10 octet.toNat

/-- The number that digits stand for. -/
def digitsValue (digits : List Char) : Nat :=
  digits.foldl (fun value digit => 10 * value + (digit.toNat - '0'.toNat)) 0

/-- The octet that a text stands for: digits only, and no zero before others. -/
def octetValue (digits : List Char) : Option UInt8 :=
  if digits ≠ [] ∧ digits.all Char.isDigit = true ∧
      (digits.head? = some '0' → digits.length = 1) ∧
      digitsValue digits ≤ 255 then
    some (UInt8.ofNat (digitsValue digits))
  else
    none

/-- Octets with dots between them. -/
def text (octets : List UInt8) : List Char :=
  ['.'].intercalate (octets.map octetText)

/-- The octets that a text stands for. -/
def octetsOf (characters : List Char) : Option (List UInt8) :=
  (characters.splitOn '.').mapM octetValue

/-- What holds of the text of every number below 256 holds of every octet. -/
private theorem forall_octet
    {holds : Nat → List Char → Prop}
    (each : ∀ number, number < 256 → holds number (Nat.toDigits 10 number))
    (octet : UInt8) :
    holds octet.toNat (octetText octet) :=
  each octet.toNat octet.toNat_lt

theorem octetValue_octetText (octet : UInt8) :
    octetValue (octetText octet) = some octet := by
  have back :
      octetValue (octetText octet) = some (UInt8.ofNat octet.toNat) :=
    @forall_octet
      (fun number digits => octetValue digits = some (UInt8.ofNat number))
      (by decide +kernel) octet
  rw [back, UInt8.ofNat_toNat]

theorem dot_notMem_octetText (octet : UInt8) : '.' ∉ octetText octet :=
  @forall_octet (fun _ digits => '.' ∉ digits) (by decide +kernel) octet

theorem length_octetText_le (octet : UInt8) : (octetText octet).length ≤ 3 :=
  @forall_octet (fun _ digits => digits.length ≤ 3) (by decide +kernel) octet

theorem mapM_octetValue (octets : List UInt8) :
    (octets.map octetText).mapM octetValue = some octets := by
  induction octets with
  | nil =>
      rfl
  | cons octet rest inductionHypothesis =>
      rw [List.map_cons, List.mapM_cons, octetValue_octetText,
        inductionHypothesis]
      rfl

/-- The dots of a text are those between its octets. -/
theorem splitOn_text
    {octets : List UInt8}
    (notEmpty : octets ≠ []) :
    (text octets).splitOn '.' = octets.map octetText := by
  apply List.splitOn_intercalate
  · intro part listed
    obtain ⟨octet, -, rfl⟩ := List.mem_map.mp listed
    exact dot_notMem_octetText octet
  · simpa using notEmpty

/-- What was written is what is read. -/
theorem octetsOf_text
    {octets : List UInt8}
    (notEmpty : octets ≠ []) :
    octetsOf (text octets) = some octets := by
  rw [octetsOf, splitOn_text notEmpty, mapM_octetValue]

/-- Different addresses have different texts. -/
theorem text_inj
    {first second : List UInt8}
    (firstNotEmpty : first ≠ [])
    (secondNotEmpty : second ≠ []) :
    text first = text second ↔ first = second := by
  constructor
  · intro same
    have read := congrArg octetsOf same
    rw [octetsOf_text firstNotEmpty, octetsOf_text secondNotEmpty] at read
    exact Option.some.inj read
  · rintro rfl
    rfl

end DottedQuad
