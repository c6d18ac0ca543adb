import Mathlib.Data.List.Basic
import Mathlib.Tactic.Ring

/-!
# Blocks copied into memory

A buffer is filled by copying blocks to given offsets.  When every block ends
before the next one begins, each of them reads back unchanged.  Words are
stored as little-endian bytes.
-/

namespace ByteBlocks

variable {α : Type*}

/-- A block of `size` cells that is copied to offset `start`. -/
structure Block (α : Type*) where
  start : Nat
  size : Nat
  source : Nat → α

/-- The offset after the last cell of a block. -/
def Block.stop (block : Block α) : Nat :=
  block.start + block.size

/-- `memcpy` of one block. -/
def Block.copyTo
    (memory : Nat → α)
    (block : Block α) : Nat → α :=
  fun p =>
    if block.start ≤ p ∧ p < block.stop then
      block.source (p - block.start)
    else
      memory p

/-- Copy blocks one after the other. -/
def copyAll
    (memory : Nat → α)
    (blocks : List (Block α)) : Nat → α :=
  blocks.foldl Block.copyTo memory

/-- Every block ends before the later ones begin. -/
def InOrder (blocks : List (Block α)) : Prop :=
  blocks.Pairwise fun earlier later => earlier.stop ≤ later.start

/-- Copying leaves the cells outside of the blocks as they were. -/
theorem copyAll_of_outside
    {blocks : List (Block α)}
    {p : Nat}
    (outside : ∀ block ∈ blocks, ¬ (block.start ≤ p ∧ p < block.stop))
    (memory : Nat → α) :
    copyAll memory blocks p = memory p := by
  induction blocks generalizing memory with
  | nil =>
      rfl
  | cons block rest inductionHypothesis =>
      have here := outside block List.mem_cons_self
      calc
        copyAll memory (block :: rest) p
            = Block.copyTo memory block p :=
          inductionHypothesis
            (fun other listed => outside other (List.mem_cons_of_mem _ listed))
            _
        _ = memory p := if_neg here

/-- Blocks in order read back unchanged. -/
theorem copyAll_of_mem
    {blocks : List (Block α)}
    (inOrder : InOrder blocks)
    {block : Block α}
    (listed : block ∈ blocks)
    {offset : Nat}
    (inBounds : offset < block.size)
    (memory : Nat → α) :
    copyAll memory blocks (block.start + offset) = block.source offset := by
  induction blocks generalizing memory with
  | nil =>
      cases listed
  | cons first rest inductionHypothesis =>
      obtain ⟨before, restInOrder⟩ := List.pairwise_cons.mp inOrder
      rcases List.mem_cons.mp listed with rfl | later
      · have outside :
            ∀ other ∈ rest,
              ¬ (other.start ≤ block.start + offset ∧
                block.start + offset < other.stop) := by
          intro other otherListed inside
          have ends := before other otherListed
          unfold Block.stop at ends
          omega
        calc
          copyAll memory (block :: rest) (block.start + offset)
              = Block.copyTo memory block (block.start + offset) :=
            copyAll_of_outside outside _
          _ = block.source offset := by
            have here :
                block.start ≤ block.start + offset ∧
                  block.start + offset < block.stop := by
              unfold Block.stop
              omega
            rw [Block.copyTo, if_pos here, Nat.add_sub_cancel_left]
      · exact inductionHypothesis restInOrder later _

/-!
## Words as bytes
-/

/-- Byte `b` of a word, the lowest first. -/
def byteOf (word : UInt64) (b : Nat) : UInt8 :=
  UInt8.ofNat (word.toNat / 256 ^ b)

/-- The number that `count` bytes stand for, the lowest first. -/
def littleEndian (bytes : Nat → UInt8) : Nat → Nat
  | 0 => 0
  | count + 1 =>
      littleEndian bytes count + 256 ^ count * (bytes count).toNat

/-- The word that eight bytes stand for. -/
def wordOf (bytes : Nat → UInt8) : UInt64 :=
  UInt64.ofNat (littleEndian bytes 8)

theorem littleEndian_byteOf
    (word : UInt64)
    (count : Nat) :
    littleEndian (byteOf word) count = word.toNat % 256 ^ count := by
  induction count with
  | zero =>
      simp [littleEndian, Nat.mod_one]
  | succ count inductionHypothesis =>
      have digit :
          (byteOf word count).toNat = word.toNat / 256 ^ count % 256 := by
        simp [byteOf]
      rw [littleEndian, inductionHypothesis, digit, Nat.mod_pow_succ]

/-- A word depends on its eight bytes. -/
theorem wordOf_congr
    {first second : Nat → UInt8}
    (same : ∀ b, b < 8 → first b = second b) :
    wordOf first = wordOf second := by
  simp [wordOf, littleEndian, same]

/-- The bytes of a word read back as the word. -/
theorem wordOf_byteOf (word : UInt64) : wordOf (byteOf word) = word := by
  have bounded : word.toNat < 256 ^ 8 := UInt64.toNat_lt word
  rw [wordOf, littleEndian_byteOf, Nat.mod_eq_of_lt bounded,
    UInt64.ofNat_toNat]

end ByteBlocks
