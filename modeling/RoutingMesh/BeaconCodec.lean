import Mathlib.Tactic.IntervalCases
import RoutingMesh.ByteBlocks
import RoutingMesh.GossipFreshness

/-!
# The bytes of a beacon

Model of `parameterSize`, `parameterPos`, `serializeMatrix` and
`deserializeMatrix` on memory.  Offsets are kept in eight bits as in the
source, so the layout wraps around once a matrix has 16 nodes.  Ages travel
as the 64 bits of a double, which nothing here interprets.
-/

namespace RoutingMesh

open ByteBlocks

/-- The results of `parameterSize`. -/
structure ParameterSize where
  idOfActiveNodesSize : UInt16
  matrixSize : UInt16
  ageSize : UInt16

/-- `parameterSize`. -/
def parameterSize (numberOfActiveNodes : UInt8) : ParameterSize where
  idOfActiveNodesSize := UInt16.ofNat numberOfActiveNodes.toNat
  matrixSize :=
    UInt16.ofNat (numberOfActiveNodes.toNat * numberOfActiveNodes.toNat)
  ageSize := UInt16.ofNat (8 * (numberOfActiveNodes.toNat + 1))

/-- The results of `parameterPos`. -/
structure ParameterPos where
  idOfActiveNodesStart : UInt8
  matrixStart : UInt8
  ageStart : UInt8

/-- `parameterPos`. -/
def parameterPos (numberActiveNodes : UInt8) : ParameterPos where
  idOfActiveNodesStart := 1
  matrixStart := UInt8.ofNat (1 + numberActiveNodes.toNat + 1)
  ageStart :=
    UInt8.ofNat
      (1 + 1 + numberActiveNodes.toNat +
        numberActiveNodes.toNat * numberActiveNodes.toNat + 1)

/-- The counter of active nodes as it is stored. -/
def TdmaMatrix.nodeCount (mat : TdmaMatrix) : UInt8 :=
  UInt8.ofNat mat.numberOfActiveNodes

/-- `payloadpkt_len`. -/
def payloadLength (numberOfActiveNodes : UInt8) : UInt16 :=
  (parameterPos numberOfActiveNodes).ageStart.toUInt16 +
    (parameterSize numberOfActiveNodes).ageSize

/-- The `memcpy` calls of `serializeMatrix`, with the doubles stored in `age`. -/
def serializedBlocks
    (mat : TdmaMatrix)
    (age : Nat → UInt64) : List (Block UInt8) :=
  let count := mat.nodeCount
  let size := parameterSize count
  let pos := parameterPos count
  [{ start := 0
     size := 1
     source := fun _ => count },
    { start := pos.idOfActiveNodesStart.toNat
      size := size.idOfActiveNodesSize.toNat
      source := fun i => mat.idOfActiveNodes.getD i 0 }] ++
    (List.range count.toNat).map (fun x =>
      { start := pos.matrixStart.toNat + count.toNat * x
        size := count.toNat
        source := mat.matrix x }) ++
    [{ start := pos.ageStart.toNat
       size := size.ageSize.toNat
       source := fun q => byteOf (age (q / 8)) (q % 8) }]

/--
The buffer that `serializeMatrix` builds; the bytes from `payloadLength` on
lie behind the block it allocates.
-/
def serializeMatrix
    (mat : TdmaMatrix)
    (age : Nat → UInt64) : Nat → UInt8 :=
  copyAll (fun _ => 0) (serializedBlocks mat age)

/-- A received packet: header, payload, and what the buffer held before. -/
def receivedPacket
    (header payload : Nat → UInt8)
    (payloadLen : Nat)
    (rest : Nat → UInt8) : Nat → UInt8 :=
  fun p =>
    if p < headerSize then
      header p
    else if p < headerSize + payloadLen then
      payload (p - headerSize)
    else
      rest p

/-- What `deserializeMatrix` fills in; the other fields stay zero. -/
structure DecodedMatrix where
  numberOfActiveNodes : UInt8
  idOfActiveNodes : List UInt8
  matrix : Nat → Nat → UInt8
  age : Nat → UInt64

/-- `deserializeMatrix`. -/
def deserializeMatrix (packet : Nat → UInt8) : DecodedMatrix :=
  let count := packet headerSize
  let size := parameterSize count
  let pos := parameterPos count
  { numberOfActiveNodes := count
    idOfActiveNodes :=
      (List.range size.idOfActiveNodesSize.toNat).map fun i =>
        packet (headerSize + (pos.idOfActiveNodesStart.toNat + i))
    matrix := fun x j =>
      if x < count.toNat ∧ j < count.toNat then
        packet (headerSize + (pos.matrixStart.toNat + count.toNat * x + j))
      else
        0
    age := fun i =>
      if 8 * i < size.ageSize.toNat then
        wordOf fun b =>
          packet (headerSize + (pos.ageStart.toNat + (8 * i + b)))
      else
        0 }

/--
Whatever the header and the rest of the buffer hold, the packet decodes to
the matrix it was made of, and every byte was written inside the payload.
-/
structure BeaconRoundTrips
    (mat : TdmaMatrix)
    (age : Nat → UInt64) : Prop where
  inside :
    ∀ block ∈ serializedBlocks mat age,
      block.stop ≤ (payloadLength mat.nodeCount).toNat
  decodes :
    ∀ header rest,
      let decoded :=
        deserializeMatrix
          (receivedPacket header (serializeMatrix mat age)
            (payloadLength mat.nodeCount).toNat rest)
      decoded.numberOfActiveNodes.toNat = mat.numberOfActiveNodes ∧
        decoded.idOfActiveNodes = mat.idOfActiveNodes ∧
        (∀ i, i < mat.numberOfActiveNodes →
          ∀ j, j < mat.numberOfActiveNodes →
            decoded.matrix i j = mat.matrix i j) ∧
        ∀ i, i < mat.numberOfActiveNodes → decoded.age i = age i

/-!
## The layout of small matrices
-/

/-- Row `x` ends before the rows after it, and with the matrix. -/
private theorem row_ends
    (number : Nat)
    {x y : Nat}
    (before : x < y) :
    number * x + number ≤ number * y := by
  calc
    number * x + number = number * (x + 1) := (Nat.mul_succ number x).symm
    _ ≤ number * y := Nat.mul_le_mul_left number before

theorem toNat_nodeCount
    {mat : TdmaMatrix}
    (bounded : mat.numberOfActiveNodes ≤ maxNodes) :
    mat.nodeCount.toNat = mat.numberOfActiveNodes := by
  unfold TdmaMatrix.nodeCount
  rw [UInt8.toNat_ofNat']
  unfold maxNodes at bounded
  omega

section Small

variable {mat : TdmaMatrix} (small : mat.numberOfActiveNodes ≤ 15)
include small

private theorem toNat_nodeCount_small :
    mat.nodeCount.toNat = mat.numberOfActiveNodes :=
  toNat_nodeCount (small.trans (by decide))

private theorem square_le :
    mat.numberOfActiveNodes * mat.numberOfActiveNodes ≤ 225 :=
  Nat.mul_le_mul small small

theorem toNat_matrixStart :
    (parameterPos mat.nodeCount).matrixStart.toNat =
      mat.numberOfActiveNodes + 2 := by
  simp only [parameterPos, toNat_nodeCount_small small, UInt8.toNat_ofNat']
  omega

theorem toNat_ageStart :
    (parameterPos mat.nodeCount).ageStart.toNat =
      mat.numberOfActiveNodes * mat.numberOfActiveNodes +
        mat.numberOfActiveNodes + 3 := by
  have bounded := square_le small
  simp only [parameterPos, toNat_nodeCount_small small, UInt8.toNat_ofNat']
  omega

theorem toNat_idOfActiveNodesSize :
    (parameterSize mat.nodeCount).idOfActiveNodesSize.toNat =
      mat.numberOfActiveNodes := by
  simp only [parameterSize, toNat_nodeCount_small small, UInt16.toNat_ofNat']
  omega

theorem toNat_ageSize :
    (parameterSize mat.nodeCount).ageSize.toNat =
      8 * (mat.numberOfActiveNodes + 1) := by
  simp only [parameterSize, toNat_nodeCount_small small, UInt16.toNat_ofNat']
  omega

theorem toNat_payloadLength :
    (payloadLength mat.nodeCount).toNat =
      mat.numberOfActiveNodes * mat.numberOfActiveNodes +
        mat.numberOfActiveNodes + 3 + 8 * (mat.numberOfActiveNodes + 1) := by
  have bounded := square_le small
  rw [payloadLength, UInt16.toNat_add, UInt8.toNat_toUInt16,
    toNat_ageStart small, toNat_ageSize small]
  omega

/-- Below 16 nodes the offsets do not wrap around. -/
theorem serializedBlocks_eq (age : Nat → UInt64) :
    serializedBlocks mat age =
      [{ start := 0
         size := 1
         source := fun _ => mat.nodeCount },
        { start := 1
          size := mat.numberOfActiveNodes
          source := fun i => mat.idOfActiveNodes.getD i 0 }] ++
        (List.range mat.numberOfActiveNodes).map (fun x =>
          { start :=
              mat.numberOfActiveNodes + 2 + mat.numberOfActiveNodes * x
            size := mat.numberOfActiveNodes
            source := mat.matrix x }) ++
        [{ start :=
             mat.numberOfActiveNodes * mat.numberOfActiveNodes +
               mat.numberOfActiveNodes + 3
           size := 8 * (mat.numberOfActiveNodes + 1)
           source := fun q => byteOf (age (q / 8)) (q % 8) }] := by
  unfold serializedBlocks
  dsimp only
  rw [toNat_matrixStart small, toNat_ageStart small,
    toNat_idOfActiveNodesSize small, toNat_ageSize small,
    toNat_nodeCount_small small]
  rfl

theorem inOrder_serializedBlocks (age : Nat → UInt64) :
    InOrder (serializedBlocks mat age) := by
  rw [serializedBlocks_eq small]
  unfold InOrder
  rw [List.pairwise_append, List.pairwise_append]
  refine ⟨⟨?_, ?_, ?_⟩, List.pairwise_singleton _ _, ?_⟩
  · simp [Block.stop]
  · rw [List.pairwise_map]
    refine List.pairwise_lt_range.imp ?_
    intro x y before
    have ends := row_ends mat.numberOfActiveNodes before
    simp only [Block.stop]
    omega
  · intro first firstListed row rowListed
    obtain ⟨x, _, rfl⟩ := List.mem_map.mp rowListed
    simp only [List.mem_cons, List.not_mem_nil, or_false] at firstListed
    rcases firstListed with rfl | rfl
    · simp only [Block.stop]
      omega
    · simp only [Block.stop]
      omega
  · intro earlier earlierListed ages agesListed
    obtain rfl := List.mem_singleton.mp agesListed
    rcases List.mem_append.mp earlierListed with header | row
    · simp only [List.mem_cons, List.not_mem_nil, or_false] at header
      rcases header with rfl | rfl
      · simp only [Block.stop]
        omega
      · simp only [Block.stop]
        omega
    · obtain ⟨x, xInRange, rfl⟩ := List.mem_map.mp row
      have ends :=
        row_ends mat.numberOfActiveNodes (List.mem_range.mp xInRange)
      simp only [Block.stop]
      omega

/-- Below 16 nodes every byte is written inside the payload. -/
theorem inside_of_small (age : Nat → UInt64) :
    ∀ block ∈ serializedBlocks mat age,
      block.stop ≤ (payloadLength mat.nodeCount).toNat := by
  rw [serializedBlocks_eq small, toNat_payloadLength small]
  intro block listed
  simp only [List.mem_append, List.mem_cons, List.not_mem_nil, or_false,
    List.mem_map, List.mem_range] at listed
  rcases listed with ((rfl | rfl) | ⟨x, inBounds, rfl⟩) | rfl
  · simp only [Block.stop]
    omega
  · simp only [Block.stop]
    omega
  · have ends := row_ends mat.numberOfActiveNodes inBounds
    simp only [Block.stop]
    omega
  · simp only [Block.stop]
    omega

/-- A byte of a block arrives where the receiver looks for it. -/
theorem receivedPacket_of_mem
    {age : Nat → UInt64}
    {block : Block UInt8}
    (listed : block ∈ serializedBlocks mat age)
    {offset : Nat}
    (inBounds : offset < block.size)
    (header rest : Nat → UInt8) :
    receivedPacket header (serializeMatrix mat age)
        (payloadLength mat.nodeCount).toNat rest
        (headerSize + (block.start + offset)) =
      block.source offset := by
  have ends := inside_of_small small age block listed
  unfold Block.stop at ends
  have notHeader : ¬ headerSize + (block.start + offset) < headerSize := by
    omega
  have inPayload :
      headerSize + (block.start + offset) <
        headerSize + (payloadLength mat.nodeCount).toNat := by
    omega
  rw [receivedPacket, if_neg notHeader, if_pos inPayload,
    Nat.add_sub_cancel_left]
  exact copyAll_of_mem (inOrder_serializedBlocks small age) listed inBounds _

/-- Where the fields of the matrix lie in a packet. -/
theorem receivedPacket_fields
    (age : Nat → UInt64)
    (header rest : Nat → UInt8) :
    let packet :=
      receivedPacket header (serializeMatrix mat age)
        (payloadLength mat.nodeCount).toNat rest
    packet headerSize = mat.nodeCount ∧
      (∀ i, i < mat.numberOfActiveNodes →
        packet (headerSize + (1 + i)) = mat.idOfActiveNodes.getD i 0) ∧
      (∀ x, x < mat.numberOfActiveNodes →
        ∀ j, j < mat.numberOfActiveNodes →
          packet
              (headerSize +
                (mat.numberOfActiveNodes + 2 + mat.numberOfActiveNodes * x +
                  j)) =
            mat.matrix x j) ∧
      ∀ q, q < 8 * (mat.numberOfActiveNodes + 1) →
        packet
            (headerSize +
              (mat.numberOfActiveNodes * mat.numberOfActiveNodes +
                mat.numberOfActiveNodes + 3 + q)) =
          byteOf (age (q / 8)) (q % 8) := by
  intro packet
  have arrives :
      ∀ {block}, block ∈ serializedBlocks mat age →
        ∀ {offset}, offset < block.size →
          packet (headerSize + (block.start + offset)) =
            block.source offset :=
    fun listed _ inBounds =>
      receivedPacket_of_mem small listed inBounds header rest
  rw [serializedBlocks_eq small] at arrives
  refine ⟨?_, ?_, ?_, ?_⟩
  · exact arrives (List.mem_append_left _ (List.mem_append_left _
      List.mem_cons_self)) Nat.zero_lt_one
  · intro i inBounds
    exact arrives (List.mem_append_left _ (List.mem_append_left _
      (List.mem_cons_of_mem _ List.mem_cons_self))) inBounds
  · intro x xInBounds j jInBounds
    exact arrives (List.mem_append_left _ (List.mem_append_right _
      (List.mem_map_of_mem (List.mem_range.mpr xInBounds)))) jInBounds
  · intro q inBounds
    exact arrives (List.mem_append_right _ List.mem_cons_self) inBounds

/-- Below 16 nodes the beacon decodes to the matrix it was made of. -/
theorem decodes_of_small
    (age : Nat → UInt64)
    (header rest : Nat → UInt8) :
    let decoded :=
      deserializeMatrix
        (receivedPacket header (serializeMatrix mat age)
          (payloadLength mat.nodeCount).toNat rest)
    decoded.numberOfActiveNodes.toNat = mat.numberOfActiveNodes ∧
      decoded.idOfActiveNodes = mat.idOfActiveNodes ∧
      (∀ i, i < mat.numberOfActiveNodes →
        ∀ j, j < mat.numberOfActiveNodes →
          decoded.matrix i j = mat.matrix i j) ∧
      ∀ i, i < mat.numberOfActiveNodes → decoded.age i = age i := by
  obtain ⟨count, idAt, cellAt, ageAt⟩ :=
    receivedPacket_fields small age header rest
  simp only [deserializeMatrix, count, toNat_nodeCount_small small,
    toNat_matrixStart small, toNat_ageStart small,
    toNat_idOfActiveNodesSize small, toNat_ageSize small]
  refine ⟨trivial, ?_, ?_, ?_⟩
  · apply List.ext_getElem
    · simp [TdmaMatrix.numberOfActiveNodes]
    · intro i _ inBounds
      rw [List.getElem_map, List.getElem_range]
      refine (idAt i inBounds).trans ?_
      rw [List.getD_eq_getElem?_getD, List.getElem?_eq_getElem inBounds]
      rfl
  · intro x xInBounds j jInBounds
    rw [if_pos ⟨xInBounds, jInBounds⟩]
    exact cellAt x xInBounds j jInBounds
  · intro i inBounds
    rw [if_pos (by omega)]
    have bytes :
        ∀ b, b < 8 →
          receivedPacket header (serializeMatrix mat age)
              (payloadLength mat.nodeCount).toNat rest
              (headerSize +
                (mat.numberOfActiveNodes * mat.numberOfActiveNodes +
                  mat.numberOfActiveNodes + 3 + (8 * i + b))) =
            byteOf (age i) b := by
      intro b isByte
      rw [ageAt (8 * i + b) (by omega), Nat.mul_add_div (by decide),
        Nat.mul_add_mod, Nat.div_eq_of_lt isByte, Nat.mod_eq_of_lt isByte,
        Nat.add_zero]
    rw [wordOf_congr bytes, wordOf_byteOf]

end Small

/-- From 16 nodes on the last row is written past the end of the payload. -/
theorem not_inside_of_large
    {mat : TdmaMatrix}
    (large : 16 ≤ mat.numberOfActiveNodes)
    (bounded : mat.numberOfActiveNodes ≤ maxNodes)
    (age : Nat → UInt64) :
    ¬ ∀ block ∈ serializedBlocks mat age,
      block.stop ≤ (payloadLength mat.nodeCount).toNat := by
  intro inside
  have count := toNat_nodeCount bounded
  have lastRow :=
    inside
      { start :=
          (parameterPos mat.nodeCount).matrixStart.toNat +
            mat.nodeCount.toNat * (mat.numberOfActiveNodes - 1)
        size := mat.nodeCount.toNat
        source := mat.matrix (mat.numberOfActiveNodes - 1) }
      (List.mem_append_left _ (List.mem_append_right _
        (List.mem_map.mpr
          ⟨mat.numberOfActiveNodes - 1,
            List.mem_range.mpr (by omega), rfl⟩)))
  simp only [Block.stop, payloadLength, parameterPos, parameterSize, count]
    at lastRow
  revert lastRow large bounded
  unfold maxNodes
  generalize mat.numberOfActiveNodes = number
  intro large bounded
  interval_cases number <;> decide

/-- The codec keeps a matrix of the admitted size exactly below 16 nodes. -/
theorem beaconRoundTrips_iff
    {mat : TdmaMatrix}
    (bounded : mat.numberOfActiveNodes ≤ maxNodes)
    (age : Nat → UInt64) :
    BeaconRoundTrips mat age ↔ mat.numberOfActiveNodes ≤ 15 := by
  constructor
  · intro roundTrips
    by_contra notSmall
    exact not_inside_of_large (by omega) bounded age roundTrips.inside
  · intro small
    exact
      { inside := inside_of_small small age
        decodes := decodes_of_small small age }

/-- A decoded matrix, with its doubles read as the numbers they stand for. -/
def DecodedMatrix.toTdmaMatrix
    (value : UInt64 → ℚ)
    (decoded : DecodedMatrix) : TdmaMatrix :=
  { TdmaMatrix.zeroed 0 decoded.idOfActiveNodes with
    matrix := decoded.matrix
    age := fun i => value (decoded.age i) }

/--
The beacon of a reachable matrix decodes to the matrix, with every byte
written inside the payload, exactly when it lists fewer than 16 nodes.
-/
theorem beacon_roundTrips_of_reachable
    (mode : LinkQualityMode)
    {numNodes : Nat}
    (admitted : numNodes ≤ maxNodes)
    {me : UInt8}
    (own : InNetwork numNodes me)
    (time : ℚ)
    {state : MatrixState}
    (reachable :
      StepRun.Reachable (matrixStep mode) (matrixEnabled numNodes me)
        (matrixStart me time) state)
    (age : Nat → UInt64) :
    BeaconRoundTrips state.myMatrix age ↔
      state.myMatrix.numberOfActiveNodes ≤ 15 :=
  beaconRoundTrips_iff
    ((numberOfActiveNodes_le_of_reachable own reachable).trans admitted) age

/-- Node 1 hears node 2 and serialises one second later. -/
def serializesTwoNodes : List MatrixAction :=
  [.update (beaconOfRows [2] [[0]] [0]) 2 1, .serialize 2 2]

/-- Its beacon, with the ages 0 and 1 as doubles, makes the round trip. -/
theorem beacon_roundTrips_serializesTwoNodes :
    BeaconRoundTrips
      (serializesTwoNodes.foldl (matrixStep .test)
        (matrixStart 1 0)).myMatrix
      (fun i => if i = 1 then 0x3FF0000000000000 else 0) :=
  (beacon_roundTrips_of_reachable .test (by decide : 2 ≤ maxNodes)
    (by decide) 0
    ⟨serializesTwoNodes, StepRun.Run.of_checkRun (by decide +kernel)⟩ _).mpr
    (by decide +kernel)

/-- Node 1 hears one beacon of node 2 that lists the nodes 2 to 16. -/
def serializesSixteenNodes : List MatrixAction :=
  [.update
      (beaconOfRows [2, 3, 4, 5, 6, 7, 8, 9, 10, 11, 12, 13, 14, 15, 16]
        [] []) 2 1,
    .serialize 1 1]

/-- The rows of its matrix then run past the end of the payload. -/
theorem beacon_overflows_serializesSixteenNodes :
    ¬ ∀ (numNodes : Nat) (me : UInt8) (state : MatrixState)
        (age : Nat → UInt64),
      numNodes ≤ maxNodes →
      InNetwork numNodes me →
      StepRun.Reachable (matrixStep .test) (matrixEnabled numNodes me)
        (matrixStart me 0) state →
      BeaconRoundTrips state.myMatrix age := by
  intro always
  have roundTrips :=
    always 16 1
      (serializesSixteenNodes.foldl (matrixStep .test) (matrixStart 1 0))
      (fun _ => 0) (by decide) (by decide)
      ⟨serializesSixteenNodes, StepRun.Run.of_checkRun (by decide +kernel)⟩
  have number :
      (serializesSixteenNodes.foldl (matrixStep .test)
        (matrixStart 1 0)).myMatrix.numberOfActiveNodes = 16 := by
    decide +kernel
  exact not_inside_of_large number.ge (number.trans_le (by decide)) _
    roundTrips.inside

end RoutingMesh
