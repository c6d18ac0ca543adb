import Mathlib.Algebra.Order.Ring.Rat
import Mathlib.Data.UInt
import RoutingMesh.KeyedCells

/-!
# The topology matrix

Model of the data and of the in-place operations of `matrix.c`.  The list of
active identifiers is the used part of `idOfActiveNodes`, so its length is
`numberOfActiveNodes`; the parallel arrays are cell functions, and keep their
stale cells past the used part as the C arrays do.  Times are seconds read as
exact rationals.
-/

namespace RoutingMesh

open CellArray

/-- `MAX_NODES`. -/
def maxNodes : Nat := 20

/-- The ids of the nodes, as the loops over all of them go through them. -/
def nodeIds (numNodes : UInt8) : List UInt8 :=
  (List.range numNodes.toNat).map fun s => UInt8.ofNat (s + 1)

theorem toNat_nodeId
    {numNodes : UInt8}
    {s : Nat}
    (below : s < numNodes.toNat) :
    (UInt8.ofNat (s + 1)).toNat = s + 1 := by
  have bounded := numNodes.toNat_lt
  rw [UInt8.toNat_ofNat', Nat.mod_eq_of_lt (by omega)]

theorem mem_nodeIds
    {numNodes nid : UInt8} :
    nid ∈ nodeIds numNodes ↔ 0 < nid ∧ nid ≤ numNodes := by
  simp only [nodeIds, List.mem_map, List.mem_range,
    UInt8.lt_iff_toNat_lt, UInt8.le_iff_toNat_le, UInt8.toNat_zero]
  constructor
  · rintro ⟨s, below, rfl⟩
    rw [toNat_nodeId below]
    omega
  · rintro ⟨positive, atMost⟩
    have below : nid.toNat - 1 < numNodes.toNat := by omega
    refine ⟨nid.toNat - 1, below, ?_⟩
    apply UInt8.toNat_inj.mp
    rw [toNat_nodeId below]
    omega

theorem nodup_nodeIds (numNodes : UInt8) : (nodeIds numNodes).Nodup := by
  apply List.nodup_range.map_on
  intro s listed t otherListed same
  have sameNumber := congrArg UInt8.toNat same
  rw [toNat_nodeId (List.mem_range.mp listed),
    toNat_nodeId (List.mem_range.mp otherListed)] at sameNumber
  omega

@[simp]
theorem length_nodeIds (numNodes : UInt8) :
    (nodeIds numNodes).length = numNodes.toNat := by
  simp [nodeIds]

/-- `MAX_AGE`, in seconds. -/
def maxAge : ℚ := 2

/-- `sizeof(tdma_header_t)`, which is packed. -/
def headerSize : Nat := 18

/-- The build modes of `LINK_QUALITY_MODE`; `test` is the default. -/
inductive LinkQualityMode where
  | critical
  | test
  | prod
  deriving Repr, DecidableEq

/-- `INITIAL_LINK_QUALITY` in each build mode. -/
def initialLinkQuality : LinkQualityMode → UInt8
  | .critical => 20
  | .test => 100
  | .prod => 50

/-- `tdma_matrix_t`. -/
structure TdmaMatrix where
  myId : UInt8
  idOfActiveNodes : List UInt8
  matrix : Nat → Nat → UInt8
  linkQuality : Nat → Nat → UInt8
  creationTime : Nat → ℚ
  age : Nat → ℚ

namespace TdmaMatrix

/-- The `numberOfActiveNodes` counter. -/
def numberOfActiveNodes (mat : TdmaMatrix) : Nat :=
  mat.idOfActiveNodes.length

/-- A matrix with every cell zero, as left by `memset`. -/
def zeroed (myId : UInt8) (ids : List UInt8) : TdmaMatrix where
  myId := myId
  idOfActiveNodes := ids
  matrix := fun _ _ => 0
  linkQuality := fun _ _ => 0
  creationTime := fun _ => 0
  age := fun _ => 0

end TdmaMatrix

/-- `MATRIX_init`, at clock reading `time`. -/
def matrixInit (myId : UInt8) (time : ℚ) : TdmaMatrix :=
  { TdmaMatrix.zeroed myId [myId] with
    creationTime := write (fun _ => 0) 0 time }

/-- `searchId`; `none` stands for the result -1. -/
def searchId (mat : TdmaMatrix) (id : UInt8) : Option Nat :=
  mat.idOfActiveNodes.idxOf? id

/-!
## Removing a node
-/

/-- `removeIdList`: the three vectors close the gap at `pos`. -/
def removeIdList (mat : TdmaMatrix) (pos : Nat) : TdmaMatrix :=
  let count := mat.numberOfActiveNodes - pos - 1
  { mat with
    idOfActiveNodes := mat.idOfActiveNodes.eraseIdx pos
    age := moveDown mat.age pos count
    creationTime := moveDown mat.creationTime pos count }

/-- One pass of the column loop of `removeIdMatrix`, for one row of `number` cells. -/
def removeColumn
    (number pos : Nat)
    (row : Nat → UInt8) : Nat → UInt8 :=
  write (moveDownLoop row pos (number - 1 - pos)) (number - 1) 0

/-- `removeIdMatrix`: the rows close the gap, then every row does. -/
def removeIdMatrix (mat : TdmaMatrix) (pos : Nat) : TdmaMatrix :=
  let number := mat.numberOfActiveNodes
  let rowsAfter := number - pos - 1
  let rows := moveDown mat.matrix pos rowsAfter
  let qualityRows := moveDown mat.linkQuality pos rowsAfter
  { mat with
    matrix := fun i =>
      if i < number then removeColumn number pos (rows i) else rows i
    linkQuality := fun i =>
      if i < number then removeColumn number pos (qualityRows i)
      else qualityRows i }

/-- The local cells that `removeDeadLinks_locked` lowers before it removes a node. -/
def penalizeNode (mat : TdmaMatrix) (pos : Nat) : TdmaMatrix :=
  match searchId mat mat.myId with
  | none => mat
  | some myPos =>
      let quality := mat.linkQuality myPos pos
      { mat with
        linkQuality :=
          writeAt mat.linkQuality myPos pos
            (if quality > 20 then quality - 20 else 0)
        matrix := writeAt mat.matrix myPos pos 0 }

/-- The body of the removal branch of `removeDeadLinks_locked`. -/
def removeNode (mat : TdmaMatrix) (pos : Nat) : TdmaMatrix :=
  removeIdList (removeIdMatrix (penalizeNode mat pos) pos) pos

/-- The node at `pos` is another node whose age has reached `MAX_AGE`. -/
def isDeadAt (mat : TdmaMatrix) (time : ℚ) (pos : Nat) : Bool :=
  match mat.idOfActiveNodes[pos]? with
  | none => false
  | some id => id != mat.myId && decide (time - mat.creationTime pos ≥ maxAge)

/--
The loop of `removeDeadLinks_locked` from index `i`.  A removal keeps the
index (`i--` and `i++`) and shortens the list, so each pass deals with one
node and as many passes suffice as nodes were listed.
-/
def removeDeadLinksLoop (time : ℚ) : Nat → TdmaMatrix → Nat → TdmaMatrix
  | 0, mat, _ => mat
  | passes + 1, mat, i =>
      if i < mat.numberOfActiveNodes then
        if isDeadAt mat time i then
          removeDeadLinksLoop time passes (removeNode mat i) i
        else
          removeDeadLinksLoop time passes mat (i + 1)
      else
        mat

/-- `removeDeadLinks_locked` and `removeDeadLinks`, at clock reading `time`. -/
def removeDeadLinks (mat : TdmaMatrix) (time : ℚ) : TdmaMatrix :=
  removeDeadLinksLoop time mat.numberOfActiveNodes mat 0

/-!
## Link quality
-/

/-- The cell change of `MATRIX_updateLinkQuality`: -40 for a miss, +3 for a packet. -/
def adjustQuality (quality : UInt8) (timeout : Bool) : UInt8 :=
  if timeout then
    if quality > 40 then quality - 40 else 0
  else
    if quality < 97 then quality + 3 else 100

/-- `MATRIX_updateLinkQuality`. -/
def updateLinkQuality
    (mat : TdmaMatrix)
    (nodeId : UInt8)
    (timeout : Bool) : TdmaMatrix :=
  match searchId mat mat.myId, searchId mat nodeId with
  | some myIdx, some nodeIdx =>
      { mat with
        linkQuality :=
          writeAt mat.linkQuality myIdx nodeIdx
            (adjustQuality (mat.linkQuality myIdx nodeIdx) timeout) }
  | _, _ => mat

/-- `MATRIX_setLinkQuality`. -/
def setLinkQuality
    (mat : TdmaMatrix)
    (nodeId quality : UInt8) : TdmaMatrix :=
  match searchId mat mat.myId, searchId mat nodeId with
  | some myIdx, some nodeIdx =>
      { mat with
        linkQuality := writeAt mat.linkQuality myIdx nodeIdx quality }
  | _, _ => mat

/-!
## Serialisation

`serializeMatrix` reads the clock twice: once for the removal of dead links
and once for the ages.  The bytes it writes are modelled with the codec.
-/

/-- The refresh of the own entry and of all ages in `serializeMatrix`. -/
def refreshAges (mat : TdmaMatrix) (time : ℚ) : TdmaMatrix :=
  let creationTime :=
    match searchId mat mat.myId with
    | some myPos => write mat.creationTime myPos time
    | none => mat.creationTime
  { mat with
    creationTime := creationTime
    age := fun x =>
      match mat.idOfActiveNodes[x]? with
      | none => mat.age x
      | some id => if id = mat.myId then 0 else time - creationTime x }

/-- The matrix that `serializeMatrix` leaves in `g_myMatrix` and copies out. -/
def serializedMatrix
    (mat : TdmaMatrix)
    (removalTime time : ℚ) : TdmaMatrix :=
  refreshAges (removeDeadLinks mat removalTime) time

end RoutingMesh
