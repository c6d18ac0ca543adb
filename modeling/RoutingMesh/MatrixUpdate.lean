import Mathlib.Data.List.Sort
import RoutingMesh.Matrix

/-!
# Merging a beacon

Model of `copyLine`, `discoverIds` and of the part of `matrix_update` that
builds the new `g_myMatrix`.  The spanning tree and the topology event that
follow it are modelled with Prim's algorithm and with the node.
-/

namespace RoutingMesh

open CellArray KeyedCells

/-- `copyLine`. -/
def copyLine
    (finalMatrix matrixToCopy : TdmaMatrix)
    (oldLinePos newLinePos : Nat) : TdmaMatrix :=
  { finalMatrix with
    matrix :=
      write finalMatrix.matrix newLinePos
        (copyUntilMissing finalMatrix.idOfActiveNodes
          (matrixToCopy.matrix oldLinePos)
          (finalMatrix.matrix newLinePos)
          matrixToCopy.idOfActiveNodes 0) }

/-- `memset(final->matrix[pos], 0, MAX_NODES)`. -/
def clearLine (final : TdmaMatrix) (pos : Nat) : TdmaMatrix :=
  { final with matrix := write final.matrix pos (fun _ => 0) }

/-- The union loop of `discoverIds`, before the sort. -/
def appendUnknownIds (known reported : List UInt8) : List UInt8 :=
  reported.foldl
    (fun ids id => if id ∈ ids then ids else ids ++ [id])
    known

/-- `discoverIds`: the union of both identifier lists, sorted by `qsort`. -/
def discoverIds (matrixA matrixB : TdmaMatrix) : List UInt8 :=
  (appendUnknownIds matrixA.idOfActiveNodes
    matrixB.idOfActiveNodes).insertionSort (· ≤ ·)

/-- One local node moves to its place in `final`: row, creation time and age. -/
def copyLocalLine
    (localMat final : TdmaMatrix)
    (i linePos : Nat) : TdmaMatrix :=
  let copied := copyLine final localMat i linePos
  { copied with
    creationTime :=
      write copied.creationTime linePos (localMat.creationTime i)
    age := write copied.age linePos (localMat.age i) }

/--
The first loop of `matrix_update` over the local nodes `rest`, whose first
one is at position `i`; a node without a place in `final` ends it.
-/
def copyLocalLines
    (localMat : TdmaMatrix) :
    TdmaMatrix → List UInt8 → Nat → TdmaMatrix
  | final, [], _ => final
  | final, id :: rest, i =>
      match searchId final id with
      | none => final
      | some linePos =>
          copyLocalLines localMat
            (copyLocalLine localMat final i linePos) rest (i + 1)

/-- The age test on the local entry that guards an indirect report. -/
def localEntryExpired
    (localMat : TdmaMatrix)
    (myPos : Option Nat)
    (time : ℚ) : Bool :=
  match myPos with
  | none => false
  | some pos => decide (time - localMat.creationTime pos ≥ maxAge)

/-- `myPos == -1 || myCreationTime < newCreationTime`. -/
def reportIsNewer
    (localMat : TdmaMatrix)
    (myPos : Option Nat)
    (newCreationTime : ℚ) : Bool :=
  match myPos with
  | none => true
  | some pos => decide (localMat.creationTime pos < newCreationTime)

/--
The body of the loop over the received nodes, for node `id` at position `i`.
Every received identifier is in the union, so the missing position stands for
a case the source cannot reach.
-/
def acceptReport
    (localMat newMat final : TdmaMatrix)
    (otherIp : UInt8)
    (time : ℚ)
    (id : UInt8)
    (i : Nat) : TdmaMatrix :=
  if id = localMat.myId ∨ newMat.age i ≥ maxAge then
    final
  else
    let isDirect := id == otherIp
    let myPos := searchId localMat id
    match searchId final id with
    | none => final
    | some finalPos =>
        if !isDirect && localEntryExpired localMat myPos time then
          final
        else
          let newCreationTime := time - newMat.age i
          if reportIsNewer localMat myPos newCreationTime then
            let copied := copyLine (clearLine final finalPos) newMat i finalPos
            let creationTime :=
              if isDirect then
                newCreationTime
              else
                match myPos with
                | some pos => localMat.creationTime pos
                | none => newCreationTime
            { copied with
              creationTime := write copied.creationTime finalPos creationTime
              age := write copied.age finalPos (newMat.age i) }
          else
            final

/-- The loop of `matrix_update` over the received nodes. -/
def acceptReports
    (localMat newMat final : TdmaMatrix)
    (otherIp : UInt8)
    (time : ℚ) : TdmaMatrix :=
  forEachFrom
    (fun final id i =>
      acceptReport localMat newMat final otherIp time id i)
    final newMat.idOfActiveNodes 0

/-- The confirmation that this node heard `otherIp`: only the own row changes. -/
def confirmDirectLink
    (final : TdmaMatrix)
    (otherIp : UInt8)
    (time : ℚ) : TdmaMatrix :=
  match searchId final final.myId, searchId final otherIp with
  | some myIpPos, some otherIpPos =>
      { final with
        matrix := writeAt final.matrix myIpPos otherIpPos 1
        creationTime := write final.creationTime myIpPos time }
  | _, _ => final

/-- One pass of the outer loop that copies the local link qualities. -/
def copyQualityLine
    (localMat : TdmaMatrix)
    (ids : List UInt8)
    (table : Nat → Nat → UInt8)
    (id : UInt8)
    (i : Nat) : Nat → Nat → UInt8 :=
  match ids.idxOf? id with
  | none => table
  | some finalPos =>
      write table finalPos
        (copyPresent ids (localMat.linkQuality i) (table finalPos)
          localMat.idOfActiveNodes 0)

/-- The double loop that copies the local link qualities. -/
def copyLinkQualities
    (localMat final : TdmaMatrix) : TdmaMatrix :=
  { final with
    linkQuality :=
      forEachFrom (copyQualityLine localMat final.idOfActiveNodes)
        final.linkQuality localMat.idOfActiveNodes 0 }

/-- The fill pass: every active link without a quality starts at the initial one. -/
def fillLinkQualities
    (mode : LinkQualityMode)
    (final : TdmaMatrix) : TdmaMatrix :=
  let number := final.numberOfActiveNodes
  { final with
    linkQuality := fun i j =>
      if i < number ∧ j < number ∧ i ≠ j ∧
          final.matrix i j = 1 ∧ final.linkQuality i j = 0 then
        initialLinkQuality mode
      else
        final.linkQuality i j }

/-- The boost of the link to the sender, after the fill pass. -/
def boostDirectLink
    (mode : LinkQualityMode)
    (final : TdmaMatrix)
    (otherIp : UInt8) : TdmaMatrix :=
  match searchId final final.myId, searchId final otherIp with
  | some myIpPos, some otherIpPos =>
      if final.linkQuality myIpPos otherIpPos < initialLinkQuality mode + 10 then
        { final with
          linkQuality :=
            writeAt final.linkQuality myIpPos otherIpPos
              (initialLinkQuality mode + 10) }
      else
        final
  | _, _ => final

/-- The content of `g_myMatrix` after the `memcpy` of `matrix_update`. -/
def mergedMatrix
    (mode : LinkQualityMode)
    (mine newMat : TdmaMatrix)
    (otherIp : UInt8)
    (time : ℚ) : TdmaMatrix :=
  let localMat := updateLinkQuality mine otherIp false
  let blank :=
    TdmaMatrix.zeroed localMat.myId (discoverIds localMat newMat)
  let copied :=
    copyLocalLines localMat blank localMat.idOfActiveNodes 0
  let accepted := acceptReports localMat newMat copied otherIp time
  let confirmed := confirmDirectLink accepted otherIp time
  let rated := copyLinkQualities localMat confirmed
  boostDirectLink mode (fillLinkQualities mode rated) otherIp

end RoutingMesh
