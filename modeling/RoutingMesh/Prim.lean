import Mathlib.Data.List.Range
import RoutingMesh.Matrix

/-!
# Prim's algorithm on the topology matrix

Model of `primAlgorithm_weighted`.  The local arrays are one state; a parent
of -1 is `none`, and the tree is the 0/1 table of `g_spanningTree`.  The
costs of two ends of one link are computed separately, as each end reads its
own quality cell first.
-/

namespace RoutingMesh

open CellArray KeyedCells

/-- The local arrays `in_mst`, `parent` and `key`. -/
structure PrimState where
  inMst : Nat → Bool
  parent : Nat → Option Nat
  key : Nat → Int

/-- The key of a position that no link has reached. -/
def unreachedKey : Int := 999

/-- The arrays before the first selection. -/
def primStart : PrimState where
  inMst := fun _ => false
  parent := fun _ => none
  key := write (fun _ => unreachedKey) 0 0

/-- `fwd || rev`: a link that at least one end reports. -/
def linked (mat : TdmaMatrix) (u v : Nat) : Bool :=
  mat.matrix u v != 0 || mat.matrix v u != 0

/-- The quality that the edge from `u` to `v` is weighed with. -/
def effectiveQuality
    (mode : LinkQualityMode)
    (mat : TdmaMatrix)
    (u v : Nat) : UInt8 :=
  let fwd := mat.matrix u v != 0
  let rev := mat.matrix v u != 0
  let measured := mat.linkQuality u v
  let reported := if measured = 0 then mat.linkQuality v u else measured
  let quality := if reported = 0 then initialLinkQuality mode else reported
  if !(fwd && rev) && quality > 20 then quality - 20 else quality

/-- `100 - quality`. -/
def linkCost
    (mode : LinkQualityMode)
    (mat : TdmaMatrix)
    (u v : Nat) : Int :=
  100 - (effectiveQuality mode mat u v).toNat

/-- The scan for the smallest key outside the tree; `none` stands for `u == -1`. -/
def selectMin (num : Nat) (state : PrimState) : Option Nat :=
  ((List.range num).foldl
    (fun (best : Int × Option Nat) v =>
      if !state.inMst v && decide (state.key v < best.1) then
        (state.key v, some v)
      else
        best)
    (unreachedKey, none)).2

/-- The body of the inner loop, for one position `v`. -/
def relax
    (mode : LinkQualityMode)
    (mat : TdmaMatrix)
    (u : Nat)
    (state : PrimState)
    (v : Nat) : PrimState :=
  if linked mat u v && !state.inMst v then
    let cost := linkCost mode mat u v
    if cost < state.key v then
      { state with
        parent := write state.parent v (some u)
        key := write state.key v cost }
    else
      state
  else
    state

/-- The body of the outer loop once `u` has been selected. -/
def addToMst
    (mode : LinkQualityMode)
    (mat : TdmaMatrix)
    (state : PrimState)
    (u : Nat) : PrimState :=
  (List.range mat.numberOfActiveNodes).foldl (relax mode mat u)
    { state with inMst := write state.inMst u true }

/-- The outer loop; it stops early when no position is left to select. -/
def primLoop
    (mode : LinkQualityMode)
    (mat : TdmaMatrix) :
    Nat → PrimState → PrimState
  | 0, state => state
  | count + 1, state =>
      match selectMin mat.numberOfActiveNodes state with
      | none => state
      | some u => primLoop mode mat count (addToMst mode mat state u)

/-- The last loop of `primAlgorithm_weighted`, for one position `i`. -/
def plantEdge
    (parent : Nat → Option Nat)
    (tree : Nat → Nat → UInt8)
    (i : Nat) : Nat → Nat → UInt8 :=
  match parent i with
  | none => tree
  | some p => writeAt (writeAt tree p i 1) i p 1

/-- The arrays at the end of the outer loop. -/
def primResult
    (mode : LinkQualityMode)
    (mat : TdmaMatrix) : PrimState :=
  primLoop mode mat mat.numberOfActiveNodes primStart

/-- `primAlgorithm_weighted`: the content of `g_spanningTree` after the call. -/
def primAlgorithmWeighted
    (mode : LinkQualityMode)
    (mat : TdmaMatrix) : Nat → Nat → UInt8 :=
  if mat.numberOfActiveNodes ≤ 1 then
    fun _ _ => 0
  else
    (List.range' 1 (mat.numberOfActiveNodes - 1)).foldl
      (plantEdge (primResult mode mat).parent) (fun _ _ => 0)

end RoutingMesh
