import RoutingMesh.HierarchyTree
import RoutingMesh.LoopFreeForwarding
import RoutingMesh.TreeRouting

/-!
# Forwarding in a hierarchy

Beacons carry no qualities, so a node knows the quality of its own links and
takes the initial one for every other link that both ends report.  Where the
links of the mesh form a hierarchy, and the superiors of linked siblings rate
no link below the initial quality when they merge, the trees of the nodes may
differ, and yet every hop comes closer on the forest of the superiors.
-/

namespace RoutingMesh

open CellArray KeyedCells

/-!
## The conditions
-/

/-- Both ends report the link. -/
def BothReport (mat : TdmaMatrix) (u v : Nat) : Prop :=
  mat.matrix u v = 1 ∧ mat.matrix v u = 1

/--
Every link joins a position and its superior, or two positions that a hub is
the superior of; these two and the hub all report their links to each other.
-/
def Hierarchy.Arranges
    (hierarchy : Hierarchy)
    (hubs : UInt8 → Prop)
    (mat : TdmaMatrix) : Prop :=
  ∀ u v, u < mat.numberOfActiveNodes → v < mat.numberOfActiveNodes →
    u ≠ v → linked mat u v = true →
      hierarchy.superior v = some u ∨ hierarchy.superior u = some v ∨
        ∃ y hub,
          hierarchy.superior u = some y ∧ hierarchy.superior v = some y ∧
            mat.idOfActiveNodes[y]? = some hub ∧ hubs hub ∧
            BothReport mat u v ∧ BothReport mat y u ∧ BothReport mat y v

/-- The node rates no link below the initial quality, but that to `otherIp`. -/
def RatesOthers
    (mode : LinkQualityMode)
    (otherIp : UInt8)
    (mat : TdmaMatrix) : Prop :=
  ∀ b ∈ mat.idOfActiveNodes, b ≠ otherIp →
    mat.topology.quality mat.myId b = 0 ∨
      initialLinkQuality mode ≤ mat.topology.quality mat.myId b

/-- Hubs merge a beacon only while they rate their other links well. -/
def HubsRateWell
    (mode : LinkQualityMode)
    (hubs : UInt8 → Prop)
    (network : MeshNetwork) : NetworkAction → Prop
  | .deliver message receiver _ =>
      hubs receiver → ∀ beacon ∈ network.sent[message]?,
        RatesOthers mode beacon.sender (network.nodes receiver).matrix.myMatrix
  | _ => True

instance
    (mode : LinkQualityMode)
    (hubs : UInt8 → Prop)
    [DecidablePred hubs]
    (network : MeshNetwork) :
    DecidablePred (HubsRateWell mode hubs network)
  | .transmit _ _ _ => .isTrue trivial
  | .deliver message receiver _ =>
      inferInstanceAs
        (Decidable
          (hubs receiver → ∀ beacon ∈ network.sent[message]?,
            ∀ b ∈ (network.nodes receiver).matrix.myMatrix.idOfActiveNodes,
              b ≠ beacon.sender → _ ∨ _))
  | .thread _ _ => .isTrue trivial

/-!
## The matrix that a tree was planted on
-/

/-- The stored tree was computed on `mat`, and the links have stayed since. -/
structure PlantedOn
    (mode : LinkQualityMode)
    (hubs : UInt8 → Prop)
    (me : UInt8)
    (state : MatrixState)
    (mat : TdmaMatrix) : Prop where
  tree : state.spanningTree = primAlgorithmWeighted mode mat
  ids : mat.idOfActiveNodes = state.treeIds
  listed : mat.Listed me
  unmeasured : UnmeasuredRows mode me mat.topology.quality
  filled :
    ∀ a b, a ≠ b → mat.topology.link a b = 1 →
      mat.topology.quality a b ≠ 0
  rated :
    hubs me → ∀ b, mat.topology.quality me b = 0 ∨
      initialLinkQuality mode ≤ mat.topology.quality me b
  sameLinks :
    ∀ a ∈ state.myMatrix.idOfActiveNodes,
      ∀ b ∈ state.myMatrix.idOfActiveNodes,
        state.myMatrix.topology.link a b = mat.topology.link a b

/-- What every run keeps at a node whose merges meet the condition. -/
structure HubInvariant
    (mode : LinkQualityMode)
    (hubs : UInt8 → Prop)
    (me : UInt8)
    (state : MatrixState) : Prop where
  listed : state.myMatrix.Listed me
  unmeasured : UnmeasuredRows mode me state.myMatrix.topology.quality
  planted : ∃ mat, PlantedOn mode hubs me state mat

theorem hubInvariant_matrixStart
    (mode : LinkQualityMode)
    (hubs : UInt8 → Prop)
    (me : UInt8)
    (start : ℚ) :
    HubInvariant mode hubs me (matrixStart me start) := by
  have unrated :
      ∀ a b, (matrixInit me start).topology.quality a b = 0 :=
    fun a b => readAt_zero _ a b
  have unlinked :
      ∀ a b, (matrixInit me start).topology.link a b = 0 :=
    fun a b => readAt_zero _ a b
  have unmeasured :
      UnmeasuredRows mode me (matrixInit me start).topology.quality :=
    fun a b _ => .inl (unrated a b)
  exact
    { listed := listed_matrixInit me start
      unmeasured := unmeasured
      planted :=
        ⟨matrixInit me start,
          { tree := rfl
            ids := rfl
            listed := listed_matrixInit me start
            unmeasured := unmeasured
            filled := by
              intro a b _ isLink
              rw [unlinked] at isLink
              exact absurd isLink (by decide)
            rated := fun _ b => .inl (unrated me b)
            sameLinks := fun _ _ _ _ => rfl }⟩ }

theorem link_eq_zero_of_not_listed
    {mat : TdmaMatrix}
    {a b : UInt8}
    (unlisted : a ∉ mat.idOfActiveNodes ∨ b ∉ mat.idOfActiveNodes) :
    mat.topology.link a b = 0 := by
  rcases unlisted with row | column
  · exact readAt_of_row_not_mem row _ b
  · exact readAt_of_column_not_mem column _ a

/-- A merge gives every reported link a quality. -/
theorem quality_mergedMatrix_ne_zero
    (mode : LinkQualityMode)
    {mine : TdmaMatrix}
    (distinct : mine.idOfActiveNodes.Nodup)
    (selfListed : mine.myId ∈ mine.idOfActiveNodes)
    (newMat : TdmaMatrix)
    (otherIp : UInt8)
    (time : ℚ)
    {a b : UInt8}
    (differ : a ≠ b)
    (isLink :
      (mergedMatrix mode mine newMat otherIp time).topology.link a b = 1) :
    (mergedMatrix mode mine newMat otherIp time).topology.quality a b ≠ 0 := by
  have bothListed :
      a ∈ discoverIds mine newMat ∧ b ∈ discoverIds mine newMat := by
    rw [← idOfActiveNodes_mergedMatrix mode mine newMat otherIp time]
    by_contra notListed
    rw [link_eq_zero_of_not_listed (not_and_or.mp notListed)] at isLink
    exact absurd isLink (by decide)
  have atCell :=
    quality_mergedMatrix distinct selfListed mode newMat otherIp time a b
  simp only [bothListed, ne_eq, differ, not_false_eq_true, isLink, true_and]
    at atCell
  have boostIsRated : initialLinkQuality mode + 10 ≠ 0 := by
    cases mode <;> decide
  rw [atCell]
  refine iteInduction (motive := (· ≠ 0)) (fun _ => boostIsRated) ?_
  intro _
  exact iteInduction (motive := (· ≠ 0))
    (fun _ => initialLinkQuality_ne_zero mode) (fun rated => rated)

/-- The row of a node that rates its other links well is rated well. -/
theorem quality_mergedMatrix_of_ratesOthers
    {mode : LinkQualityMode}
    {mine : TdmaMatrix}
    (distinct : mine.idOfActiveNodes.Nodup)
    (selfListed : mine.myId ∈ mine.idOfActiveNodes)
    (newMat : TdmaMatrix)
    {otherIp : UInt8}
    (time : ℚ)
    (rates : RatesOthers mode otherIp mine)
    (b : UInt8) :
    let merged := mergedMatrix mode mine newMat otherIp time
    merged.topology.quality mine.myId b = 0 ∨
      initialLinkQuality mode ≤ merged.topology.quality mine.myId b := by
  intro merged
  have boostIsMore :
      initialLinkQuality mode ≤ initialLinkQuality mode + 10 := by
    cases mode <;> decide
  have atCell :=
    quality_mergedMatrix distinct selfListed mode newMat otherIp time
      mine.myId b
  by_cases listed : b ∈ discoverIds mine newMat
  · by_cases isSender : b = otherIp
    · subst isSender
      simp only [listed, true_and] at atCell
      rw [atCell]
      right
      exact iteInduction (motive := (initialLinkQuality mode ≤ ·))
        (fun _ => boostIsMore)
        (fun notLess =>
          UInt8.le_trans boostIsMore (UInt8.not_lt.mp notLess))
    · simp only [isSender, false_and, and_false, ↓reduceIte,
        Topology.rate] at atCell
      rw [atCell]
      split
      · exact .inr (UInt8.le_refl _)
      · by_cases known : b ∈ mine.idOfActiveNodes
        · exact rates b known isSender
        · exact .inl (readAt_of_column_not_mem known _ _)
  · left
    apply readAt_of_column_not_mem
    rwa [idOfActiveNodes_mergedMatrix]

/-- A merge that meets the condition plants a tree that meets it. -/
theorem plantedOn_update
    {mode : LinkQualityMode}
    {hubs : UInt8 → Prop}
    {me : UInt8}
    {state : MatrixState}
    (listed : state.myMatrix.Listed me)
    (unmeasured : UnmeasuredRows mode me state.myMatrix.topology.quality)
    {newMat : TdmaMatrix}
    {otherIp : UInt8}
    {time : ℚ}
    (rates : hubs me → RatesOthers mode otherIp state.myMatrix) :
    PlantedOn mode hubs me
      (matrixStep mode state (.update newMat otherIp time))
      (mergedMatrix mode state.myMatrix newMat otherIp time) := by
  have stillUnmeasured :
      UnmeasuredRows mode me
        (matrixStep mode state
          (.update newMat otherIp time)).myMatrix.topology.quality :=
    unmeasuredRows_matrixStep listed unmeasured
  have wellRated :
      hubs me → ∀ b,
        let merged := mergedMatrix mode state.myMatrix newMat otherIp time
        merged.topology.quality me b = 0 ∨
          initialLinkQuality mode ≤ merged.topology.quality me b := by
    intro isHub b
    have atCell :=
      quality_mergedMatrix_of_ratesOthers listed.distinct listed.selfListed
        newMat time (rates isHub) b
    rwa [listed.own] at atCell
  exact
    { tree := rfl
      ids := rfl
      listed := listed.mergedMatrix mode newMat otherIp time
      unmeasured := stillUnmeasured
      filled := fun _ _ differ isLink =>
        quality_mergedMatrix_ne_zero mode listed.distinct listed.selfListed
          newMat otherIp time differ isLink
      rated := wellRated
      sameLinks := fun _ _ _ _ => rfl }

/-- An operation that is no merge keeps the tree and the links of kept nodes. -/
theorem PlantedOn.matrixStep
    {mode : LinkQualityMode}
    {hubs : UInt8 → Prop}
    {me : UInt8}
    {state : MatrixState}
    {mat : TdmaMatrix}
    (planted : PlantedOn mode hubs me state mat)
    (listed : state.myMatrix.Listed me)
    {action : MatrixAction}
    (noMerge : ∀ newMat otherIp time, action ≠ .update newMat otherIp time) :
    PlantedOn mode hubs me (matrixStep mode state action) mat := by
  have topology :
      (RoutingMesh.matrixStep mode state action).myMatrix.topology =
        topologyStep mode me state.myMatrix.topology action :=
    topology_matrixStep listed (MatrixAction.distinctIds_of_noMerge noMerge)
  have expired :
      ∀ time a b,
        a ∈ (state.myMatrix.topology.expire me time).members →
        b ∈ (state.myMatrix.topology.expire me time).members →
        (state.myMatrix.topology.expire me time).link a b =
          mat.topology.link a b := by
    intro time a b aKept bKept
    have known :
        ∀ {k}, k ∈ (state.myMatrix.topology.expire me time).members →
          k ∈ state.myMatrix.idOfActiveNodes := by
      intro k kept
      exact TdmaMatrix.mem_members.mp (Topology.mem_alive.mp kept).1
    refine Eq.trans (if_pos ⟨aKept, bKept⟩) ?_
    exact planted.sameLinks a (known aKept) b (known bKept)
  have sameLinks :
      ∀ a ∈ (RoutingMesh.matrixStep mode state action).myMatrix.topology.members,
        ∀ b ∈ (RoutingMesh.matrixStep mode state
            action).myMatrix.topology.members,
          (RoutingMesh.matrixStep mode state action).myMatrix.topology.link
              a b =
            mat.topology.link a b := by
    rw [topology]
    intro a aKept b bKept
    cases action with
    | update newMat otherIp time =>
        exact (noMerge newMat otherIp time rfl).elim
    | serialize removalTime time =>
        exact expired removalTime a b aKept bKept
    | removeDeadLinks time =>
        exact expired time a b aKept bKept
    | updateLinkQuality nodeId timeout =>
        exact planted.sameLinks a (TdmaMatrix.mem_members.mp aKept) b
          (TdmaMatrix.mem_members.mp bKept)
    | setLinkQuality nodeId quality =>
        exact planted.sameLinks a (TdmaMatrix.mem_members.mp aKept) b
          (TdmaMatrix.mem_members.mp bKept)
  have sameTree :
      (RoutingMesh.matrixStep mode state action).spanningTree =
          state.spanningTree ∧
        (RoutingMesh.matrixStep mode state action).treeIds =
          state.treeIds := by
    cases action with
    | update newMat otherIp time =>
        exact (noMerge newMat otherIp time rfl).elim
    | serialize removalTime time => exact ⟨rfl, rfl⟩
    | removeDeadLinks time => exact ⟨rfl, rfl⟩
    | updateLinkQuality nodeId timeout => exact ⟨rfl, rfl⟩
    | setLinkQuality nodeId quality => exact ⟨rfl, rfl⟩
  exact
    { planted with
      tree := sameTree.1.trans planted.tree
      ids := planted.ids.trans sameTree.2.symm
      sameLinks := fun a aListed b bListed =>
        sameLinks a (TdmaMatrix.mem_members.mpr aListed) b
          (TdmaMatrix.mem_members.mpr bListed) }

/-- So does every operation whose merges meet the condition. -/
theorem HubInvariant.matrixStep
    {mode : LinkQualityMode}
    {hubs : UInt8 → Prop}
    {me : UInt8}
    {state : MatrixState}
    (invariant : HubInvariant mode hubs me state)
    {action : MatrixAction}
    (rates :
      ∀ newMat otherIp time, action = .update newMat otherIp time →
        hubs me → RatesOthers mode otherIp state.myMatrix) :
    HubInvariant mode hubs me (matrixStep mode state action) := by
  obtain ⟨listed, unmeasured, mat, planted⟩ := invariant
  refine ⟨listed_matrixStep listed, unmeasuredRows_matrixStep listed unmeasured,
    ?_⟩
  by_cases isMerge : ∃ newMat otherIp time, action = .update newMat otherIp time
  · obtain ⟨newMat, otherIp, time, rfl⟩ := isMerge
    exact ⟨_, plantedOn_update listed unmeasured
      (rates newMat otherIp time rfl)⟩
  · refine ⟨mat, planted.matrixStep listed ?_⟩
    intro newMat otherIp time isUpdate
    exact isMerge ⟨newMat, otherIp, time, isUpdate⟩

/-- The invariant holds at every node of every run that meets the condition. -/
theorem hubInvariant_of_reachable
    {mode : LinkQualityMode}
    {numNodes : Nat}
    {hubs : UInt8 → Prop}
    {boot : UInt8 → ℚ}
    {clock : ℚ}
    {network : MeshNetwork}
    (reachable :
      StepRun.Reachable (networkStep mode)
        (fun network action =>
          NetworkEnabled numNodes network action ∧
            HubsRateWell mode hubs network action)
        (networkStart boot clock) network) :
    ∀ me, HubInvariant mode hubs me (network.nodes me).matrix := by
  refine reachable.invariant
    (fun network => ∀ me, HubInvariant mode hubs me (network.nodes me).matrix)
    (fun me => hubInvariant_matrixStart mode hubs me (boot me)) ?_
  rintro network action everywhere ⟨enabled, rateWell⟩
  have updated :
      ∀ {me : UInt8} {nodeAction : NodeAction},
        (∀ newMat otherIp time,
          nodeAction = .matrix (.update newMat otherIp time) →
            hubs me →
              RatesOthers mode otherIp (network.nodes me).matrix.myMatrix) →
        ∀ i, HubInvariant mode hubs i
          (Function.update network.nodes me
            (nodeStep mode (network.nodes me) nodeAction) i).matrix := by
    intro me nodeAction rates i
    by_cases isNode : i = me
    · subst isNode
      rw [Function.update_self, matrix_nodeStep]
      cases nodeAction with
      | matrix operation =>
          exact (everywhere i).matrixStep fun newMat otherIp time isUpdate =>
            rates newMat otherIp time (by rw [isUpdate])
      | pushEvent => exact everywhere i
      | popEvent => exact everywhere i
      | takeSnapshot => exact everywhere i
      | recompute => exact everywhere i
    · rw [Function.update_of_ne isNode]
      exact everywhere i
  cases action with
  | transmit sender removalTime time =>
      exact updated (by simp)
  | deliver message receiver time =>
      simp only [networkStep]
      split
      · exact everywhere
      · rename_i beacon found
        apply updated
        rintro newMat otherIp reading sameAction isHub
        obtain ⟨-, rfl, -⟩ :
            beacon.content = newMat ∧ beacon.sender = otherIp ∧
              time = reading := by
          simpa using sameAction
        exact rateWell isHub beacon found
  | thread node nodeAction =>
      apply updated
      rintro newMat otherIp time rfl
      exact enabled.2.1.elim

/-!
## What the links cost
-/

/-- A link with a quality that both ends report costs what its own cell says. -/
theorem linkCost_of_bothReport
    {mode : LinkQualityMode}
    {mat : TdmaMatrix}
    {u v : Nat}
    (bothReport : BothReport mat u v)
    (isRated : mat.linkQuality u v ≠ 0) :
    linkCost mode mat u v = 100 - (mat.linkQuality u v).toNat := by
  have isConfirmed : confirmed mat u v = true := by
    simp [confirmed, bothReport.1, bothReport.2]
  rw [linkCost, effectiveQuality_eq, isConfirmed]
  simp [weighedQuality, isRated]

namespace PlantedOn

variable {mode : LinkQualityMode}
variable {hubs : UInt8 → Prop}
variable {me : UInt8}
variable {state : MatrixState}
variable {mat : TdmaMatrix}

/-- The quality cell of a reported link is a quality. -/
theorem linkQuality_ne_zero
    (planted : PlantedOn mode hubs me state mat)
    {u v : Nat}
    (uInBounds : u < mat.numberOfActiveNodes)
    (vInBounds : v < mat.numberOfActiveNodes)
    (differ : u ≠ v)
    (isReported : mat.matrix u v = 1) :
    mat.linkQuality u v ≠ 0 := by
  have distinct := planted.listed.distinct
  have isLink :
      mat.topology.link mat.idOfActiveNodes[u] mat.idOfActiveNodes[v] = 1 :=
    (readAt_getElem distinct uInBounds vInBounds mat.matrix).trans isReported
  have isRated :=
    planted.filled _ _
      (fun same => differ ((distinct.getElem_inj_iff).mp same)) isLink
  have cell :
      mat.topology.quality mat.idOfActiveNodes[u] mat.idOfActiveNodes[v] =
        mat.linkQuality u v :=
    readAt_getElem distinct uInBounds vInBounds mat.linkQuality
  exact fun isZero => isRated (cell.trans isZero)

/-- A link of other nodes that both ends report costs what the initial one does. -/
theorem linkCost_of_others
    (planted : PlantedOn mode hubs me state mat)
    {u v : Nat}
    (uInBounds : u < mat.numberOfActiveNodes)
    (vInBounds : v < mat.numberOfActiveNodes)
    (differ : u ≠ v)
    (bothReport : BothReport mat u v)
    (notOwn : u ≠ mat.idOfActiveNodes.idxOf me) :
    linkCost mode mat u v = 100 - (initialLinkQuality mode).toNat := by
  have isRated :=
    planted.linkQuality_ne_zero uInBounds vInBounds differ bothReport.1
  have found : searchId mat mat.myId = some (mat.idOfActiveNodes.idxOf me) := by
    rw [planted.listed.own]
    exact (idxOf?_eq_some_iff_getElem? planted.listed.distinct).mpr
      (List.getElem?_eq_some_iff.mpr
        ⟨List.idxOf_lt_length_of_mem planted.listed.self,
          List.getElem_idxOf _⟩)
  have isInitial :=
    (linkQuality_of_unmeasuredRows planted.listed planted.unmeasured found
      uInBounds vInBounds notOwn).resolve_left isRated
  rw [linkCost_of_bothReport bothReport isRated, isInitial]

/-- A hub offers its own links at the initial cost or below. -/
theorem linkCost_of_hub
    (planted : PlantedOn mode hubs me state mat)
    (isHub : hubs me)
    {v : Nat}
    (vInBounds : v < mat.numberOfActiveNodes)
    (differ : mat.idOfActiveNodes.idxOf me ≠ v)
    (bothReport : BothReport mat (mat.idOfActiveNodes.idxOf me) v) :
    linkCost mode mat (mat.idOfActiveNodes.idxOf me) v ≤
      100 - (initialLinkQuality mode).toNat := by
  have ownInBounds : mat.idOfActiveNodes.idxOf me < mat.numberOfActiveNodes :=
    List.idxOf_lt_length_of_mem planted.listed.self
  have isRated :=
    planted.linkQuality_ne_zero ownInBounds vInBounds differ bothReport.1
  have wellRated := planted.rated isHub mat.idOfActiveNodes[v]
  have cell :
      mat.topology.quality me mat.idOfActiveNodes[v] =
        mat.linkQuality (mat.idOfActiveNodes.idxOf me) v := by
    have isOwn :
        mat.idOfActiveNodes[mat.idOfActiveNodes.idxOf me] = me :=
      List.getElem_idxOf ownInBounds
    refine Eq.trans ?_
      (readAt_getElem planted.listed.distinct ownInBounds vInBounds
        mat.linkQuality)
    exact congrArg
      (fun row => mat.topology.quality row mat.idOfActiveNodes[v]) isOwn.symm
  rw [cell] at wellRated
  have atLeast :=
    UInt8.le_iff_toNat_le.mp (wellRated.resolve_left isRated)
  rw [linkCost_of_bothReport bothReport isRated]
  omega

end PlantedOn

/-!
## Forwarding
-/

namespace Hierarchy.Arranges

variable {hierarchy : Hierarchy}
variable {hubs : UInt8 → Prop}
variable {mat : TdmaMatrix}

/-- Only the identifiers and the links between them decide. -/
theorem congr
    (arranged : hierarchy.Arranges hubs mat)
    {other : TdmaMatrix}
    (sameIds : mat.idOfActiveNodes = other.idOfActiveNodes)
    (sameCells :
      ∀ i, i < mat.numberOfActiveNodes → ∀ j, j < mat.numberOfActiveNodes →
        mat.matrix i j = other.matrix i j) :
    hierarchy.Arranges hubs other := by
  have sameNumber : mat.numberOfActiveNodes = other.numberOfActiveNodes :=
    congrArg List.length sameIds
  intro u v uInBounds vInBounds differ isLinked
  rw [← sameNumber] at uInBounds vInBounds
  rw [linked, ← sameCells u uInBounds v vInBounds,
    ← sameCells v vInBounds u uInBounds] at isLinked
  refine (arranged u v uInBounds vInBounds differ isLinked).imp_right
    (Or.imp_right ?_)
  rintro ⟨y, hub, first, second, hubAt, isHub, siblings, toFirst, toSecond⟩
  have yInBounds : y < mat.numberOfActiveNodes :=
    (List.getElem?_eq_some_iff.mp hubAt).1
  have same :
      ∀ {i j}, i < mat.numberOfActiveNodes → j < mat.numberOfActiveNodes →
        BothReport mat i j → BothReport other i j := by
    intro i j iInBounds jInBounds bothReport
    rw [BothReport, sameCells i iInBounds j jInBounds,
      sameCells j jInBounds i iInBounds] at bothReport
    exact bothReport
  exact ⟨y, hub, first, second, sameIds ▸ hubAt, isHub,
    same uInBounds vInBounds siblings, same yInBounds uInBounds toFirst,
    same yInBounds vInBounds toSecond⟩

/-- Linked siblings have a hub as their superior, and all report their links. -/
theorem hub_of_linkedBelow
    (arranged : hierarchy.Arranges hubs mat)
    {y u v : Nat}
    (siblings : hierarchy.LinkedBelow mat y u v) :
    ∃ hub,
      mat.idOfActiveNodes[y]? = some hub ∧ hubs hub ∧
        BothReport mat u v ∧ BothReport mat y v := by
  have notOwnSuperior : ∀ {w}, hierarchy.superior w ≠ some w :=
    fun isOwn => lt_irrefl _ (hierarchy.descends isOwn)
  rcases arranged u v siblings.firstInBounds siblings.secondInBounds
      siblings.differ siblings.link with
    down | up | ⟨z, hub, first, -, hubAt, isHub, bothReport, -, toSecond⟩
  · rw [siblings.second] at down
    obtain rfl : y = u := Option.some.inj down
    exact (notOwnSuperior siblings.first).elim
  · rw [siblings.first] at up
    obtain rfl : y = v := Option.some.inj up
    exact (notOwnSuperior siblings.second).elim
  · rw [siblings.first] at first
    obtain rfl : y = z := Option.some.inj first
    exact ⟨hub, hubAt, isHub, bothReport, toSecond⟩

end Hierarchy.Arranges

/-- In a hierarchy the costs guide Prim's algorithm along the superiors. -/
theorem PlantedOn.guides
    {mode : LinkQualityMode}
    {hubs : UInt8 → Prop}
    {me : UInt8}
    {state : MatrixState}
    {mat : TdmaMatrix}
    (planted : PlantedOn mode hubs me state mat)
    {hierarchy : Hierarchy}
    (arranged : hierarchy.Arranges hubs mat) :
    hierarchy.Guides mode mat (mat.idOfActiveNodes.idxOf me)
      (100 - (initialLinkQuality mode).toNat) where
  links := by
    intro u v uInBounds vInBounds differ isLinked
    refine (arranged u v uInBounds vInBounds differ isLinked).imp_right
      (Or.imp_right ?_)
    rintro ⟨y, -, first, second, -⟩
    exact ⟨y, first, second, differ, uInBounds, vInBounds, isLinked⟩
  fromSuperior := by
    intro y u v siblings
    obtain ⟨hub, hubAt, isHub, -, bothReport⟩ :=
      arranged.hub_of_linkedBelow siblings
    obtain ⟨yInBounds, isAt⟩ := List.getElem?_eq_some_iff.mp hubAt
    have differ : y ≠ v := by
      rintro rfl
      exact lt_irrefl _ (hierarchy.descends siblings.second)
    refine ⟨by simp [linked, bothReport.1], ?_⟩
    by_cases isOwn : y = mat.idOfActiveNodes.idxOf me
    · have isMe : hub = me := by
        subst isOwn
        exact isAt.symm.trans (List.getElem_idxOf yInBounds)
      rw [isMe] at isHub
      rw [isOwn] at differ bothReport ⊢
      exact planted.linkCost_of_hub isHub siblings.secondInBounds differ
        bothReport
    · exact (planted.linkCost_of_others yInBounds siblings.secondInBounds
        differ bothReport isOwn).le
  fromSibling := by
    intro y u v siblings notOwn
    obtain ⟨-, -, -, bothReport, -⟩ := arranged.hub_of_linkedBelow siblings
    exact (planted.linkCost_of_others siblings.firstInBounds
      siblings.secondInBounds siblings.differ bothReport notOwn).ge

/-- The stored tree strays from the hierarchy at its own node only. -/
theorem HubInvariant.straysAt
    {mode : LinkQualityMode}
    {hubs : UInt8 → Prop}
    {me : UInt8}
    {state : MatrixState}
    (invariant : HubInvariant mode hubs me state)
    (current : state.treeIds = state.myMatrix.idOfActiveNodes)
    {hierarchy : Hierarchy}
    (arranged : hierarchy.Arranges hubs state.myMatrix) :
    let ids := state.myMatrix.idOfActiveNodes
    Forest.StraysAt hierarchy.superior (ids.idxOf me)
      (treeGraph (activeTree ids.length state.spanningTree)) := by
  intro ids
  obtain ⟨listed, -, mat, planted⟩ := invariant
  have sameIds : ids = mat.idOfActiveNodes :=
    (planted.ids.trans current).symm
  have sameCells :
      ∀ i, i < state.myMatrix.numberOfActiveNodes →
        ∀ j, j < state.myMatrix.numberOfActiveNodes →
          state.myMatrix.matrix i j = mat.matrix i j := by
    intro i iInBounds j jInBounds
    have sameLink :=
      planted.sameLinks ids[i] (List.getElem_mem iInBounds) ids[j]
        (List.getElem_mem jInBounds)
    have linkHere :
        state.myMatrix.topology.link ids[i] ids[j] =
          state.myMatrix.matrix i j :=
      readAt_getElem listed.distinct iInBounds jInBounds _
    have linkThere :
        mat.topology.link ids[i] ids[j] = mat.matrix i j := by
      have atPosition :=
        readAt_getElem listed.distinct iInBounds jInBounds mat.matrix
      rwa [show readAt ids mat.matrix =
        mat.topology.link by rw [sameIds]; rfl] at atPosition
    rw [← linkHere, sameLink, linkThere]
  have strays :=
    straysAt_primAlgorithmWeighted
      (planted.guides (arranged.congr sameIds sameCells))
  have sameTree :
      activeTree mat.idOfActiveNodes.length (primAlgorithmWeighted mode mat) =
        primAlgorithmWeighted mode mat :=
    activeTree_eq_self (isForest_primAlgorithmWeighted mode mat)
  rwa [planted.tree, sameIds, sameTree]

/--
In every reachable state in which the nodes agree and their links form a
hierarchy whose hubs have merged with well-rated links, no node having removed
an identifier since its last merge, forwarding never visits a node twice.
-/
theorem forwarding_loopFree
    (mode : LinkQualityMode)
    (numNodes : Nat)
    (boot : UInt8 → ℚ)
    (clock : ℚ)
    (hubs : UInt8 → Prop)
    (hierarchy : Hierarchy)
    {network : MeshNetwork}
    (reachable :
      StepRun.Reachable (networkStep mode)
        (fun network action =>
          NetworkEnabled numNodes network action ∧
            HubsRateWell mode hubs network action)
        (networkStart boot clock) network)
    (agreed : network.Agreed numNodes)
    (current :
      ∀ a, InNetwork numNodes a →
        (network.nodes a).matrix.treeIds =
          (network.nodes a).matrix.myMatrix.idOfActiveNodes)
    {source : UInt8}
    (sourceInside : InNetwork numNodes source)
    (arranged : hierarchy.Arranges hubs (network.nodes source).matrix.myMatrix)
    (destination : UInt8) :
    Forwarding.LoopFree (network.nextHop numNodes destination) source := by
  have invariant := hubInvariant_of_reachable reachable
  obtain ⟨actions, run⟩ := reachable
  have grounded :=
    grounded_of_reachable ⟨actions, run.mono fun _ _ both => both.1⟩
  let ids := (network.nodes source).matrix.myMatrix.idOfActiveNodes
  have lowers :
      ∀ {x hop}, InNetwork numNodes x →
        network.nextHop numNodes destination x = some hop →
        InNetwork numNodes hop ∧
          hierarchy.forest.dist (ids.idxOf hop) (ids.idxOf destination) <
            hierarchy.forest.dist (ids.idxOf x) (ids.idxOf destination) := by
    intro x hop inside isHop
    obtain ⟨listed, adjacent, reaches⟩ :=
      reaches_nextHop grounded (agreed.recomputed x inside) isHop
    have strays :=
      (invariant x).straysAt (current x inside)
        (arranged.congr (agreed.sameIds source sourceInside x inside)
          (agreed.sameLinks source sourceInside x inside))
    have closer :=
      strays.dist_lt_of_hop hierarchy.isAcyclic_forest adjacent reaches
    rw [← agreed.sameIds source sourceInside x inside] at closer
    exact ⟨grounded.inhabited.nodes x inside hop listed, closer⟩
  intro i j v
  exact Forwarding.loopFree_of_measure lowers sourceInside

/-- The first position is the superior of all others. -/
def star : Hierarchy where
  superior v := if v = 0 then none else some 0
  depth v := if v = 0 then 0 else 1
  root := rfl
  descends := by
    intro v y isSuperior
    by_cases isFirst : v = 0
    · simp [isFirst] at isSuperior
    · simp only [isFirst, ↓reduceIte, Option.some.injEq] at isSuperior
      simp [← isSuperior, isFirst]

/-- Three nodes hear each other, and then two of them again. -/
def threeNodesMeet : List NetworkAction :=
  List.flatten
    [[.transmit 1 1 1], mergesAndFollows 0 2 1, mergesAndFollows 0 3 1,
      [.transmit 2 (11 / 10) (11 / 10)], mergesAndFollows 1 1 (11 / 10),
      mergesAndFollows 1 3 (11 / 10),
      [.transmit 3 (12 / 10) (12 / 10)], mergesAndFollows 2 1 (12 / 10),
      mergesAndFollows 2 2 (12 / 10),
      [.transmit 1 (13 / 10) (13 / 10), .deliver 3 2 (13 / 10)],
      mergesAndFollows 3 3 (13 / 10),
      [.transmit 2 (14 / 10) (14 / 10), .deliver 4 1 (14 / 10),
        .deliver 4 3 (14 / 10)]]

/-- Their trees differ, and no packet of node 3 for node 2 comes back. -/
theorem forwarding_loopFree_threeNodesMeet :
    let network :=
      threeNodesMeet.foldl (networkStep .test) (networkStart (fun _ => 0) 0)
    ¬ network.SameTrees 3 ∧
      Forwarding.LoopFree (network.nextHop 3 2) 3 := by
  intro network
  have agreed : network.Agreed 3 :=
    { sameIds :=
        forall_inNetwork fun _ _ =>
          forall_inNetwork (by decide +revert +kernel)
      sameLinks :=
        forall_inNetwork fun _ _ =>
          forall_inNetwork (by decide +revert +kernel)
      recomputed := forall_inNetwork (by decide +kernel) }
  have current :
      ∀ a, InNetwork 3 a →
        (network.nodes a).matrix.treeIds =
          (network.nodes a).matrix.myMatrix.idOfActiveNodes :=
    forall_inNetwork (by decide +kernel)
  have arranged :
      star.Arranges (· = 1) (network.nodes 3).matrix.myMatrix := by
    have number : (network.nodes 3).matrix.myMatrix.numberOfActiveNodes = 3 :=
      by decide +kernel
    have allReport :
        ∀ u, u < 3 → ∀ v, v < 3 → u ≠ v →
          BothReport (network.nodes 3).matrix.myMatrix u v := by
      unfold BothReport
      decide +kernel
    intro u v uInBounds vInBounds differ _
    rw [number] at uInBounds vInBounds
    by_cases uIsFirst : u = 0
    · left
      simp [star, uIsFirst, uIsFirst ▸ differ.symm]
    · right
      by_cases vIsFirst : v = 0
      · left
        simp [star, uIsFirst, vIsFirst]
      · right
        exact ⟨0, 1, if_neg uIsFirst, if_neg vIsFirst, by decide +kernel, rfl,
          allReport u uInBounds v vInBounds differ,
          allReport 0 (by decide) u uInBounds (Ne.symm uIsFirst),
          allReport 0 (by decide) v vInBounds (Ne.symm vIsFirst)⟩
  refine ⟨?_, ?_⟩
  · intro same
    have sameCell :=
      same 2 (by decide) 3 (by decide) 1 (by decide +kernel) 2
        (by decide +kernel)
    revert sameCell
    decide +kernel
  · intro i j v
    exact forwarding_loopFree .test 3 (fun _ => 0) 0 (· = 1) star
      ⟨threeNodesMeet, StepRun.Run.of_checkRun (by decide +kernel)⟩ agreed
      current (by decide) arranged 2

end RoutingMesh
