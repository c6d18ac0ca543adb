import Mathlib.Tactic.Linarith
import RoutingMesh.Matrix
import RoutingMesh.Topology

/-!
# The matrix code refines the keyed topology

Every operation of `matrix.c` on position-indexed arrays computes the
corresponding operation on topologies keyed by node.  The only assumption is
that the identifiers of a matrix are distinct and, where the code looks up the
local node, that it is listed.  The doubles of the code are rationals here,
without infinities and NaN.
-/

namespace RoutingMesh

open CellArray KeyedCells

namespace TdmaMatrix

/-- The topology that a matrix stores. -/
def topology (mat : TdmaMatrix) : Topology UInt8 where
  members := mat.idOfActiveNodes.toFinset
  link := readAt mat.idOfActiveNodes mat.matrix
  quality := readAt mat.idOfActiveNodes mat.linkQuality
  created := read mat.idOfActiveNodes mat.creationTime
  age := read mat.idOfActiveNodes mat.age

/-- The report that a decoded beacon carries. -/
def report (mat : TdmaMatrix) : Report UInt8 where
  members := mat.idOfActiveNodes.toFinset
  link := readAt mat.idOfActiveNodes mat.matrix
  age := read mat.idOfActiveNodes mat.age

@[simp] theorem mem_members
    {mat : TdmaMatrix}
    {id : UInt8} :
    id ∈ mat.topology.members ↔ id ∈ mat.idOfActiveNodes := by
  simp [topology]

@[simp] theorem mem_report_members
    {mat : TdmaMatrix}
    {id : UInt8} :
    id ∈ mat.report.members ↔ id ∈ mat.idOfActiveNodes := by
  simp [report]

section Positions

variable {mat : TdmaMatrix} (distinct : mat.idOfActiveNodes.Nodup)
variable {i j : Nat}
variable (iInBounds : i < mat.idOfActiveNodes.length)
variable (jInBounds : j < mat.idOfActiveNodes.length)
include distinct

theorem link_getElem :
    mat.topology.link mat.idOfActiveNodes[i] mat.idOfActiveNodes[j] =
      mat.matrix i j :=
  readAt_getElem distinct iInBounds jInBounds _

theorem created_getElem :
    mat.topology.created mat.idOfActiveNodes[i] = mat.creationTime i :=
  read_getElem distinct iInBounds _

theorem report_link_getElem :
    mat.report.link mat.idOfActiveNodes[i] mat.idOfActiveNodes[j] =
      mat.matrix i j :=
  readAt_getElem distinct iInBounds jInBounds _

theorem report_age_getElem :
    mat.report.age mat.idOfActiveNodes[i] = mat.age i :=
  read_getElem distinct iInBounds _

end Positions

/-- A table has no cell for a pair with an unlisted key. -/
theorem readAt_of_not_listed
    {ids : List UInt8}
    {a b : UInt8}
    (unlisted : ¬ (a ∈ ids ∧ b ∈ ids))
    (table : Nat → Nat → UInt8) :
    readAt ids table a b = 0 := by
  by_cases rowListed : a ∈ ids
  · have columnUnlisted : b ∉ ids :=
      fun listed => unlisted ⟨rowListed, listed⟩
    exact readAt_of_column_not_mem columnUnlisted _ _
  · exact readAt_of_row_not_mem rowListed _ _

/-- A matrix whose members keep their cells stores a restricted topology. -/
theorem topology_eq_restrict
    {small large : TdmaMatrix}
    {kept : Finset UInt8}
    (members : ∀ k, k ∈ small.idOfActiveNodes ↔ k ∈ kept)
    (link :
      ∀ a ∈ small.idOfActiveNodes, ∀ b ∈ small.idOfActiveNodes,
        small.topology.link a b = large.topology.link a b)
    (quality :
      ∀ a ∈ small.idOfActiveNodes, ∀ b ∈ small.idOfActiveNodes,
        small.topology.quality a b = large.topology.quality a b)
    (created :
      ∀ k ∈ small.idOfActiveNodes,
        small.topology.created k = large.topology.created k)
    (age :
      ∀ k ∈ small.idOfActiveNodes,
        small.topology.age k = large.topology.age k) :
    small.topology = large.topology.restrict kept := by
  apply Topology.ext
  · ext k
    exact mem_members.trans (members k)
  · funext a b
    by_cases listed :
        a ∈ small.idOfActiveNodes ∧ b ∈ small.idOfActiveNodes
    · simp [Topology.restrict, ← members, listed,
        link a listed.1 b listed.2]
    · simp only [Topology.restrict, ← members, listed, ↓reduceIte]
      exact readAt_of_not_listed listed _
  · funext a b
    by_cases listed :
        a ∈ small.idOfActiveNodes ∧ b ∈ small.idOfActiveNodes
    · simp [Topology.restrict, ← members, listed,
        quality a listed.1 b listed.2]
    · simp only [Topology.restrict, ← members, listed, ↓reduceIte]
      exact readAt_of_not_listed listed _
  · funext k
    by_cases listed : k ∈ small.idOfActiveNodes
    · simp [Topology.restrict, ← members, listed, created k listed]
    · simp only [Topology.restrict, ← members, listed, ↓reduceIte]
      exact read_of_not_mem listed _
  · funext k
    by_cases listed : k ∈ small.idOfActiveNodes
    · simp [Topology.restrict, ← members, listed, age k listed]
    · simp only [Topology.restrict, ← members, listed, ↓reduceIte]
      exact read_of_not_mem listed _

end TdmaMatrix

/-!
## Removal
-/

/-- The identifiers after the removal of the node at `pos`. -/
@[simp] theorem idOfActiveNodes_removeNode
    (mat : TdmaMatrix)
    (pos : Nat) :
    (removeNode mat pos).idOfActiveNodes =
      mat.idOfActiveNodes.eraseIdx pos := by
  unfold removeNode removeIdList removeIdMatrix penalizeNode
  dsimp only
  split <;> rfl

@[simp] theorem myId_removeNode
    (mat : TdmaMatrix)
    (pos : Nat) :
    (removeNode mat pos).myId = mat.myId := by
  unfold removeNode removeIdList removeIdMatrix penalizeNode
  dsimp only
  split <;> rfl

/-- Removing one row and one column keeps the cells of the other keys. -/
theorem readAt_removeIdMatrix
    {keys : List UInt8}
    (distinct : keys.Nodup)
    {pos : Nat}
    (inBounds : pos < keys.length)
    (table : Nat → Nat → UInt8)
    {a b : UInt8}
    (rowKept : a ∈ keys.eraseIdx pos)
    (columnKept : b ∈ keys.eraseIdx pos) :
    readAt (keys.eraseIdx pos)
        (fun i =>
          if i < keys.length then
            removeColumn keys.length pos
              (moveDown table pos (keys.length - pos - 1) i)
          else
            moveDown table pos (keys.length - pos - 1) i)
        a b =
      readAt keys table a b := by
  have shorter :
      (keys.eraseIdx pos).length = keys.length - 1 :=
    List.length_eraseIdx_of_lt inBounds
  have columns :
      ∀ i, i < (keys.eraseIdx pos).length →
        read (keys.eraseIdx pos)
            (if i < keys.length then
              removeColumn keys.length pos
                (moveDown table pos (keys.length - pos - 1) i)
            else
              moveDown table pos (keys.length - pos - 1) i) b =
          moveDown (fun query => read keys (table query) b)
            pos (keys.length - pos - 1) i := by
    intro i iInBounds
    have iUsed : i < keys.length := by omega
    rw [if_pos iUsed]
    have sameCells :
        ∀ j, j < (keys.eraseIdx pos).length →
          removeColumn keys.length pos
              (moveDown table pos (keys.length - pos - 1) i) j =
            moveDown (moveDown table pos (keys.length - pos - 1) i)
              pos (keys.length - pos - 1) j := by
      intro j jInBounds
      have notLast : j ≠ keys.length - 1 := by omega
      have sameCount :
          keys.length - 1 - pos = keys.length - pos - 1 := by omega
      rw [removeColumn, write_other _ notLast,
        moveDownLoop_eq_moveDown, sameCount]
    rw [read_congr sameCells,
      read_eraseIdx distinct inBounds _ columnKept]
    unfold moveDown
    split <;> rfl
  unfold readAt
  rw [read_congr columns,
    read_eraseIdx distinct inBounds
      (fun query => read keys (table query) b) rowKept]

/-- The cells that `penalizeNode` lowers belong to the removed node. -/
theorem penalizeNode_cells
    {mat : TdmaMatrix}
    (distinct : mat.idOfActiveNodes.Nodup)
    {pos : Nat}
    {removed : UInt8}
    (owner : mat.idOfActiveNodes.idxOf? removed = some pos)
    {a b : UInt8}
    (columnKept : b ≠ removed) :
    readAt mat.idOfActiveNodes (penalizeNode mat pos).matrix a b =
        readAt mat.idOfActiveNodes mat.matrix a b ∧
      readAt mat.idOfActiveNodes (penalizeNode mat pos).linkQuality a b =
        readAt mat.idOfActiveNodes mat.linkQuality a b := by
  unfold penalizeNode
  split
  · exact ⟨rfl, rfl⟩
  · rename_i myPos found
    constructor
    · rw [readAt_writeAt distinct found owner]
      simp [columnKept]
    · rw [readAt_writeAt distinct found owner]
      simp [columnKept]

/-- The list fields of a penalized matrix are untouched. -/
theorem penalizeNode_lists
    (mat : TdmaMatrix)
    (pos : Nat) :
    (penalizeNode mat pos).idOfActiveNodes = mat.idOfActiveNodes ∧
      (penalizeNode mat pos).creationTime = mat.creationTime ∧
      (penalizeNode mat pos).age = mat.age := by
  unfold penalizeNode
  split <;> exact ⟨rfl, rfl, rfl⟩

/-- Removing the node at `pos` forgets exactly that member. -/
theorem topology_removeNode
    {mat : TdmaMatrix}
    (distinct : mat.idOfActiveNodes.Nodup)
    {pos : Nat}
    {removed : UInt8}
    (owner : mat.idOfActiveNodes[pos]? = some removed) :
    (removeNode mat pos).topology =
      mat.topology.restrict (mat.topology.members.erase removed) := by
  have position := (idxOf?_eq_some_iff_getElem? distinct).mpr owner
  obtain ⟨inBounds, _⟩ := List.getElem?_eq_some_iff.mp owner
  obtain ⟨sameIds, sameCreated, sameAge⟩ := penalizeNode_lists mat pos
  have notRemoved :
      ∀ {k}, k ∈ (removeNode mat pos).idOfActiveNodes → k ≠ removed := by
    intro k kept
    rw [idOfActiveNodes_removeNode] at kept
    exact ((mem_eraseIdx_iff distinct owner).mp kept).1
  apply TdmaMatrix.topology_eq_restrict
  · intro k
    rw [idOfActiveNodes_removeNode, mem_eraseIdx_iff distinct owner,
      Finset.mem_erase, TdmaMatrix.mem_members]
  · intro a rowKept b columnKept
    have unchanged :=
      (penalizeNode_cells distinct position (a := a)
        (notRemoved columnKept)).1
    rw [idOfActiveNodes_removeNode] at rowKept columnKept
    have cells :=
      readAt_removeIdMatrix distinct inBounds
        (penalizeNode mat pos).matrix rowKept columnKept
    simpa [TdmaMatrix.topology, removeNode, removeIdList, removeIdMatrix,
      TdmaMatrix.numberOfActiveNodes, sameIds] using cells.trans unchanged
  · intro a rowKept b columnKept
    have unchanged :=
      (penalizeNode_cells distinct position (a := a)
        (notRemoved columnKept)).2
    rw [idOfActiveNodes_removeNode] at rowKept columnKept
    have cells :=
      readAt_removeIdMatrix distinct inBounds
        (penalizeNode mat pos).linkQuality rowKept columnKept
    simpa [TdmaMatrix.topology, removeNode, removeIdList, removeIdMatrix,
      TdmaMatrix.numberOfActiveNodes, sameIds] using cells.trans unchanged
  · intro k kept
    rw [idOfActiveNodes_removeNode] at kept
    have cells := read_eraseIdx distinct inBounds mat.creationTime kept
    simpa [TdmaMatrix.topology, removeNode, removeIdList, removeIdMatrix,
      TdmaMatrix.numberOfActiveNodes, sameIds, sameCreated] using cells
  · intro k kept
    rw [idOfActiveNodes_removeNode] at kept
    have cells := read_eraseIdx distinct inBounds mat.age kept
    simpa [TdmaMatrix.topology, removeNode, removeIdList, removeIdMatrix,
      TdmaMatrix.numberOfActiveNodes, sameIds, sameAge] using cells

/-- A matrix stores no cell outside its members. -/
theorem TdmaMatrix.topology_restrict_members
    (mat : TdmaMatrix) :
    mat.topology.restrict mat.topology.members = mat.topology := by
  symm
  apply TdmaMatrix.topology_eq_restrict <;> intros <;> simp

/-- The removal test at a position is the expiry test of the node there. -/
theorem isDeadAt_iff
    {mat : TdmaMatrix}
    (distinct : mat.idOfActiveNodes.Nodup)
    {time : ℚ}
    {pos : Nat}
    {id : UInt8}
    (owner : mat.idOfActiveNodes[pos]? = some id) :
    isDeadAt mat time pos = true ↔
      id ∉ mat.topology.alive mat.myId time := by
  have position := (idxOf?_eq_some_iff_getElem? distinct).mpr owner
  have created : mat.topology.created id = mat.creationTime pos :=
    read_of_position position _
  have listed : id ∈ mat.idOfActiveNodes :=
    List.mem_of_getElem? owner
  simp [isDeadAt, owner, Topology.mem_alive, created, listed]

/-- Without silent members there is nothing to expire. -/
theorem expire_of_all_alive
    {mat : TdmaMatrix}
    {time : ℚ}
    (allAlive :
      ∀ id ∈ mat.idOfActiveNodes,
        id ∈ mat.topology.alive mat.myId time) :
    mat.topology.expire mat.myId time = mat.topology := by
  have sameMembers :
      mat.topology.alive mat.myId time = mat.topology.members := by
    ext k
    rw [TdmaMatrix.mem_members]
    constructor
    · intro kept
      exact TdmaMatrix.mem_members.mp (Topology.mem_alive.mp kept).1
    · exact allAlive k
  rw [Topology.expire, sameMembers,
    TdmaMatrix.topology_restrict_members]

/-- The loop invariant of the removal: the nodes before `i` are alive. -/
def TdmaMatrix.AliveBefore
    (mat : TdmaMatrix)
    (time : ℚ)
    (i : Nat) : Prop :=
  ∀ j id, j < i → mat.idOfActiveNodes[j]? = some id →
    id ∈ mat.topology.alive mat.myId time

/-- Once every position has been passed, every node is alive. -/
private theorem TdmaMatrix.AliveBefore.all
    {mat : TdmaMatrix}
    {time : ℚ}
    {i : Nat}
    (aliveBefore : mat.AliveBefore time i)
    (complete : mat.numberOfActiveNodes ≤ i) :
    ∀ id ∈ mat.idOfActiveNodes,
      id ∈ mat.topology.alive mat.myId time := by
  intro id listed
  obtain ⟨j, inBounds, rfl⟩ := List.getElem_of_mem listed
  exact aliveBefore j _ (inBounds.trans_le complete)
    (List.getElem?_eq_getElem inBounds)

/-- A node that is not dead is passed. -/
private theorem TdmaMatrix.AliveBefore.succ
    {mat : TdmaMatrix}
    {time : ℚ}
    {i : Nat}
    (aliveBefore : mat.AliveBefore time i)
    {id : UInt8}
    (owner : mat.idOfActiveNodes[i]? = some id)
    (isAlive : id ∈ mat.topology.alive mat.myId time) :
    mat.AliveBefore time (i + 1) := by
  intro j other before found
  rcases Nat.lt_succ_iff_lt_or_eq.mp before with earlier | rfl
  · exact aliveBefore j other earlier found
  · rw [owner] at found
    rwa [← Option.some.inj found]

/-- Removing a silent node leaves the others alive or silent. -/
private theorem alive_removeNode
    {mat : TdmaMatrix}
    (distinct : mat.idOfActiveNodes.Nodup)
    {time : ℚ}
    {pos : Nat}
    {id : UInt8}
    (owner : mat.idOfActiveNodes[pos]? = some id)
    (silent : id ∉ mat.topology.alive mat.myId time) :
    (removeNode mat pos).topology.alive mat.myId time =
      mat.topology.alive mat.myId time := by
  rw [topology_removeNode distinct owner,
    Topology.alive_restrict_erase silent]

/-- Removing a silent node leaves nothing else to expire. -/
private theorem expire_removeNode
    {mat : TdmaMatrix}
    (distinct : mat.idOfActiveNodes.Nodup)
    {time : ℚ}
    {pos : Nat}
    {id : UInt8}
    (owner : mat.idOfActiveNodes[pos]? = some id)
    (silent : id ∉ mat.topology.alive mat.myId time) :
    (removeNode mat pos).topology.expire mat.myId time =
      mat.topology.expire mat.myId time := by
  rw [Topology.expire, alive_removeNode distinct owner silent,
    topology_removeNode distinct owner, Topology.restrict_restrict,
    Topology.expire]
  intro k kept
  rw [Finset.mem_erase]
  refine ⟨?_, (Topology.mem_alive.mp kept).1⟩
  rintro rfl
  exact silent kept

/-- Removing a silent node keeps the nodes before it alive. -/
private theorem TdmaMatrix.AliveBefore.removeNode
    {mat : TdmaMatrix}
    {time : ℚ}
    {i : Nat}
    (aliveBefore : mat.AliveBefore time i)
    (distinct : mat.idOfActiveNodes.Nodup)
    {id : UInt8}
    (owner : mat.idOfActiveNodes[i]? = some id)
    (silent : id ∉ mat.topology.alive mat.myId time) :
    (removeNode mat i).AliveBefore time i := by
  intro j other before found
  rw [idOfActiveNodes_removeNode,
    List.getElem?_eraseIdx_of_lt before] at found
  rw [myId_removeNode, alive_removeNode distinct owner silent]
  exact aliveBefore j other before found

/-- Erasing a silent node does not change the list of alive nodes. -/
private theorem filter_alive_eraseIdx
    {mat : TdmaMatrix}
    (distinct : mat.idOfActiveNodes.Nodup)
    {time : ℚ}
    {pos : Nat}
    {removed : UInt8}
    (owner : mat.idOfActiveNodes[pos]? = some removed)
    (silent : removed ∉ mat.topology.alive mat.myId time) :
    (mat.idOfActiveNodes.eraseIdx pos).filter
        (· ∈ mat.topology.alive mat.myId time) =
      mat.idOfActiveNodes.filter
        (· ∈ mat.topology.alive mat.myId time) := by
  obtain ⟨inBounds, value⟩ := List.getElem?_eq_some_iff.mp owner
  rw [← distinct.erase_getElem pos inBounds, value,
    distinct.erase_eq_filter, List.filter_filter]
  apply List.filter_congr
  intro k _
  by_cases isRemoved : k = removed
  · subst isRemoved
    simp [silent]
  · simp [isRemoved]

/-- The loop has nothing to remove once it has passed every position. -/
private theorem removeDeadLinksLoop_done
    {mat : TdmaMatrix}
    {time : ℚ}
    {i : Nat}
    (aliveBefore : mat.AliveBefore time i)
    (complete : mat.numberOfActiveNodes ≤ i) :
    mat.topology = mat.topology.expire mat.myId time ∧
      mat.idOfActiveNodes =
        mat.idOfActiveNodes.filter
          (· ∈ mat.topology.alive mat.myId time) := by
  have allAlive := aliveBefore.all complete
  refine ⟨(expire_of_all_alive allAlive).symm, ?_⟩
  symm
  simpa using allAlive

/--
The removal loop from index `i`, when the nodes before `i` are alive and the
passes suffice: the alive nodes stay, in their order, with all their cells.
-/
theorem removeDeadLinksLoop_spec
    {time : ℚ} :
    ∀ {passes : Nat} {mat : TdmaMatrix} {i : Nat},
      mat.idOfActiveNodes.Nodup →
      mat.numberOfActiveNodes ≤ i + passes →
      mat.AliveBefore time i →
      (removeDeadLinksLoop time passes mat i).topology =
          mat.topology.expire mat.myId time ∧
        (removeDeadLinksLoop time passes mat i).idOfActiveNodes =
          mat.idOfActiveNodes.filter
            (· ∈ mat.topology.alive mat.myId time) ∧
        (removeDeadLinksLoop time passes mat i).myId = mat.myId := by
  intro passes
  induction passes with
  | zero =>
      intro mat i distinct enough aliveBefore
      obtain ⟨topology, ids⟩ :=
        removeDeadLinksLoop_done aliveBefore enough
      exact ⟨topology, ids, rfl⟩
  | succ passes inductionHypothesis =>
      intro mat i distinct enough aliveBefore
      rw [removeDeadLinksLoop]
      split
      · rename_i inBounds
        have owner :
            mat.idOfActiveNodes[i]? =
              some (mat.idOfActiveNodes.get ⟨i, inBounds⟩) :=
          List.getElem?_eq_getElem inBounds
        generalize mat.idOfActiveNodes.get ⟨i, inBounds⟩ = id at owner
        split
        · -- The node at `i` is dead: the loop stays at `i` on a shorter list.
          rename_i dead
          have silent := (isDeadAt_iff distinct owner).mp dead
          have shorter :
              (removeNode mat i).numberOfActiveNodes ≤ i + passes := by
            have erased :
                (removeNode mat i).numberOfActiveNodes =
                  mat.numberOfActiveNodes - 1 := by
              simp only [TdmaMatrix.numberOfActiveNodes,
                idOfActiveNodes_removeNode]
              exact List.length_eraseIdx_of_lt inBounds
            omega
          have stillDistinct :
              (removeNode mat i).idOfActiveNodes.Nodup := by
            rw [idOfActiveNodes_removeNode]
            exact distinct.sublist (List.eraseIdx_sublist _ _)
          obtain ⟨topology, ids, own⟩ :=
            inductionHypothesis stillDistinct shorter
              (aliveBefore.removeNode distinct owner silent)
          rw [myId_removeNode] at topology ids own
          refine ⟨?_, ?_, own⟩
          · rw [topology, expire_removeNode distinct owner silent]
          · rw [ids, alive_removeNode distinct owner silent,
              idOfActiveNodes_removeNode]
            exact filter_alive_eraseIdx distinct owner silent
        · -- The node at `i` stays: the loop moves on.
          rename_i notDead
          apply inductionHypothesis distinct (by omega)
          apply aliveBefore.succ owner
          by_contra silent
          exact notDead ((isDeadAt_iff distinct owner).mpr silent)
      · rename_i beyond
        obtain ⟨topology, ids⟩ :=
          removeDeadLinksLoop_done aliveBefore (by omega)
        exact ⟨topology, ids, rfl⟩

/-- No node stands before the first one. -/
private theorem TdmaMatrix.aliveBefore_zero
    (mat : TdmaMatrix)
    (time : ℚ) :
    mat.AliveBefore time 0 := by
  intro j id before
  exact absurd before (Nat.not_lt_zero j)

/-- `removeDeadLinks` computes the expiry of the silent members. -/
theorem topology_removeDeadLinks
    {mat : TdmaMatrix}
    (distinct : mat.idOfActiveNodes.Nodup)
    (time : ℚ) :
    (removeDeadLinks mat time).topology =
      mat.topology.expire mat.myId time :=
  (removeDeadLinksLoop_spec distinct (by omega)
    (mat.aliveBefore_zero time)).1

/-- `removeDeadLinks` keeps the alive nodes in their order. -/
theorem idOfActiveNodes_removeDeadLinks
    {mat : TdmaMatrix}
    (distinct : mat.idOfActiveNodes.Nodup)
    (time : ℚ) :
    (removeDeadLinks mat time).idOfActiveNodes =
      mat.idOfActiveNodes.filter
        (· ∈ mat.topology.alive mat.myId time) :=
  (removeDeadLinksLoop_spec distinct (by omega)
    (mat.aliveBefore_zero time)).2.1

theorem myId_removeDeadLinks
    {mat : TdmaMatrix}
    (distinct : mat.idOfActiveNodes.Nodup)
    (time : ℚ) :
    (removeDeadLinks mat time).myId = mat.myId :=
  (removeDeadLinksLoop_spec distinct (by omega)
    (mat.aliveBefore_zero time)).2.2

/-!
## The removal read by identifier
-/

section Found

variable {mat : TdmaMatrix} {a b : UInt8} {line pos : Nat}
variable (lineFound : searchId mat a = some line)
variable (found : searchId mat b = some pos)
include lineFound

/-- The cells of the stored topology are those at the positions found. -/
theorem TdmaMatrix.created_of_found :
    mat.topology.created a = mat.creationTime line :=
  read_of_position lineFound _

theorem TdmaMatrix.age_of_found :
    mat.topology.age a = mat.age line :=
  read_of_position lineFound _

include found

theorem TdmaMatrix.link_of_found :
    mat.topology.link a b = mat.matrix line pos := by
  simp only [topology, readAt, read_of_position lineFound,
    read_of_position found]

theorem TdmaMatrix.quality_of_found :
    mat.topology.quality a b = mat.linkQuality line pos := by
  simp only [topology, readAt, read_of_position lineFound,
    read_of_position found]

end Found

/--
What `removeDeadLinks` leaves: the local node and the nodes younger than
`MAX_AGE`, in their order, and everything stored for them and between them,
at the positions where `searchId` finds them.
-/
structure RemovesExactly
    (mat after : TdmaMatrix)
    (time : ℚ) : Prop where
  ids :
    after.idOfActiveNodes =
      mat.idOfActiveNodes.filter fun id =>
        id = mat.myId ∨ time - mat.topology.created id < maxAge
  own : after.myId = mat.myId
  lines :
    ∀ {a oldPos newPos},
      searchId mat a = some oldPos →
      searchId after a = some newPos →
      after.creationTime newPos = mat.creationTime oldPos ∧
        after.age newPos = mat.age oldPos
  cells :
    ∀ {a b oldLine oldPos newLine newPos},
      searchId mat a = some oldLine →
      searchId mat b = some oldPos →
      searchId after a = some newLine →
      searchId after b = some newPos →
      after.matrix newLine newPos = mat.matrix oldLine oldPos ∧
        after.linkQuality newLine newPos = mat.linkQuality oldLine oldPos

/--
For every matrix with distinct identifiers, whatever its creation times, the
removal at any time is exact.
-/
theorem removeDeadLinks_exact
    {mat : TdmaMatrix}
    (distinct : mat.idOfActiveNodes.Nodup)
    (time : ℚ) :
    RemovesExactly mat (removeDeadLinks mat time) time := by
  have ids := idOfActiveNodes_removeDeadLinks distinct time
  have survives :
      ∀ {a pos}, searchId (removeDeadLinks mat time) a = some pos →
        a ∈ mat.topology.alive mat.myId time := by
    intro a pos found
    have member : a ∈ (removeDeadLinks mat time).idOfActiveNodes := by
      rw [← List.isSome_idxOf?]
      exact Option.isSome_of_eq_some found
    rw [ids, List.mem_filter, decide_eq_true_eq] at member
    exact member.2
  have topology := topology_removeDeadLinks distinct time
  refine ⟨?_, myId_removeDeadLinks distinct time, ?_, ?_⟩
  · rw [ids]
    refine List.filter_congr fun id listed => ?_
    rw [decide_eq_decide, Topology.mem_alive, TdmaMatrix.mem_members]
    exact and_iff_right listed
  · intro a oldPos newPos found foundAfter
    have kept := survives foundAfter
    rw [← TdmaMatrix.created_of_found found, ← TdmaMatrix.age_of_found found,
      ← TdmaMatrix.created_of_found foundAfter,
      ← TdmaMatrix.age_of_found foundAfter, topology]
    exact ⟨if_pos kept, if_pos kept⟩
  · intro a b oldLine oldPos newLine newPos lineFound found lineFoundAfter
      foundAfter
    have kept := And.intro (survives lineFoundAfter) (survives foundAfter)
    rw [← TdmaMatrix.link_of_found lineFound found,
      ← TdmaMatrix.quality_of_found lineFound found,
      ← TdmaMatrix.link_of_found lineFoundAfter foundAfter,
      ← TdmaMatrix.quality_of_found lineFoundAfter foundAfter, topology]
    exact ⟨if_pos kept, if_pos kept⟩

/-- Six nodes, of which the first, the last and two neighbours are silent. -/
def silentNodes : TdmaMatrix :=
  { TdmaMatrix.zeroed 4 [1, 2, 3, 4, 5, 6] with
    matrix := fun i j => if i = 3 ∧ j ≠ 3 then 1 else 0
    linkQuality := fun i j => if i = 3 ∧ j ≠ 3 then 60 else 0
    creationTime := fun i => if i = 4 then 9 else 7 }

/-- At time 10 node 5 is left beside the local node 4. -/
theorem removeDeadLinks_exact_silentNodes :
    RemovesExactly silentNodes (removeDeadLinks silentNodes 10) 10 ∧
      (removeDeadLinks silentNodes 10).idOfActiveNodes = [4, 5] :=
  ⟨removeDeadLinks_exact (by decide) 10, by decide +kernel⟩

/-!
## Link quality and ages
-/

@[simp] theorem idOfActiveNodes_updateLinkQuality
    (mat : TdmaMatrix)
    (nodeId : UInt8)
    (timeout : Bool) :
    (updateLinkQuality mat nodeId timeout).idOfActiveNodes =
      mat.idOfActiveNodes := by
  unfold updateLinkQuality
  split <;> rfl

@[simp] theorem myId_updateLinkQuality
    (mat : TdmaMatrix)
    (nodeId : UInt8)
    (timeout : Bool) :
    (updateLinkQuality mat nodeId timeout).myId = mat.myId := by
  unfold updateLinkQuality
  split <;> rfl

@[simp] theorem idOfActiveNodes_setLinkQuality
    (mat : TdmaMatrix)
    (nodeId quality : UInt8) :
    (setLinkQuality mat nodeId quality).idOfActiveNodes =
      mat.idOfActiveNodes := by
  unfold setLinkQuality
  split <;> rfl

@[simp] theorem myId_setLinkQuality
    (mat : TdmaMatrix)
    (nodeId quality : UInt8) :
    (setLinkQuality mat nodeId quality).myId = mat.myId := by
  unfold setLinkQuality
  split <;> rfl

/-- A quality update touches only the quality cells. -/
theorem updateLinkQuality_cells
    (mat : TdmaMatrix)
    (nodeId : UInt8)
    (timeout : Bool) :
    (updateLinkQuality mat nodeId timeout).matrix = mat.matrix ∧
      (updateLinkQuality mat nodeId timeout).creationTime = mat.creationTime ∧
      (updateLinkQuality mat nodeId timeout).age = mat.age := by
  unfold updateLinkQuality
  split <;> exact ⟨rfl, rfl, rfl⟩

/-- A quality assignment touches only the quality cells. -/
theorem setLinkQuality_cells
    (mat : TdmaMatrix)
    (nodeId quality : UInt8) :
    (setLinkQuality mat nodeId quality).matrix = mat.matrix ∧
      (setLinkQuality mat nodeId quality).creationTime = mat.creationTime ∧
      (setLinkQuality mat nodeId quality).age = mat.age := by
  unfold setLinkQuality
  split <;> exact ⟨rfl, rfl, rfl⟩

/-- Writing the cell from the local node to a listed node rates that link. -/
private theorem quality_writeAt
    {mat : TdmaMatrix}
    (distinct : mat.idOfActiveNodes.Nodup)
    {myIdx nodeIdx : Nat}
    {nodeId : UInt8}
    (myFound : searchId mat mat.myId = some myIdx)
    (nodeFound : searchId mat nodeId = some nodeIdx)
    (change : UInt8 → UInt8) :
    readAt mat.idOfActiveNodes
        (writeAt mat.linkQuality myIdx nodeIdx
          (change (mat.linkQuality myIdx nodeIdx))) =
      (mat.topology.rate mat.myId nodeId change).quality := by
  have listed : nodeId ∈ mat.idOfActiveNodes := by
    rw [← List.isSome_idxOf?]
    exact Option.isSome_of_eq_some nodeFound
  funext a b
  rw [readAt_writeAt distinct myFound nodeFound]
  by_cases isLink : a = mat.myId ∧ b = nodeId
  · obtain ⟨rfl, rfl⟩ := isLink
    simp [Topology.rate, listed, TdmaMatrix.topology, readAt,
      read_of_position myFound, read_of_position nodeFound]
  · have notRated :
        ¬ (a = mat.myId ∧ b = nodeId ∧
          nodeId ∈ mat.topology.members) :=
      fun rated => isLink ⟨rated.1, rated.2.1⟩
    rw [if_neg isLink]
    exact (if_neg notRated).symm

/-- Rating a link to an unlisted node changes nothing. -/
private theorem rate_of_not_mem
    {Id : Type*}
    [DecidableEq Id]
    {topology : Topology Id}
    {other : Id}
    (unlisted : other ∉ topology.members)
    (me : Id)
    (change : UInt8 → UInt8) :
    topology.rate me other change = topology := by
  simp [Topology.rate, unlisted]

/-- `MATRIX_updateLinkQuality` rates the link from the local node. -/
theorem topology_updateLinkQuality
    {mat : TdmaMatrix}
    (distinct : mat.idOfActiveNodes.Nodup)
    (selfListed : mat.myId ∈ mat.idOfActiveNodes)
    (nodeId : UInt8)
    (timeout : Bool) :
    (updateLinkQuality mat nodeId timeout).topology =
      mat.topology.rate mat.myId nodeId (adjustQuality · timeout) := by
  obtain ⟨myIdx, myFound⟩ := exists_position selfListed
  by_cases listed : nodeId ∈ mat.idOfActiveNodes
  · obtain ⟨nodeIdx, nodeFound⟩ := exists_position listed
    rw [updateLinkQuality, searchId, searchId, myFound, nodeFound]
    apply Topology.ext
    · rfl
    · rfl
    · exact quality_writeAt distinct myFound nodeFound
        (adjustQuality · timeout)
    · rfl
    · rfl
  · have notFound : mat.idOfActiveNodes.idxOf? nodeId = none := by
      simpa using listed
    rw [rate_of_not_mem (by simpa using listed),
      updateLinkQuality, searchId, searchId, myFound, notFound]

/-- `MATRIX_setLinkQuality` rates the link from the local node. -/
theorem topology_setLinkQuality
    {mat : TdmaMatrix}
    (distinct : mat.idOfActiveNodes.Nodup)
    (selfListed : mat.myId ∈ mat.idOfActiveNodes)
    (nodeId quality : UInt8) :
    (setLinkQuality mat nodeId quality).topology =
      mat.topology.rate mat.myId nodeId (fun _ => quality) := by
  obtain ⟨myIdx, myFound⟩ := exists_position selfListed
  by_cases listed : nodeId ∈ mat.idOfActiveNodes
  · obtain ⟨nodeIdx, nodeFound⟩ := exists_position listed
    rw [setLinkQuality, searchId, searchId, myFound, nodeFound]
    apply Topology.ext
    · rfl
    · rfl
    · exact quality_writeAt distinct myFound nodeFound
        (fun _ => quality)
    · rfl
    · rfl
  · have notFound : mat.idOfActiveNodes.idxOf? nodeId = none := by
      simpa using listed
    rw [rate_of_not_mem (by simpa using listed),
      setLinkQuality, searchId, searchId, myFound, notFound]

/-- The refresh before a transmission is the refresh of the topology. -/
theorem topology_refreshAges
    {mat : TdmaMatrix}
    (distinct : mat.idOfActiveNodes.Nodup)
    (selfListed : mat.myId ∈ mat.idOfActiveNodes)
    (time : ℚ) :
    (refreshAges mat time).topology =
      mat.topology.refresh mat.myId time := by
  obtain ⟨myPos, myFound⟩ := exists_position selfListed
  have created :
      ∀ k,
        read mat.idOfActiveNodes (write mat.creationTime myPos time) k =
          if k = mat.myId then time else mat.topology.created k :=
    fun k => read_write distinct myFound mat.creationTime time k
  apply Topology.ext
  · rfl
  · rfl
  · rfl
  · funext k
    simp only [TdmaMatrix.topology, refreshAges, searchId, myFound]
    exact created k
  · funext k
    by_cases listed : k ∈ mat.idOfActiveNodes
    · obtain ⟨pos, found⟩ := exists_position listed
      have owner := (idxOf?_eq_some_iff_getElem? distinct).mp found
      have cell := created k
      rw [read_of_position found] at cell
      have ageCell :
          (refreshAges mat time).topology.age k =
            if k = mat.myId then 0
            else time - write mat.creationTime myPos time pos := by
        simp [TdmaMatrix.topology, refreshAges, searchId, myFound,
          read_of_position found, owner]
      rw [ageCell, cell]
      by_cases isSelf : k = mat.myId
      · simp [Topology.refresh, isSelf]
      · simp [Topology.refresh, isSelf, listed]
    · have notSelf : k ≠ mat.myId := by
        rintro rfl
        exact listed selfListed
      simp [TdmaMatrix.topology, refreshAges, Topology.refresh,
        notSelf, listed]

/-- The local node survives the removal of dead links. -/
theorem self_mem_removeDeadLinks
    {mat : TdmaMatrix}
    (distinct : mat.idOfActiveNodes.Nodup)
    (selfListed : mat.myId ∈ mat.idOfActiveNodes)
    (time : ℚ) :
    mat.myId ∈ (removeDeadLinks mat time).idOfActiveNodes := by
  rw [idOfActiveNodes_removeDeadLinks distinct]
  simp [Topology.mem_alive, selfListed]

/-- What `serializeMatrix` leaves in `g_myMatrix`, as a topology. -/
theorem topology_serializedMatrix
    {mat : TdmaMatrix}
    (distinct : mat.idOfActiveNodes.Nodup)
    (selfListed : mat.myId ∈ mat.idOfActiveNodes)
    (removalTime time : ℚ) :
    (serializedMatrix mat removalTime time).topology =
      (mat.topology.expire mat.myId removalTime).refresh mat.myId time := by
  have keptDistinct :
      (removeDeadLinks mat removalTime).idOfActiveNodes.Nodup := by
    rw [idOfActiveNodes_removeDeadLinks distinct]
    exact distinct.filter _
  have selfKept := self_mem_removeDeadLinks distinct selfListed removalTime
  rw [serializedMatrix,
    topology_refreshAges keptDistinct
      (by rwa [myId_removeDeadLinks distinct]),
    topology_removeDeadLinks distinct, myId_removeDeadLinks distinct]

end RoutingMesh
