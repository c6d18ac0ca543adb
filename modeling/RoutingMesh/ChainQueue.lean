import RoutingMesh.LinkedChain

/-!
# Queues with two ends

A queue keeps a pointer to the first and to the last node of a chain.  A node
goes in behind the last one, and the first one comes out; the second pointer
is null exactly when the first one is.
-/

namespace ChainQueue

open LinkedChain

/-- The heap of the nodes, and the pointers to the first and the last one. -/
structure Ends (Addr α : Type*) where
  heap : Heap Addr α
  head : Option Addr
  tail : Option Addr

variable {Addr α : Type*}

/-- The nodes are found from the head, and the last one is the tail. -/
structure Linked
    (ends : Ends Addr α)
    (nodes : List (Addr × α)) : Prop where
  chain : Chain ends.heap ends.head nodes
  tail : ends.tail = nodes.getLast?.map Prod.fst

theorem linked_nil (heap : Heap Addr α) :
    Linked { heap := heap, head := none, tail := none } [] where
  chain := rfl
  tail := rfl

/-- What is left when the first node, which points to the next, comes out. -/
def Ends.dropFirst
    (ends : Ends Addr α)
    (next : Option Addr) : Ends Addr α :=
  { ends with
    head := next
    tail := if next = none then none else ends.tail }

section

variable {ends : Ends Addr α}
variable {nodes : List (Addr × α)}

/-- There is no first node exactly when the queue is empty. -/
theorem Linked.head_eq_none_iff
    (linked : Linked ends nodes) :
    ends.head = none ↔ nodes = [] := by
  rw [linked.chain.pointer_eq]
  simp

/-- The first node is found, and the others are linked without it. -/
theorem Linked.dropFirst
    {first : Addr × α}
    {rest : List (Addr × α)}
    (linked : Linked ends (first :: rest)) :
    ∃ next,
      ends.head = some first.1 ∧
        ends.heap first.1 = some ⟨first.2, next⟩ ∧
        first.1 ∉ addresses rest ∧
        Linked (ends.dropFirst next) rest := by
  have distinct := linked.chain.nodup
  have isTail := linked.tail
  obtain ⟨points, next, holds, restChain⟩ := linked.chain
  refine ⟨next, points, holds, (List.nodup_cons.mp distinct).1, restChain, ?_⟩
  rw [Ends.dropFirst, isTail, restChain.pointer_eq]
  cases rest with
  | nil =>
      rfl
  | cons second later =>
      simp

end

variable [DecidableEq Addr]

/--
A node whose `next` is null goes behind the tail, or becomes both ends.
Reading a node that is not allocated gives no result.
-/
def Ends.append
    (ends : Ends Addr α)
    (addr : Addr)
    (value : α) : Option (Ends Addr α) :=
  let written := Function.update ends.heap addr (some ⟨value, none⟩)
  match ends.tail with
  | some last => do
      let cell ← written last
      some
        { ends with
          heap :=
            Function.update written last
              (some { cell with next := some addr })
          tail := some addr }
  | none =>
      some { heap := written, head := some addr, tail := some addr }

/-- Change what the heap holds at an address. -/
def Ends.set
    (ends : Ends Addr α)
    (addr : Addr)
    (cell : Option (Cell Addr α)) : Ends Addr α :=
  { ends with heap := Function.update ends.heap addr cell }

variable {ends : Ends Addr α}
variable {nodes : List (Addr × α)}

/-- The queue does not depend on what is held elsewhere. -/
theorem Linked.set
    (linked : Linked ends nodes)
    {addr : Addr}
    (elsewhere : addr ∉ addresses nodes)
    (cell : Option (Cell Addr α)) :
    Linked (ends.set addr cell) nodes where
  chain := by
    apply linked.chain.congr
    intro other listed
    apply Function.update_of_ne
    rintro rfl
    exact elsewhere listed
  tail := linked.tail

/-- A node that is not listed yet goes behind the others. -/
theorem Linked.append
    (linked : Linked ends nodes)
    {addr : Addr}
    (elsewhere : addr ∉ addresses nodes)
    (value : α) :
    ∃ after,
      ends.append addr value = some after ∧
        Linked after (nodes ++ [(addr, value)]) ∧
        ∀ other, other ∉ addresses nodes → other ≠ addr →
          after.heap other = ends.heap other := by
  have written := linked.set elsewhere (some ⟨value, none⟩)
  have holds :
      (ends.set addr (some ⟨value, none⟩)).heap addr =
        some ⟨value, none⟩ :=
    Function.update_self ..
  rcases List.eq_nil_or_concat nodes with rfl | ⟨leading, last, rfl⟩
  · have noTail : ends.tail = none := linked.tail
    refine
      ⟨{ heap := Function.update ends.heap addr (some ⟨value, none⟩)
         head := some addr
         tail := some addr },
        by simp only [Ends.append, noTail], ⟨⟨rfl, none, holds, rfl⟩, rfl⟩, ?_⟩
    intro other _ different
    exact Function.update_of_ne different _ _
  · rw [List.concat_eq_append] at *
    have atTail : ends.tail = some last.1 := by
      simpa using linked.tail
    have lastHolds := written.chain.last
    refine
      ⟨{ ends with
         heap :=
           Function.update (ends.set addr (some ⟨value, none⟩)).heap last.1
             (some ⟨last.2, some addr⟩)
         tail := some addr },
        ?_, ⟨written.chain.append_singleton holds elsewhere, ?_⟩, ?_⟩
    · simp only [Ends.append, atTail]
      simp only [Ends.set] at lastHolds
      rw [lastHolds]
      rfl
    · simp
    · intro other notListed different
      have notLast : other ≠ last.1 := by
        rintro rfl
        exact notListed (by simp [addresses])
      exact (Function.update_of_ne notLast _ _).trans
        (Function.update_of_ne different _ _)

end ChainQueue
