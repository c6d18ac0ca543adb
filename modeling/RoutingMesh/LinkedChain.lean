import Mathlib.Data.List.Nodup
import Mathlib.Logic.Function.Basic

/-!
# Chains of nodes in a heap

A heap maps addresses to nodes, and a node points to the next one or nowhere.
A chain is what is found from a pointer by following the nodes until the
pointer is null.  It is finite and unique, it visits no address twice, and the
operations on it are a new last node and the loop that frees all its nodes.
-/

namespace LinkedChain

variable {Addr α : Type*}

/-- A node with what it holds and its `next`, which may be null. -/
structure Cell (Addr α : Type*) where
  value : α
  next : Option Addr

/-- What is allocated at each address. -/
abbrev Heap (Addr α : Type*) := Addr → Option (Cell Addr α)

/-- The nodes that are found from a pointer, each with its address. -/
def Chain
    (heap : Heap Addr α) : Option Addr → List (Addr × α) → Prop
  | pointer, [] => pointer = none
  | pointer, (addr, value) :: rest =>
      pointer = some addr ∧
        ∃ next, heap addr = some ⟨value, next⟩ ∧ Chain heap next rest

/-- The addresses of the nodes. -/
def addresses (nodes : List (Addr × α)) : List Addr :=
  nodes.map Prod.fst

section

variable {heap : Heap Addr α}
variable {pointer : Option Addr}
variable {nodes : List (Addr × α)}

/-- The pointer is null when there are no nodes. -/
theorem Chain.pointer_eq
    (chain : Chain heap pointer nodes) :
    pointer = nodes.head?.map Prod.fst := by
  cases nodes with
  | nil => exact chain
  | cons node rest => exact chain.1

/-- The nodes of a chain are allocated. -/
theorem Chain.allocated
    (chain : Chain heap pointer nodes)
    {addr : Addr}
    (listed : addr ∈ addresses nodes) :
    heap addr ≠ none := by
  induction nodes generalizing pointer with
  | nil =>
      simp [addresses] at listed
  | cons node rest inductionHypothesis =>
      obtain ⟨-, next, holds, restChain⟩ := chain
      rcases List.mem_cons.mp listed with rfl | later
      · simp [holds]
      · exact inductionHypothesis restChain later

/-- There is only one chain from a pointer. -/
theorem Chain.unique
    {other : List (Addr × α)}
    (chain : Chain heap pointer nodes)
    (otherChain : Chain heap pointer other) :
    nodes = other := by
  induction nodes generalizing pointer other with
  | nil =>
      cases other with
      | nil =>
          rfl
      | cons node rest =>
          exact absurd (chain.symm.trans otherChain.1) (by simp)
  | cons node rest inductionHypothesis =>
      obtain ⟨points, next, holds, restChain⟩ := chain
      cases other with
      | nil =>
          exact absurd (otherChain.symm.trans points) (by simp)
      | cons otherNode otherRest =>
          obtain ⟨otherPoints, otherNext, otherHolds, otherRestChain⟩ :=
            otherChain
          have sameAddr : node.1 = otherNode.1 :=
            Option.some.inj (points.symm.trans otherPoints)
          rw [← sameAddr, holds] at otherHolds
          obtain ⟨sameValue, rfl⟩ :=
            Cell.mk.inj (Option.some.inj otherHolds)
          rw [inductionHypothesis restChain otherRestChain,
            Prod.ext sameAddr sameValue]

/-- From a node of a chain, the rest of the chain is found. -/
theorem Chain.exists_suffix
    (chain : Chain heap pointer nodes)
    {addr : Addr}
    (listed : addr ∈ addresses nodes) :
    ∃ suffix, suffix <:+ nodes ∧ Chain heap (some addr) suffix := by
  induction nodes generalizing pointer with
  | nil =>
      simp [addresses] at listed
  | cons node rest inductionHypothesis =>
      rcases List.mem_cons.mp listed with rfl | later
      · exact ⟨node :: rest, List.suffix_rfl, chain.1 ▸ chain⟩
      · obtain ⟨-, next, -, restChain⟩ := chain
        obtain ⟨suffix, isSuffix, suffixChain⟩ :=
          inductionHypothesis restChain later
        exact ⟨suffix, isSuffix.trans (List.suffix_cons node rest),
          suffixChain⟩

/-- A chain does not come back to a node. -/
theorem Chain.nodup
    (chain : Chain heap pointer nodes) :
    (addresses nodes).Nodup := by
  induction nodes generalizing pointer with
  | nil =>
      exact List.nodup_nil
  | cons node rest inductionHypothesis =>
      have whole : Chain heap (some node.1) (node :: rest) :=
        chain.1 ▸ chain
      obtain ⟨-, next, -, restChain⟩ := chain
      refine List.nodup_cons.mpr ⟨?_, inductionHypothesis restChain⟩
      intro again
      -- The chain from the second visit is the same and yet shorter.
      obtain ⟨suffix, isSuffix, suffixChain⟩ :=
        restChain.exists_suffix again
      have shorter := isSuffix.length_le
      rw [← whole.unique suffixChain, List.length_cons] at shorter
      omega

/-- The last node points nowhere. -/
theorem Chain.last
    {leading : List (Addr × α)}
    {last : Addr × α}
    (chain : Chain heap pointer (leading ++ [last])) :
    heap last.1 = some ⟨last.2, none⟩ := by
  induction leading generalizing pointer with
  | nil =>
      obtain ⟨-, next, holds, ends⟩ := chain
      obtain rfl : next = none := ends
      exact holds
  | cons first rest inductionHypothesis =>
      obtain ⟨-, next, -, restChain⟩ := chain
      exact inductionHypothesis restChain

/-- Only what the heap holds at the nodes matters. -/
theorem Chain.congr
    {other : Heap Addr α}
    (chain : Chain heap pointer nodes)
    (same : ∀ addr ∈ addresses nodes, other addr = heap addr) :
    Chain other pointer nodes := by
  induction nodes generalizing pointer with
  | nil =>
      exact chain
  | cons node rest inductionHypothesis =>
      obtain ⟨points, next, holds, restChain⟩ := chain
      refine ⟨points, next, ?_, ?_⟩
      · rw [same node.1 List.mem_cons_self, holds]
      · exact inductionHypothesis restChain fun addr listed =>
          same addr (List.mem_cons_of_mem _ listed)

end

/-! ## The operations -/

variable [DecidableEq Addr]

/-- The last node points to a new one. -/
theorem Chain.append_singleton
    {heap : Heap Addr α}
    {pointer : Option Addr}
    {leading : List (Addr × α)}
    {last : Addr × α}
    (chain : Chain heap pointer (leading ++ [last]))
    {addr : Addr}
    {value : α}
    (holds : heap addr = some ⟨value, none⟩)
    (fresh : addr ∉ addresses (leading ++ [last])) :
    Chain (Function.update heap last.1 (some ⟨last.2, some addr⟩)) pointer
      (leading ++ [last] ++ [(addr, value)]) := by
  induction leading generalizing pointer with
  | nil =>
      obtain ⟨points, next, lastHolds, ends⟩ := chain
      have different : addr ≠ last.1 := by
        rintro rfl
        exact fresh (by simp [addresses])
      refine ⟨points, some addr, Function.update_self .., rfl, none, ?_, rfl⟩
      rw [Function.update_of_ne different, holds]
  | cons first rest inductionHypothesis =>
      have distinct := chain.nodup
      obtain ⟨points, next, firstHolds, restChain⟩ := chain
      have notLast : first.1 ≠ last.1 := by
        rintro same
        simp [addresses, same] at distinct
      refine ⟨points, next, ?_, ?_⟩
      · rw [Function.update_of_ne notLast, firstHolds]
      · exact inductionHypothesis restChain fun listed =>
          fresh (List.mem_cons_of_mem _ listed)

/--
`while (p) { n = p->next; free(p); p = n; }`, with what the freed nodes held.
There is no result when the fuel does not suffice or when `p` is not allocated.
-/
def freeAll :
    Nat → Heap Addr α → Option Addr → Option (Heap Addr α × List α)
  | _, heap, none => some (heap, [])
  | 0, _, some _ => none
  | fuel + 1, heap, some addr =>
      match heap addr with
      | none => none
      | some cell =>
          (freeAll fuel (Function.update heap addr none) cell.next).map
            fun freed => (freed.1, cell.value :: freed.2)

/-- The loop ends after as many rounds as there are nodes, and frees these. -/
theorem freeAll_eq_some
    {heap : Heap Addr α}
    {pointer : Option Addr}
    {nodes : List (Addr × α)}
    (chain : Chain heap pointer nodes)
    {fuel : Nat}
    (enough : nodes.length ≤ fuel) :
    ∃ freed,
      freeAll fuel heap pointer = some (freed, nodes.map Prod.snd) ∧
        ∀ addr,
          freed addr = if addr ∈ addresses nodes then none else heap addr := by
  induction nodes generalizing heap pointer fuel with
  | nil =>
      obtain rfl : pointer = none := chain
      refine ⟨heap, ?_, ?_⟩
      · cases fuel <;> rfl
      · simp [addresses]
  | cons node rest inductionHypothesis =>
      have distinct := chain.nodup
      obtain ⟨rfl, next, holds, restChain⟩ := chain
      obtain ⟨notLater, -⟩ := List.nodup_cons.mp distinct
      rw [List.length_cons] at enough
      obtain ⟨fuel, rfl⟩ : ∃ less, fuel = less + 1 :=
        Nat.exists_eq_add_one.mpr (by omega)
      have restEnough : rest.length ≤ fuel := by omega
      have restKept :
          Chain (Function.update heap node.1 none) next rest := by
        apply restChain.congr
        intro addr listed
        apply Function.update_of_ne
        rintro rfl
        exact notLater listed
      obtain ⟨freed, loop, frees⟩ :=
        inductionHypothesis restKept restEnough
      refine ⟨freed, ?_, ?_⟩
      · simp [freeAll, holds, loop]
      · intro addr
        rw [frees addr]
        simp only [addresses, List.map_cons, List.mem_cons]
        grind

end LinkedChain
