import Mathlib.Logic.Function.Basic
import RoutingMesh.StepRun

/-!
# Threads that take locks in order

A thread is given by what it does to locks; everything else that it does is a
choice between paths.  A check of the code follows the locks that it holds.
Threads whose code passes never use a lock that they do not hold, and who
waits for a lock waits for a thread that takes no lock before it in their
order.  Nothing here refers to a particular program.
-/

namespace LockDiscipline

/--
What a thread does to locks: `wait` is a wait on a condition, which gives up
the lock and takes it again; the two parts of a choice are the paths of the
code, and a body is repeated any number of times.
-/
inductive Code (Lock : Type*) where
  | skip
  | acquire (lock : Lock)
  | release (lock : Lock)
  | wait (lock : Lock)
  | seq (first second : Code Lock)
  | choose (first second : Code Lock)
  | repeatedly (body : Code Lock)
  deriving DecidableEq, Repr

/-- The locks that a thread may take again, and the order of the locks. -/
structure Locking (Lock : Type*) where
  reentrant : Lock → Bool
  rank : Lock → Nat

/-- What a thread has left to do, and whether it waits on a condition. -/
structure Thread (Lock : Type*) where
  todo : List (Code Lock)
  asleep : Bool

/-- The threads, and the locks that each one holds, the last one first. -/
structure State (ι Lock : Type*) where
  threads : ι → Thread Lock
  held : ι → List Lock

/-- Every thread before it runs its code. -/
def start {ι Lock : Type*} (code : ι → Code Lock) : State ι Lock where
  threads := fun i => ⟨[code i], false⟩
  held := fun _ => []

section

variable {ι Lock : Type*} [DecidableEq Lock]

/--
The next thing that a thread does, by which path, and the locks that it holds
then.  It wakes by itself or for a signal, and takes the lock again.
-/
def Thread.advance
    (path : Bool)
    (thread : Thread Lock)
    (held : List Lock) : Thread Lock × List Lock :=
  if thread.asleep then
    (⟨thread.todo, false⟩, held)
  else
    match thread.todo with
    | [] => (thread, held)
    | .skip :: rest => (⟨rest, false⟩, held)
    | .acquire lock :: rest => (⟨rest, false⟩, lock :: held)
    | .release lock :: rest => (⟨rest, false⟩, held.erase lock)
    | .wait lock :: rest => (⟨.acquire lock :: rest, true⟩, held.erase lock)
    | .seq first second :: rest => (⟨first :: second :: rest, false⟩, held)
    | .choose first second :: rest =>
        (⟨(if path then first else second) :: rest, false⟩, held)
    | .repeatedly body :: rest =>
        (⟨if path then body :: .repeatedly body :: rest else rest, false⟩, held)

/-- One thread goes on, by one of its paths. -/
def step
    [DecidableEq ι]
    (state : State ι Lock)
    (turn : ι × Bool) : State ι Lock :=
  let next :=
    (state.threads turn.1).advance turn.2 (state.held turn.1)
  { threads := Function.update state.threads turn.1 next.1
    held := Function.update state.held turn.1 next.2 }

/-- A lock is free for a thread: no other one has it, or it may take it again. -/
def State.Free
    (locking : Locking Lock)
    (state : State ι Lock)
    (i : ι)
    (lock : Lock) : Prop :=
  (∀ j, j ≠ i → lock ∉ state.held j) ∧
    (lock ∈ state.held i → locking.reentrant lock = true)

/-- A thread that is awake waits for a lock. -/
def State.WaitsFor
    (state : State ι Lock)
    (i : ι)
    (lock : Lock) : Prop :=
  (state.threads i).asleep = false ∧
    ∃ rest, (state.threads i).todo = .acquire lock :: rest

/-- A thread has come to the end of its code. -/
def State.Finished (state : State ι Lock) (i : ι) : Prop :=
  (state.threads i).todo = []

/-- A thread can go on. -/
def State.CanStep
    (locking : Locking Lock)
    (state : State ι Lock)
    (i : ι) : Prop :=
  ¬ state.Finished i ∧
    ∀ lock, state.WaitsFor i lock → state.Free locking i lock

omit [DecidableEq Lock] in
/-- A thread that does not take a lock next, or a free one, can go on. -/
theorem State.canStep_of_todo
    {locking : Locking Lock}
    {state : State ι Lock}
    {i : ι}
    {code : Code Lock}
    {rest : List (Code Lock)}
    (isNext : (state.threads i).todo = code :: rest)
    (free : ∀ lock, code = .acquire lock → state.Free locking i lock) :
    state.CanStep locking i := by
  constructor
  · intro finished
    rw [State.Finished, isNext] at finished
    exact List.cons_ne_nil code rest finished
  · rintro lock ⟨-, others, isAcquire⟩
    rw [isNext] at isAcquire
    exact free lock (List.head_eq_of_cons_eq isAcquire)

/-- The threads go on in any order, by any paths. -/
def Enabled
    (locking : Locking Lock)
    (state : State ι Lock)
    (turn : ι × Bool) : Prop :=
  state.CanStep locking turn.1

/-- A thread gives up a lock, or waits with one, that it does not hold. -/
def Misuses (thread : Thread Lock) (held : List Lock) : Prop :=
  thread.asleep = false ∧
    ∃ lock rest,
      (thread.todo = .release lock :: rest ∨ thread.todo = .wait lock :: rest) ∧
        lock ∉ held

/-! ## The check -/

/-- A lock may be taken again, or comes after all that are held. -/
def Locking.mayAcquire
    (locking : Locking Lock)
    (held : List Lock)
    (lock : Lock) : Bool :=
  (locking.reentrant lock && decide (lock ∈ held)) ||
    held.all fun other => decide (locking.rank other < locking.rank lock)

/--
The locks that are held after some code, if it keeps the discipline: both
paths of a choice hold the same, a repeated body holds what it found, and a
wait holds nothing but its lock.
-/
def check (locking : Locking Lock) : Code Lock → List Lock → Option (List Lock)
  | .skip, held => some held
  | .acquire lock, held =>
      if locking.mayAcquire held lock then some (lock :: held) else none
  | .release lock, held =>
      if lock ∈ held then some (held.erase lock) else none
  | .wait lock, held => if held = [lock] then some held else none
  | .seq first second, held =>
      (check locking first held).bind (check locking second)
  | .choose first second, held =>
      if check locking first held = check locking second held then
        check locking first held
      else
        none
  | .repeatedly body, held =>
      if check locking body held = some held then some held else none

/-- The same for what a thread has left to do. -/
def checkAll
    (locking : Locking Lock)
    (todo : List (Code Lock))
    (held : List Lock) : Option (List Lock) :=
  todo.foldlM (fun held code => check locking code held) held

/--
A thread keeps the discipline to its end, where it holds nothing; it sleeps
without a lock, and holds no two different locks of one rank.
-/
structure Disciplined
    (locking : Locking Lock)
    (thread : Thread Lock)
    (held : List Lock) : Prop where
  checks : checkAll locking thread.todo held = some []
  sleeps : thread.asleep = true → held = []
  ranked :
    ∀ first ∈ held, ∀ second ∈ held,
      locking.rank first = locking.rank second → first = second

theorem checkAll_cons
    (locking : Locking Lock)
    (code : Code Lock)
    (rest : List (Code Lock))
    (held : List Lock) :
    checkAll locking (code :: rest) held =
      (check locking code held).bind (checkAll locking rest) :=
  rfl

/-- A lock that may be taken is held already or after all that are. -/
theorem Locking.mayAcquire_iff
    {locking : Locking Lock}
    {held : List Lock}
    {lock : Lock} :
    locking.mayAcquire held lock = true ↔
      (locking.reentrant lock = true ∧ lock ∈ held) ∨
        ∀ other ∈ held, locking.rank other < locking.rank lock := by
  simp [mayAcquire]

section

variable {locking : Locking Lock}
variable {thread : Thread Lock}
variable {held : List Lock}

/-- The first code of a thread is checked with what the thread holds. -/
theorem Disciplined.check_head
    (disciplined : Disciplined locking thread held)
    {code : Code Lock}
    {rest : List (Code Lock)}
    (isNext : thread.todo = code :: rest) :
    ∃ between,
      check locking code held = some between ∧
        checkAll locking rest between = some [] := by
  have checks := disciplined.checks
  rw [isNext, checkAll_cons] at checks
  exact Option.bind_eq_some_iff.mp checks

theorem Disciplined.mayAcquire
    (disciplined : Disciplined locking thread held)
    {lock : Lock}
    {rest : List (Code Lock)}
    (isNext : thread.todo = .acquire lock :: rest) :
    locking.mayAcquire held lock = true := by
  obtain ⟨between, checks, _⟩ := disciplined.check_head isNext
  exact (Option.ite_none_right_eq_some.mp checks).1

theorem Disciplined.not_misuses
    (disciplined : Disciplined locking thread held) :
    ¬ Misuses thread held := by
  rintro ⟨-, lock, rest, isRelease | isWait, notHeld⟩
  · obtain ⟨between, checks, _⟩ := disciplined.check_head isRelease
    exact notHeld (Option.ite_none_right_eq_some.mp checks).1
  · obtain ⟨between, checks, _⟩ := disciplined.check_head isWait
    have isHeld := (Option.ite_none_right_eq_some.mp checks).1
    rw [isHeld] at notHeld
    exact notHeld (List.mem_singleton_self lock)

/-- A lock that may be taken is the only one of its rank. -/
theorem Disciplined.ranked_acquire
    (disciplined : Disciplined locking thread held)
    {lock : Lock}
    (allowed : locking.mayAcquire held lock = true) :
    ∀ first ∈ lock :: held, ∀ second ∈ lock :: held,
      locking.rank first = locking.rank second → first = second := by
  have fromLock :
      ∀ other ∈ held,
        locking.rank other = locking.rank lock → other = lock := by
    intro other isHeld sameRank
    rcases Locking.mayAcquire_iff.mp allowed with ⟨-, again⟩ | after
    · exact disciplined.ranked other isHeld lock again sameRank
    · exact absurd sameRank (Nat.ne_of_lt (after other isHeld))
  intro first firstHeld second secondHeld sameRank
  rcases List.mem_cons.mp firstHeld with rfl | firstBefore
  · rcases List.mem_cons.mp secondHeld with rfl | secondBefore
    · rfl
    · exact (fromLock second secondBefore sameRank.symm).symm
  · rcases List.mem_cons.mp secondHeld with rfl | secondBefore
    · exact fromLock first firstBefore sameRank
    · exact disciplined.ranked first firstBefore second secondBefore sameRank

/-- What a thread does next leaves it disciplined. -/
theorem Disciplined.advance
    (disciplined : Disciplined locking thread held)
    (path : Bool) :
    Disciplined locking (thread.advance path held).1
      (thread.advance path held).2 := by
  have awakeHolds : ∀ held : List Lock, false = true → held = [] :=
    fun _ isAsleep => absurd isAsleep Bool.false_ne_true
  unfold Thread.advance
  split
  · exact ⟨disciplined.checks, awakeHolds held, disciplined.ranked⟩
  · rename_i awake
    split
    case h_1 => exact disciplined
    case h_2 rest isNext =>
      obtain ⟨between, checks, restChecks⟩ := disciplined.check_head isNext
      obtain rfl : held = between := Option.some.inj checks
      exact ⟨restChecks, awakeHolds _, disciplined.ranked⟩
    case h_3 lock rest isNext =>
      obtain ⟨between, checks, restChecks⟩ := disciplined.check_head isNext
      obtain ⟨allowed, isSome⟩ := Option.ite_none_right_eq_some.mp checks
      obtain rfl := Option.some.inj isSome
      exact ⟨restChecks, awakeHolds _, disciplined.ranked_acquire allowed⟩
    case h_4 lock rest isNext =>
      obtain ⟨between, checks, restChecks⟩ := disciplined.check_head isNext
      obtain ⟨-, isSome⟩ := Option.ite_none_right_eq_some.mp checks
      obtain rfl := Option.some.inj isSome
      exact ⟨restChecks, awakeHolds _, fun first firstHeld second secondHeld =>
        disciplined.ranked first (List.mem_of_mem_erase firstHeld) second
          (List.mem_of_mem_erase secondHeld)⟩
    case h_5 lock rest isNext =>
      -- The wait ends when the lock is taken again.
      obtain ⟨between, checks, restChecks⟩ := disciplined.check_head isNext
      obtain ⟨isHeld, isSome⟩ := Option.ite_none_right_eq_some.mp checks
      obtain rfl := Option.some.inj isSome
      subst isHeld
      have nothing : [lock].erase lock = [] := List.erase_cons_head lock []
      have retaken :
          check locking (.acquire lock) [] = some [lock] :=
        if_pos (Locking.mayAcquire_iff.mpr (.inr (by simp)))
      rw [nothing]
      refine ⟨?_, fun _ => rfl, by simp⟩
      rw [checkAll_cons, retaken, Option.bind_some]
      exact restChecks
    case h_6 first second rest isNext =>
      obtain ⟨between, checks, restChecks⟩ := disciplined.check_head isNext
      obtain ⟨middle, firstChecks, secondChecks⟩ :=
        Option.bind_eq_some_iff.mp checks
      refine ⟨?_, awakeHolds _, disciplined.ranked⟩
      rw [checkAll_cons, firstChecks, Option.bind_some, checkAll_cons,
        secondChecks, Option.bind_some]
      exact restChecks
    case h_7 first second rest isNext =>
      obtain ⟨between, checks, restChecks⟩ := disciplined.check_head isNext
      obtain ⟨same, firstChecks⟩ := Option.ite_none_right_eq_some.mp checks
      refine ⟨?_, awakeHolds _, disciplined.ranked⟩
      rw [checkAll_cons]
      cases path with
      | true =>
          rw [if_pos rfl, firstChecks, Option.bind_some]
          exact restChecks
      | false =>
          rw [if_neg Bool.false_ne_true, ← same, firstChecks,
            Option.bind_some]
          exact restChecks
    case h_8 body rest isNext =>
      obtain ⟨between, checks, restChecks⟩ := disciplined.check_head isNext
      have again := checks
      obtain ⟨bodyChecks, isSome⟩ := Option.ite_none_right_eq_some.mp checks
      obtain rfl := Option.some.inj isSome
      refine ⟨?_, awakeHolds _, disciplined.ranked⟩
      cases path with
      | true =>
          rw [if_pos rfl, checkAll_cons, bodyChecks, Option.bind_some,
            checkAll_cons, again, Option.bind_some]
          exact restChecks
      | false =>
          rw [if_neg Bool.false_ne_true]
          exact restChecks

/-- The locks that a thread holds next. -/
theorem mem_advance
    {path : Bool}
    {lock : Lock}
    (isHeld : lock ∈ (thread.advance path held).2) :
    lock ∈ held ∨
      thread.asleep = false ∧ ∃ rest, thread.todo = .acquire lock :: rest := by
  unfold Thread.advance at isHeld
  split at isHeld
  · exact .inl isHeld
  · rename_i awake
    split at isHeld
    case h_3 taken rest isNext =>
      rcases List.mem_cons.mp isHeld with rfl | before
      · exact .inr ⟨Bool.eq_false_iff.mpr awake, rest, isNext⟩
      · exact .inl before
    case h_4 => exact .inl (List.mem_of_mem_erase isHeld)
    case h_5 => exact .inl (List.mem_of_mem_erase isHeld)
    all_goals exact .inl isHeld

end

/-! ## All threads together -/

/-- Every thread is disciplined, and no two hold one lock. -/
structure Orderly
    (locking : Locking Lock)
    (state : State ι Lock) : Prop where
  disciplined :
    ∀ i, Disciplined locking (state.threads i) (state.held i)
  exclusive :
    ∀ i j lock, lock ∈ state.held i → lock ∈ state.held j → i = j

section

variable {locking : Locking Lock}
variable {state : State ι Lock}

theorem orderly_start
    {code : ι → Code Lock}
    (checked : ∀ i, check locking (code i) [] = some []) :
    Orderly locking (start code) where
  disciplined i :=
    { checks := by
        rw [start, checkAll_cons, checked i]
        rfl
      sleeps := fun _ => rfl
      ranked := by simp [start] }
  exclusive := by simp [start]

/-- A step of any thread keeps the order. -/
theorem Orderly.step
    [DecidableEq ι]
    (orderly : Orderly locking state)
    {turn : ι × Bool}
    (allowed : Enabled locking state turn) :
    Orderly locking (LockDiscipline.step state turn) := by
  obtain ⟨i, path⟩ := turn
  obtain ⟨-, waitsForFree⟩ := allowed
  have heldByNext :
      ∀ lock ∈ ((state.threads i).advance path (state.held i)).2,
        ∀ j, lock ∈ state.held j → j = i := by
    intro lock isHeld j holds
    rcases mem_advance isHeld with before | waits
    · exact orderly.exclusive j i lock holds before
    · by_contra isOther
      exact (waitsForFree lock waits).1 j isOther holds
  constructor
  · intro j
    simp only [LockDiscipline.step, Function.update_apply]
    split
    · rename_i isTurn
      subst isTurn
      exact (orderly.disciplined j).advance path
    · exact orderly.disciplined j
  · intro j k lock
    simp only [LockDiscipline.step, Function.update_apply]
    split
    · rename_i first
      split
      · rename_i second
        exact fun _ _ => first.trans second.symm
      · exact fun isHeld holds =>
          first.trans (heldByNext lock isHeld k holds).symm
    · split
      · rename_i second
        exact fun holds isHeld =>
          (heldByNext lock isHeld j holds).trans second.symm
      · exact orderly.exclusive j k lock

/-- Who holds a lock is awake and has not finished. -/
theorem Orderly.holder_active
    (orderly : Orderly locking state)
    {i : ι}
    {lock : Lock}
    (holds : lock ∈ state.held i) :
    (state.threads i).asleep = false ∧ ¬ state.Finished i := by
  constructor
  · rw [Bool.eq_false_iff]
    intro isAsleep
    rw [(orderly.disciplined i).sleeps isAsleep] at holds
    simp at holds
  · intro finished
    have checks := (orderly.disciplined i).checks
    rw [finished] at checks
    obtain nothing : state.held i = [] := Option.some.inj checks
    rw [nothing] at holds
    simp at holds

/-- A lock that is not free is held by another thread, after all that one holds. -/
theorem Orderly.holder_of_not_free
    (orderly : Orderly locking state)
    {i : ι}
    {lock : Lock}
    (waits : state.WaitsFor i lock)
    (notFree : ¬ state.Free locking i lock) :
    (∃ j, j ≠ i ∧ lock ∈ state.held j) ∧
      ∀ other ∈ state.held i, locking.rank other < locking.rank lock := by
  obtain ⟨-, rest, isNext⟩ := waits
  have mayAcquire :=
    Locking.mayAcquire_iff.mp ((orderly.disciplined i).mayAcquire isNext)
  have heldByOther : ∃ j, j ≠ i ∧ lock ∈ state.held j := by
    by_contra heldByNone
    push Not at heldByNone
    refine notFree ⟨heldByNone, fun holds => ?_⟩
    rcases mayAcquire with ⟨again, -⟩ | after
    · exact again
    · exact absurd (after lock holds) (Nat.lt_irrefl _)
  refine ⟨heldByOther, ?_⟩
  obtain ⟨j, isOther, holds⟩ := heldByOther
  rcases mayAcquire with ⟨-, heldByBoth⟩ | after
  · exact absurd (orderly.exclusive j i lock holds heldByBoth) isOther
  · exact after

/-- Who holds a lock that no other lock comes after can go on. -/
theorem Orderly.canStep_of_holds
    (orderly : Orderly locking state)
    {i : ι}
    {lock : Lock}
    (highest : ∀ other, locking.rank other ≤ locking.rank lock)
    (holds : lock ∈ state.held i) :
    state.CanStep locking i := by
  refine ⟨(orderly.holder_active holds).2, fun next waits => ?_⟩
  by_contra notFree
  have below := (orderly.holder_of_not_free waits notFree).2 lock holds
  exact absurd below (Nat.not_lt.mpr (highest next))

/-- In every reachable state of checked threads. -/
theorem orderly_of_reachable
    [DecidableEq ι]
    {code : ι → Code Lock}
    (checked : ∀ i, check locking (code i) [] = some [])
    (reachable :
      StepRun.Reachable LockDiscipline.step (Enabled locking) (start code)
        state) :
    Orderly locking state :=
  reachable.invariant (Orderly locking) (orderly_start checked)
    fun orderly allowed => orderly.step allowed

end

end

end LockDiscipline
