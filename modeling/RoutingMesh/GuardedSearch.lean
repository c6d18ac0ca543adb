import Mathlib.Data.List.Chain
import Mathlib.Logic.Relation
import Mathlib.Tactic.Common

/-!
# Depth-first search with shared marks

A recursive search that marks every vertex it enters and never unmarks one,
so that sibling branches share their marks.  A failed branch leaves no vertex
with an unmarked successor behind; hence the marks it leaves cannot hide a
way to the target.
-/

namespace GuardedSearch

variable {V : Type*} [DecidableEq V]

/-- Mark one more vertex. -/
def mark (marked : V → Bool) (v : V) : V → Bool :=
  fun query => if query = v then true else marked query

@[simp] theorem mark_eq_true
    {marked : V → Bool}
    {v query : V} :
    mark marked v query = true ↔ query = v ∨ marked query = true := by
  unfold mark
  split
  · rename_i same
    simp [same]
  · rename_i different
    simp [different]

/--
One pass of the loop over the vertices: once the target is found nothing more
is tried, and a branch is entered only at an unmarked successor.
-/
def tryNext
    (edge : V → V → Bool)
    (start : V)
    (branch : V → (V → Bool) → Bool × (V → Bool))
    (outcome : Bool × (V → Bool))
    (i : V) : Bool × (V → Bool) :=
  if outcome.1 then
    outcome
  else if edge start i && !outcome.2 i then
    branch i outcome.2
  else
    outcome

/--
Search `target` from a vertex.  The result says whether it was found, and
which vertices are marked afterwards.  `fuel` bounds the recursion depth.
-/
def search
    (edge : V → V → Bool)
    (vertices : List V)
    (target : V) :
    Nat → V → (V → Bool) → Bool × (V → Bool)
  | 0, _, marked => (false, marked)
  | fuel + 1, start, marked =>
      if start = target then
        (true, marked)
      else
        vertices.foldl
          (tryNext edge start (search edge vertices target fuel))
          (false, mark marked start)

/-- One step of a way that enters no blocked vertex. -/
def Step
    (edge : V → V → Bool)
    (vertices : List V)
    (blocked : V → Bool)
    (a b : V) : Prop :=
  edge a b = true ∧ b ∈ vertices ∧ blocked b = false

/-- A way between two vertices that enters no blocked vertex. -/
def Reaches
    (edge : V → V → Bool)
    (vertices : List V)
    (blocked : V → Bool) : V → V → Prop :=
  Relation.ReflTransGen (Step edge vertices blocked)

variable {edge : V → V → Bool} {vertices : List V}

omit [DecidableEq V] in
/-- Fewer blocked vertices leave every way open. -/
theorem Reaches.mono
    {fewer more : V → Bool}
    (grows : ∀ v, fewer v = true → more v = true)
    {a b : V}
    (way : Reaches edge vertices more a b) :
    Reaches edge vertices fewer a b := by
  refine Relation.ReflTransGen.mono ?_ a b way
  intro x y step
  refine ⟨step.1, step.2.1, ?_⟩
  by_contra blocked
  have blockedMore := grows y (by simpa using blocked)
  rw [step.2.2] at blockedMore
  exact Bool.false_ne_true blockedMore

/-- What a branch that did not find the target leaves behind. -/
structure Exhausted
    (edge : V → V → Bool)
    (vertices : List V)
    (target : V)
    (before after : V → Bool) : Prop where
  grows : ∀ v, before v = true → after v = true
  closed :
    ∀ x y, after x = true → before x = false →
      edge x y = true → y ∈ vertices → after y = true
  missed : after target = true → before target = true

namespace Exhausted

variable {target : V} {first second third : V → Bool}

omit [DecidableEq V] in
/-- An empty branch leaves the marks as they are. -/
theorem refl (marked : V → Bool) :
    Exhausted edge vertices target marked marked where
  grows _ isMarked := isMarked
  closed x _ isMarked isFresh := by
    rw [isMarked] at isFresh
    exact (Bool.false_ne_true isFresh.symm).elim
  missed isMarked := isMarked

omit [DecidableEq V] in
/-- Branches tried one after the other exhaust what each of them does. -/
theorem trans
    (earlier : Exhausted edge vertices target first second)
    (later : Exhausted edge vertices target second third) :
    Exhausted edge vertices target first third where
  grows v marked := later.grows v (earlier.grows v marked)
  closed x y marked fresh isEdge listed := by
    by_cases inSecond : second x = true
    · exact later.grows y (earlier.closed x y inSecond fresh isEdge listed)
    · exact later.closed x y marked (by simpa using inSecond) isEdge listed
  missed marked := earlier.missed (later.missed marked)

omit [DecidableEq V] in
/-- Every way out of an exhausted part stays in it. -/
theorem of_reaches
    (exhausted : Exhausted edge vertices target first second)
    {a b : V}
    (marked : second a = true)
    (fresh : first a = false)
    (way : Reaches edge vertices first a b) :
    second b = true ∧ first b = false := by
  induction way with
  | refl =>
      exact ⟨marked, fresh⟩
  | tail _ step inductionHypothesis =>
      obtain ⟨middleMarked, middleFresh⟩ := inductionHypothesis
      exact ⟨exhausted.closed _ _ middleMarked middleFresh step.1 step.2.1,
        step.2.2⟩

end Exhausted

/-- The number of vertices that are not marked. -/
def unmarked (vertices : List V) (marked : V → Bool) : Nat :=
  vertices.countP (fun v => !marked v)

omit [DecidableEq V] in
theorem unmarked_le
    {fewer more : V → Bool}
    (grows : ∀ v, fewer v = true → more v = true) :
    unmarked vertices more ≤ unmarked vertices fewer := by
  apply List.countP_mono_left
  intro v _ isUnmarked
  by_contra isMarked
  have markedMore := grows v (by simpa using isMarked)
  simp [markedMore] at isUnmarked

/-- Marking an unmarked vertex leaves fewer unmarked ones. -/
theorem unmarked_mark_lt
    {marked : V → Bool}
    {v : V}
    (listed : v ∈ vertices)
    (fresh : marked v = false) :
    unmarked vertices (mark marked v) < unmarked vertices marked := by
  unfold unmarked
  induction vertices with
  | nil =>
      simp at listed
  | cons head rest inductionHypothesis =>
      have restLe :
          rest.countP (fun v' => !mark marked v v') ≤
            rest.countP (fun v' => !marked v') :=
        unmarked_le (fun w isMarked => mark_eq_true.mpr (.inr isMarked))
      rw [List.countP_cons, List.countP_cons]
      by_cases isHead : head = v
      · subst isHead
        simp only [mark, ↓reduceIte, Bool.not_true, Bool.false_eq_true,
          fresh, Bool.not_false]
        exact Nat.lt_succ_of_le restLe
      · have inRest : v ∈ rest := by
          rcases List.mem_cons.mp listed with same | inRest
          · exact (isHead same.symm).elim
          · exact inRest
        have fewer := inductionHypothesis inRest
        have sameHead : mark marked v head = marked head := by
          simp [mark, isHead]
        rw [sameHead]
        exact Nat.add_lt_add_right fewer _

/-- The two possible outcomes of a search from an unmarked vertex. -/
structure Outcome
    (edge : V → V → Bool)
    (vertices : List V)
    (target start : V)
    (before : V → Bool)
    (outcome : Bool × (V → Bool)) : Prop where
  found :
    outcome.1 = true → Reaches edge vertices before start target
  failed :
    outcome.1 = false →
      Exhausted edge vertices target before outcome.2 ∧
        outcome.2 start = true

/-- The state of the loop over the successors of `start`, once `tried` are done. -/
structure Progress
    (edge : V → V → Bool)
    (vertices : List V)
    (target start : V)
    (before : V → Bool)
    (tried : List V)
    (outcome : Bool × (V → Bool)) : Prop where
  found :
    outcome.1 = true → Reaches edge vertices before start target
  failed :
    outcome.1 = false →
      Exhausted edge vertices target (mark before start) outcome.2 ∧
        ∀ v ∈ tried, edge start v = true → outcome.2 v = true

/-- Trying one more successor keeps the loop state. -/
theorem Progress.tryNext
    {target start : V}
    {before : V → Bool}
    {tried : List V}
    {outcome : Bool × (V → Bool)}
    (progress :
      Progress edge vertices target start before tried outcome)
    {i : V}
    (listed : i ∈ vertices)
    {branch : V → (V → Bool) → Bool × (V → Bool)}
    (searches :
      ∀ {marked : V → Bool},
        (∀ v, mark before start v = true → marked v = true) →
        marked i = false →
        Outcome edge vertices target i marked (branch i marked)) :
    Progress edge vertices target start before (tried ++ [i])
      (tryNext edge start branch outcome i) := by
  unfold GuardedSearch.tryNext
  split
  · rename_i already
    refine ⟨progress.found, ?_⟩
    intro notFound
    rw [already] at notFound
    exact (Bool.false_ne_true notFound.symm).elim
  · rename_i notYet
    obtain ⟨exhausted, done⟩ := progress.failed (by simpa using notYet)
    split
    · rename_i enters
      simp only [Bool.and_eq_true, Bool.not_eq_true'] at enters
      have outcomeOfBranch := searches exhausted.grows enters.2
      have grows : ∀ v, before v = true → outcome.2 v = true :=
        fun v isMarked =>
          exhausted.grows v (mark_eq_true.mpr (.inr isMarked))
      refine ⟨?_, ?_⟩
      · intro found
        have fresh : before i = false := by
          by_contra isMarked
          have isMarkedNow := grows i (by simpa using isMarked)
          rw [enters.2] at isMarkedNow
          exact Bool.false_ne_true isMarkedNow
        exact Relation.ReflTransGen.head ⟨enters.1, listed, fresh⟩
          ((outcomeOfBranch.found found).mono grows)
      · intro notFound
        obtain ⟨branchExhausted, iMarked⟩ := outcomeOfBranch.failed notFound
        refine ⟨exhausted.trans branchExhausted, ?_⟩
        intro v member isEdge
        rcases List.mem_append.mp member with earlier | isLast
        · exact branchExhausted.grows v (done v earlier isEdge)
        · rw [List.mem_singleton] at isLast
          rw [isLast]
          exact iMarked
    · rename_i skips
      refine ⟨progress.found, ?_⟩
      intro _
      refine ⟨exhausted, ?_⟩
      intro v member isEdge
      rcases List.mem_append.mp member with earlier | isLast
      · exact done v earlier isEdge
      · rw [List.mem_singleton] at isLast
        subst isLast
        by_contra notMarked
        exact skips (by simp [isEdge, notMarked])

/-- The whole loop keeps the loop state. -/
theorem Progress.foldl_tryNext
    {target start : V}
    {before : V → Bool}
    {branch : V → (V → Bool) → Bool × (V → Bool)}
    {todo : List V} :
    ∀ {tried : List V} {outcome : Bool × (V → Bool)},
      Progress edge vertices target start before tried outcome →
      (∀ i ∈ todo, i ∈ vertices ∧
        ∀ {marked : V → Bool},
          (∀ v, mark before start v = true → marked v = true) →
          marked i = false →
          Outcome edge vertices target i marked (branch i marked)) →
      Progress edge vertices target start before (tried ++ todo)
        (todo.foldl (GuardedSearch.tryNext edge start branch) outcome) := by
  induction todo with
  | nil =>
      intro tried outcome progress _
      simpa using progress
  | cons i rest inductionHypothesis =>
      intro tried outcome progress searches
      obtain ⟨listed, searchesHead⟩ := searches i (by simp)
      have extended :=
        inductionHypothesis (progress.tryNext listed searchesHead)
          (fun v member => searches v (by simp [member]))
      simpa using extended

/-- With one unit of fuel for each unmarked vertex a search is exhaustive. -/
theorem search_spec
    {target : V}
    {fuel : Nat} :
    ∀ {start : V} {marked : V → Bool},
      start ∈ vertices →
      marked start = false →
      unmarked vertices marked ≤ fuel →
      Outcome edge vertices target start marked
        (search edge vertices target fuel start marked) := by
  induction fuel with
  | zero =>
      intro start marked listed fresh enough
      have positive := unmarked_mark_lt listed fresh
      omega
  | succ fuel inductionHypothesis =>
      intro start marked listed fresh enough
      rw [search]
      by_cases isTarget : start = target
      · rw [if_pos isTarget]
        refine ⟨?_, by simp⟩
        intro _
        rw [isTarget]
        exact Relation.ReflTransGen.refl
      · rw [if_neg isTarget]
        have fewer := unmarked_mark_lt listed fresh
        have atStart :
            Progress edge vertices target start marked []
              (false, mark marked start) :=
          { found := by simp
            failed := fun _ => ⟨Exhausted.refl _, by simp⟩ }
        have searches :
            ∀ i ∈ vertices, i ∈ vertices ∧
              ∀ {before : V → Bool},
                (∀ v, mark marked start v = true → before v = true) →
                before i = false →
                Outcome edge vertices target i before
                  (search edge vertices target fuel i before) := by
          intro i iListed
          refine ⟨iListed, ?_⟩
          intro before grows iFresh
          have remaining :
              unmarked vertices before ≤
                unmarked vertices (mark marked start) :=
            unmarked_le grows
          exact inductionHypothesis iListed iFresh (by omega)
        have progress := atStart.foldl_tryNext searches
        refine ⟨progress.found, ?_⟩
        intro notFound
        obtain ⟨exhausted, done⟩ := progress.failed notFound
        have startMarked := exhausted.grows start (by simp)
        refine ⟨⟨?_, ?_, ?_⟩, startMarked⟩
        · intro v isMarked
          exact exhausted.grows v (mark_eq_true.mpr (.inr isMarked))
        · intro x y isMarked isFresh isEdge yListed
          by_cases isStart : x = start
          · subst isStart
            exact done y (by simpa using yListed) isEdge
          · apply exhausted.closed x y isMarked _ isEdge yListed
            simp [mark, isStart, isFresh]
        · intro targetMarked
          rcases mark_eq_true.mp (exhausted.missed targetMarked) with
            isStart | before
          · exact (isTarget isStart.symm).elim
          · exact before

/-- A search succeeds exactly when an unblocked way leads to the target. -/
theorem search_eq_true_iff
    {target start : V}
    {fuel : Nat}
    {marked : V → Bool}
    (listed : start ∈ vertices)
    (fresh : marked start = false)
    (enough : unmarked vertices marked ≤ fuel) :
    (search edge vertices target fuel start marked).1 = true ↔
      Reaches edge vertices marked start target := by
  have outcome :
      Outcome edge vertices target start marked
        (search edge vertices target fuel start marked) :=
    search_spec listed fresh enough
  refine ⟨outcome.found, ?_⟩
  intro way
  by_contra notFound
  obtain ⟨exhausted, startMarked⟩ := outcome.failed (by simpa using notFound)
  obtain ⟨targetMarked, targetFresh⟩ :=
    exhausted.of_reaches startMarked fresh way
  have blocked := exhausted.missed targetMarked
  rw [targetFresh] at blocked
  exact Bool.false_ne_true blocked

/-! ## The depth of the recursion -/

/-- The pass of the loop when a branch may have no result. -/
def tryNextWithin
    (edge : V → V → Bool)
    (start : V)
    (branch : V → (V → Bool) → Option (Bool × (V → Bool)))
    (outcome : Bool × (V → Bool))
    (i : V) : Option (Bool × (V → Bool)) :=
  if outcome.1 then
    some outcome
  else if edge start i && !outcome.2 i then
    branch i outcome.2
  else
    some outcome

/--
The same search, without a result when some branch of it goes deeper than the
given depth.
-/
def searchWithin
    (edge : V → V → Bool)
    (vertices : List V)
    (target : V) :
    Nat → V → (V → Bool) → Option (Bool × (V → Bool))
  | 0, _, _ => none
  | depth + 1, start, marked =>
      if start = target then
        some (true, marked)
      else
        vertices.foldlM
          (tryNextWithin edge start (searchWithin edge vertices target depth))
          (false, mark marked start)

omit [DecidableEq V] in
/-- A loop all of whose branches have results has the result of the search. -/
theorem foldlM_tryNextWithin
    {start : V}
    {base : V → Bool}
    {within : V → (V → Bool) → Option (Bool × (V → Bool))}
    {branch : V → (V → Bool) → Bool × (V → Bool)}
    {todo : List V} :
    (∀ i ∈ todo, ∀ {marked : V → Bool},
        (∀ v, base v = true → marked v = true) →
        marked i = false →
        within i marked = some (branch i marked) ∧
          ((branch i marked).1 = false →
            ∀ v, marked v = true → (branch i marked).2 v = true)) →
      ∀ {outcome : Bool × (V → Bool)},
        (outcome.1 = false → ∀ v, base v = true → outcome.2 v = true) →
        todo.foldlM (tryNextWithin edge start within) outcome =
          some (todo.foldl (tryNext edge start branch) outcome) := by
  induction todo with
  | nil =>
      intro _ outcome _
      rfl
  | cons i rest inductionHypothesis =>
      intro returns outcome grown
      have returnsRest :
          ∀ {next : Bool × (V → Bool)},
            (next.1 = false → ∀ v, base v = true → next.2 v = true) →
            rest.foldlM (tryNextWithin edge start within) next =
              some (rest.foldl (tryNext edge start branch) next) :=
        inductionHypothesis fun v member =>
          returns v (List.mem_cons_of_mem i member)
      rw [List.foldlM_cons, List.foldl_cons, tryNextWithin, tryNext]
      by_cases found : outcome.1 = true
      · rw [if_pos found, if_pos found]
        exact returnsRest grown
      · have notFound : outcome.1 = false := by simpa using found
        rw [if_neg found, if_neg found]
        by_cases enters : (edge start i && !outcome.2 i) = true
        · have fresh : outcome.2 i = false := by
            simp only [Bool.and_eq_true, Bool.not_eq_true'] at enters
            exact enters.2
          obtain ⟨result, grows⟩ :=
            returns i List.mem_cons_self (grown notFound) fresh
          rw [if_pos enters, if_pos enters, result]
          exact returnsRest fun failed v isMarked =>
            grows failed v (grown notFound v isMarked)
        · rw [if_neg enters, if_neg enters]
          exact returnsRest grown

/-- The recursion goes no deeper than there are unmarked vertices. -/
theorem searchWithin_eq_search
    {target : V}
    {depth : Nat} :
    ∀ {start : V} {marked : V → Bool},
      start ∈ vertices →
      marked start = false →
      unmarked vertices marked ≤ depth →
      searchWithin edge vertices target depth start marked =
        some (search edge vertices target depth start marked) := by
  induction depth with
  | zero =>
      intro start marked listed fresh enough
      have positive := unmarked_mark_lt listed fresh
      omega
  | succ depth inductionHypothesis =>
      intro start marked listed fresh enough
      rw [searchWithin, search]
      by_cases isTarget : start = target
      · rw [if_pos isTarget, if_pos isTarget]
      · rw [if_neg isTarget, if_neg isTarget]
        have fewer := unmarked_mark_lt listed fresh
        refine foldlM_tryNextWithin ?_ (fun _ _ isMarked => isMarked)
        intro i iListed before grown iFresh
        have remaining :
            unmarked vertices before ≤
              unmarked vertices (mark marked start) :=
          unmarked_le grown
        have outcome :
            Outcome edge vertices target i before
              (search edge vertices target depth i before) :=
          search_spec iListed iFresh (by omega)
        exact ⟨inductionHypothesis iListed iFresh (by omega),
          fun failed => (outcome.failed failed).1.grows⟩

/-- A loop that succeeds does so with branches that have more results. -/
theorem foldlM_eq_some_mono
    {State Item : Type*}
    {first second : State → Item → Option State}
    (extended :
      ∀ {state item next},
        first state item = some next → second state item = some next)
    {items : List Item} :
    ∀ {state final : State},
      items.foldlM first state = some final →
      items.foldlM second state = some final := by
  induction items with
  | nil =>
      intro state final ended
      exact ended
  | cons item rest inductionHypothesis =>
      intro state final ended
      rw [List.foldlM_cons] at ended ⊢
      obtain ⟨next, stepped, continued⟩ := Option.bind_eq_some_iff.mp ended
      exact Option.bind_eq_some_iff.mpr
        ⟨next, extended stepped, inductionHypothesis continued⟩

/-- A deeper bound does not change a result. -/
theorem searchWithin_succ
    {target : V}
    {depth : Nat} :
    ∀ {start : V} {marked : V → Bool} {result : Bool × (V → Bool)},
      searchWithin edge vertices target depth start marked = some result →
      searchWithin edge vertices target (depth + 1) start marked =
        some result := by
  induction depth with
  | zero =>
      intro start marked result returned
      cases returned
  | succ depth inductionHypothesis =>
      intro start marked result returned
      rw [searchWithin] at returned ⊢
      by_cases isTarget : start = target
      · rw [if_pos isTarget] at returned ⊢
        exact returned
      · rw [if_neg isTarget] at returned ⊢
        refine foldlM_eq_some_mono ?_ returned
        intro outcome i next tried
        rw [tryNextWithin] at tried ⊢
        by_cases found : outcome.1 = true
        · rw [if_pos found] at tried ⊢
          exact tried
        · rw [if_neg found] at tried ⊢
          by_cases enters : (edge start i && !outcome.2 i) = true
          · rw [if_pos enters] at tried ⊢
            exact inductionHypothesis tried
          · rw [if_neg enters] at tried ⊢
            exact tried

/--
From an unmarked vertex the recursion ends at every depth that is not below
the number of unmarked vertices, with the same result.
-/
theorem searchWithin_of_le
    {target start : V}
    {marked : V → Bool}
    {depth deeper : Nat}
    (listed : start ∈ vertices)
    (fresh : marked start = false)
    (enough : unmarked vertices marked ≤ depth)
    (isDeeper : depth ≤ deeper) :
    searchWithin edge vertices target deeper start marked =
      some (search edge vertices target depth start marked) := by
  induction isDeeper with
  | refl =>
      exact searchWithin_eq_search listed fresh enough
  | step _ inductionHypothesis =>
      exact searchWithin_succ inductionHypothesis

/-! ## Ways as lists -/

omit [DecidableEq V] in
/-- A way from an unblocked vertex is a list of unblocked vertices. -/
theorem reaches_iff_exists_path
    {blocked : V → Bool}
    {start target : V}
    (listed : start ∈ vertices)
    (unblocked : blocked start = false) :
    Reaches edge vertices blocked start target ↔
      ∃ path : List V,
        path.head? = some start ∧ path.getLast? = some target ∧
          path.IsChain (fun a b => edge a b = true) ∧
          ∀ v ∈ path, v ∈ vertices ∧ blocked v = false := by
  constructor
  · intro way
    induction way with
    | refl =>
        exact ⟨[start], rfl, rfl, List.isChain_singleton start,
          by simp [listed, unblocked]⟩
    | @tail b c _ step inductionHypothesis =>
        obtain ⟨path, first, last, linked, clear⟩ := inductionHypothesis
        have joined : ∀ a ∈ path.getLast?, edge a c = true := by
          intro a isLast
          obtain rfl : b = a := by simpa [last] using isLast
          exact step.1
        refine ⟨path ++ [c], ?_, by simp, ?_, ?_⟩
        · rw [List.head?_append, first]
          rfl
        · rw [List.isChain_append]
          exact ⟨linked, List.isChain_singleton c, by simpa using joined⟩
        · intro v member
          rcases List.mem_append.mp member with earlier | isLast
          · exact clear v earlier
          · rw [List.mem_singleton.mp isLast]
            exact step.2
  · rintro ⟨path, first, last, linked, clear⟩
    cases path with
    | nil =>
        cases first
    | cons head rest =>
        obtain rfl : head = start := by simpa using first
        refine List.relationReflTransGen_of_exists_isChain_cons rest ?_ ?_
        · refine linked.imp_of_mem_imp ?_
          intro a b _ bListed isEdge
          exact ⟨isEdge, (clear b bListed).1, (clear b bListed).2⟩
        · rw [List.getLast?_eq_some_getLast (List.cons_ne_nil head rest)] at last
          exact Option.some.inj last

end GuardedSearch
