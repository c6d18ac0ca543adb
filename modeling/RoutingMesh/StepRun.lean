import Mathlib.Data.List.Induction

/-!
# Finite runs of a deterministic step function

A system is given by a total step function and by a predicate that says which
actions its environment may take in a state.  A run records its actions in
execution order.  Nothing here refers to a particular system: invariants,
prefixes of runs and executable run checking are stated once for every instance.
-/

namespace StepRun

/-- A run from `initial`: every action was enabled in the state it was taken in. -/
inductive Run
    {State Action : Type*}
    (step : State → Action → State)
    (enabled : State → Action → Prop)
    (initial : State) :
    List Action → State → Prop where
  | start :
      Run step enabled initial [] initial
  | next
      {actions : List Action}
      {state : State}
      (action : Action)
      (earlier : Run step enabled initial actions state)
      (allowed : enabled state action) :
      Run step enabled initial (actions ++ [action]) (step state action)

/-- A state is reachable when some run ends in it. -/
def Reachable
    {State Action : Type*}
    (step : State → Action → State)
    (enabled : State → Action → Prop)
    (initial state : State) : Prop :=
  ∃ actions, Run step enabled initial actions state

variable {State Action : Type*}
variable {step : State → Action → State}
variable {enabled : State → Action → Prop}
variable {initial : State}

namespace Run

/-- The step function determines the final state of a run. -/
theorem final_eq_foldl
    {actions : List Action}
    {state : State}
    (run : Run step enabled initial actions state) :
    state = actions.foldl step initial := by
  induction run with
  | start =>
      rfl
  | next action earlier allowed inductionHypothesis =>
      rw [List.foldl_append, ← inductionHypothesis]
      rfl

/-- A state property that holds initially and is kept by enabled steps holds finally. -/
theorem invariant
    (holds : State → Prop)
    (base : holds initial)
    (preserved :
      ∀ {state action},
        holds state →
        enabled state action →
        holds (step state action))
    {actions : List Action}
    {state : State}
    (run : Run step enabled initial actions state) :
    holds state := by
  induction run with
  | start =>
      exact base
  | next action earlier allowed inductionHypothesis =>
      exact preserved inductionHypothesis allowed

/-- A run is one of every environment that allows more. -/
theorem mono
    {more : State → Action → Prop}
    (allows : ∀ state action, enabled state action → more state action)
    {actions : List Action}
    {state : State}
    (run : Run step enabled initial actions state) :
    Run step more initial actions state := by
  induction run with
  | start =>
      exact .start
  | next action earlier allowed inductionHypothesis =>
      exact .next action inductionHypothesis (allows _ _ allowed)

/--
Where a relation carries every step over to a step of another system, a run of
the one is a run of the other.
-/
theorem simulates
    {Other OtherAction : Type*}
    {otherStep : Other → OtherAction → Other}
    {otherEnabled : Other → OtherAction → Prop}
    {otherInitial : Other}
    (related : State → Other → Prop)
    (translate : Action → OtherAction)
    (base : related initial otherInitial)
    (carries :
      ∀ {state other action},
        related state other →
        Reachable otherStep otherEnabled otherInitial other →
        enabled state action →
        otherEnabled other (translate action) ∧
          related (step state action) (otherStep other (translate action)))
    {actions : List Action}
    {state : State}
    (run : Run step enabled initial actions state) :
    ∃ other,
      Run otherStep otherEnabled otherInitial (actions.map translate) other ∧
        related state other := by
  induction run with
  | start =>
      exact ⟨otherInitial, .start, base⟩
  | next action earlier allowed inductionHypothesis =>
      obtain ⟨other, otherRun, same⟩ := inductionHypothesis
      obtain ⟨otherAllowed, stepped⟩ := carries same ⟨_, otherRun⟩ allowed
      refine ⟨otherStep other (translate action), ?_, stepped⟩
      rw [List.map_append, List.map_singleton]
      exact .next (translate action) otherRun otherAllowed

/-- The last action of a run was enabled in the state that the others lead to. -/
theorem last_step
    {actions : List Action}
    {action : Action}
    {state : State}
    (run : Run step enabled initial (actions ++ [action]) state) :
    ∃ before,
      Run step enabled initial actions before ∧
        enabled before action ∧
        state = step before action := by
  generalize shape : actions ++ [action] = all at run
  cases run with
  | start =>
      simp at shape
  | next last earlier allowed =>
      obtain ⟨rfl, sameLast⟩ := List.append_inj' shape rfl
      obtain rfl : action = last := by
        simpa using sameLast
      exact ⟨_, earlier, allowed, rfl⟩

/-- The first part of a run is a run to the intermediate state. -/
theorem of_append
    {leading trailing : List Action}
    {state : State}
    (run : Run step enabled initial (leading ++ trailing) state) :
    Run step enabled initial leading (leading.foldl step initial) := by
  induction trailing using List.reverseRecOn generalizing state with
  | nil =>
      rw [List.append_nil] at run
      rw [← run.final_eq_foldl]
      exact run
  | append_singleton rest last inductionHypothesis =>
      rw [← List.append_assoc] at run
      obtain ⟨before, earlier, _, _⟩ := run.last_step
      exact inductionHypothesis earlier

end Run

/-- Every state that a list of actions leads through is good. -/
def Throughout
    (step : State → Action → State)
    (initial : State)
    (good : State → Prop)
    (actions : List Action) : Prop :=
  ∀ leading, leading <+: actions → good (leading.foldl step initial)

/-- Every action of a list is safe in the state it is taken in. -/
def EachStep
    (step : State → Action → State)
    (initial : State)
    (safe : State → Action → Prop)
    (actions : List Action) : Prop :=
  ∀ leading action, leading ++ [action] <+: actions →
    safe (leading.foldl step initial) action

/-- What the actions of a list record, each in the state it is taken in. -/
def trace
    {Event : Type*}
    (step : State → Action → State)
    (record : State → Action → List Event) :
    State → List Action → List Event
  | _, [] => []
  | state, action :: rest =>
      record state action ++ trace step record (step state action) rest

/-- The last action records in the state that the others lead to. -/
theorem trace_append_singleton
    {Event : Type*}
    (record : State → Action → List Event)
    (state : State)
    (actions : List Action)
    (action : Action) :
    trace step record state (actions ++ [action]) =
      trace step record state actions ++
        record (actions.foldl step state) action := by
  induction actions generalizing state with
  | nil =>
      simp [trace]
  | cons first rest inductionHypothesis =>
      rw [List.cons_append, trace, trace, inductionHypothesis,
        List.append_assoc]
      rfl

/-- What a list of actions records, part by part. -/
theorem trace_append
    {Event : Type*}
    (record : State → Action → List Event)
    (state : State)
    (actions more : List Action) :
    trace step record state (actions ++ more) =
      trace step record state actions ++
        trace step record (actions.foldl step state) more := by
  induction actions generalizing state with
  | nil =>
      rfl
  | cons first rest inductionHypothesis =>
      rw [List.cons_append, trace, trace, inductionHypothesis,
        List.append_assoc]
      rfl

/-- An event of a trace was recorded by one of the actions. -/
theorem trace_eq_append_cons_iff
    {Event : Type*}
    {record : State → Action → List Event}
    {state : State}
    {actions : List Action}
    {older newer : List Event}
    {event : Event} :
    trace step record state actions = older ++ event :: newer ↔
      ∃ before action after first last,
        actions = before ++ action :: after ∧
          record (before.foldl step state) action = first ++ event :: last ∧
          older = trace step record state before ++ first ∧
          newer =
            last ++
              trace step record
                (step (before.foldl step state) action) after := by
  constructor
  · intro recorded
    induction actions generalizing state older with
    | nil =>
        simp [trace] at recorded
    | cons head rest inductionHypothesis =>
        rw [trace] at recorded
        rcases List.append_eq_append_iff.mp recorded with
          ⟨more, isOlder, isRest⟩ | ⟨more, isFirst, isNewer⟩
        · obtain ⟨before, action, after, first, last, rfl, isRecord, rfl,
            isNewer⟩ := inductionHypothesis isRest
          refine ⟨head :: before, action, after, first, last, rfl, isRecord, ?_,
            isNewer⟩
          rw [isOlder, trace, List.append_assoc]
        · cases more with
          | nil =>
              rw [List.append_nil] at isFirst
              rw [List.nil_append] at isNewer
              obtain ⟨before, action, after, first, last, rfl, isRecord,
                isOlder, isLast⟩ :=
                @inductionHypothesis (step state head) [] isNewer.symm
              obtain ⟨noneBefore, rfl⟩ := List.append_eq_nil_iff.mp isOlder.symm
              refine ⟨head :: before, action, after, [], last, rfl, isRecord, ?_,
                isLast⟩
              rw [trace, noneBefore, List.append_nil, List.append_nil, isFirst]
          | cons next others =>
              rw [List.cons_append] at isNewer
              obtain ⟨rfl, rfl⟩ := List.cons.inj isNewer
              exact ⟨[], head, rest, older, others, rfl, isFirst, rfl, rfl⟩
  · rintro ⟨before, action, after, first, last, rfl, isRecord, rfl, rfl⟩
    rw [trace_append, trace, isRecord]
    simp

/-- An event of a trace was recorded by one of the actions. -/
theorem exists_of_mem_trace
    {Event : Type*}
    {record : State → Action → List Event}
    {state : State}
    {actions : List Action}
    {event : Event}
    (listed : event ∈ trace step record state actions) :
    ∃ leading action,
      leading ++ [action] <+: actions ∧
        event ∈ record (leading.foldl step state) action := by
  obtain ⟨older, newer, shape⟩ := List.append_of_mem listed
  obtain ⟨before, action, after, first, last, rfl, isRecord, -, -⟩ :=
    trace_eq_append_cons_iff.mp shape
  refine ⟨before, action, ⟨after, by simp⟩, ?_⟩
  rw [isRecord]
  simp

/-- The invariant rule for a state together with what a run recorded. -/
theorem Run.invariant_trace
    {Event : Type*}
    {record : State → Action → List Event}
    (holds : List Event → State → Prop)
    (base : holds [] initial)
    (preserved :
      ∀ {events state action},
        holds events state →
        enabled state action →
        holds (events ++ record state action) (step state action))
    {actions : List Action}
    {state : State}
    (run : Run step enabled initial actions state) :
    holds (trace step record initial actions) state := by
  induction run with
  | start =>
      exact base
  | next action earlier allowed inductionHypothesis =>
      rw [trace_append_singleton, ← earlier.final_eq_foldl]
      exact preserved inductionHypothesis allowed

/-- A run, its states, and one more action of it. -/
theorem Run.step_before
    {actions leading : List Action}
    {action : Action}
    {state : State}
    (run : Run step enabled initial actions state)
    (isPrefix : leading ++ [action] <+: actions) :
    Run step enabled initial leading (leading.foldl step initial) ∧
      enabled (leading.foldl step initial) action := by
  obtain ⟨trailing, rfl⟩ := isPrefix
  obtain ⟨before, earlier, allowed, _⟩ := run.of_append.last_step
  rw [← earlier.final_eq_foldl]
  exact ⟨earlier, allowed⟩

/--
The states of a run are good exactly when its steps are safe: safe steps keep
an invariant that makes states good, and an unsafe one leaves no good state.
-/
theorem Run.throughout_iff_eachStep
    (holds kept : State → Prop)
    {good : State → Prop}
    {safe : State → Action → Prop}
    (base : holds initial)
    (preserved :
      ∀ {state action}, holds state → enabled state action →
        holds (step state action))
    (keptBase : kept initial)
    (keeps :
      ∀ {state action}, holds state → kept state → enabled state action →
        safe state action → kept (step state action))
    (isGood : ∀ {state}, holds state → kept state → good state)
    (breaks :
      ∀ {state action}, holds state → enabled state action →
        ¬ safe state action → ¬ good (step state action))
    {actions : List Action}
    {state : State}
    (run : Run step enabled initial actions state) :
    Throughout step initial good actions ↔
      EachStep step initial safe actions := by
  constructor
  · intro allGood leading action isPrefix
    obtain ⟨earlier, allowed⟩ := run.step_before isPrefix
    by_contra notSafe
    refine breaks (earlier.invariant holds base preserved) allowed notSafe ?_
    have after := allGood _ isPrefix
    rwa [List.foldl_append] at after
  · intro allSafe leading isPrefix
    have carried :
        holds (leading.foldl step initial) ∧
          kept (leading.foldl step initial) := by
      induction leading using List.reverseRecOn with
      | nil =>
          exact ⟨base, keptBase⟩
      | append_singleton rest last inductionHypothesis =>
          have shorter : rest <+: rest ++ [last] := ⟨[last], rfl⟩
          obtain ⟨holding, keeping⟩ :=
            inductionHypothesis (shorter.trans isPrefix)
          obtain ⟨_, allowed⟩ := run.step_before isPrefix
          rw [List.foldl_append]
          exact ⟨preserved holding allowed,
            keeps holding keeping allowed (allSafe rest last isPrefix)⟩
    exact isGood carried.1 carried.2

namespace Reachable

/-- The invariant rule for reachable states. -/
theorem invariant
    (holds : State → Prop)
    (base : holds initial)
    (preserved :
      ∀ {state action},
        holds state →
        enabled state action →
        holds (step state action))
    {state : State}
    (reachable : Reachable step enabled initial state) :
    holds state := by
  obtain ⟨actions, run⟩ := reachable
  exact run.invariant holds base preserved

end Reachable

/-- Execute a list of actions, checking that each one is enabled. -/
def checkRun
    (step : State → Action → State)
    (enabled : State → Action → Prop)
    [∀ state action, Decidable (enabled state action)] :
    State → List Action → Bool
  | _, [] => true
  | state, action :: rest =>
      decide (enabled state action) &&
        checkRun step enabled (step state action) rest

/-- A list of actions that passes the check extends a run to its folded state. -/
theorem Run.extend_of_checkRun
    [∀ state action, Decidable (enabled state action)]
    {actions : List Action} :
    ∀ {leading : List Action} {state : State},
      Run step enabled initial leading state →
      checkRun step enabled state actions = true →
      Run step enabled initial (leading ++ actions)
        (actions.foldl step state) := by
  induction actions with
  | nil =>
      intro leading state run _
      simpa using run
  | cons action rest inductionHypothesis =>
      intro leading state run checked
      simp only [checkRun, Bool.and_eq_true, decide_eq_true_eq] at checked
      have extended :=
        inductionHypothesis (.next action run checked.1) checked.2
      simpa using extended

/-- A checked list of actions is a run. -/
theorem Run.of_checkRun
    [∀ state action, Decidable (enabled state action)]
    {actions : List Action}
    (checked : checkRun step enabled initial actions = true) :
    Run step enabled initial actions (actions.foldl step initial) := by
  have extended := Run.extend_of_checkRun .start checked
  simpa using extended

end StepRun
