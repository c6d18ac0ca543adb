import Mathlib.Algebra.Order.Group.Defs
import Mathlib.Algebra.Order.Sub.Basic
import RoutingMesh.StepRun

/-!
# Leases

A lease is stamped with a time, and holds the latest of its stamps until an
expiry finds it too old.  Whether there is a lease is read off the events
alone: some stamp must have outlasted every expiry after it.
-/

namespace Lease

variable {Time : Type*} [AddCommGroup Time] [LinearOrder Time]

/-- A stamp, or an expiry at a time. -/
inductive Event (Time : Type*) where
  | stamp (stampedAt : Time)
  | expire (now : Time)

/-- One event: a lease is stamped, or ends when it is too old. -/
def step (ttl : Time) (lease : Option Time) : Event Time → Option Time
  | .stamp stampedAt =>
      match lease with
      | none => some stampedAt
      | some held => some (max held stampedAt)
  | .expire now => lease.filter fun held => decide (now - held < ttl)

@[simp]
theorem step_stamp_none (ttl stampedAt : Time) :
    step ttl none (.stamp stampedAt) = some stampedAt :=
  rfl

@[simp]
theorem step_stamp_some (ttl held stampedAt : Time) :
    step ttl (some held) (.stamp stampedAt) = some (max held stampedAt) :=
  rfl

@[simp]
theorem step_expire_none (ttl now : Time) :
    step ttl none (.expire now) = none :=
  rfl

@[simp]
theorem step_expire_some (ttl held now : Time) :
    step ttl (some held) (.expire now) =
      if now - held < ttl then some held else none := by
  by_cases young : now - held < ttl
  · simp [step, young]
  · simp [step, not_lt.mp young, young]

/-- A stamp is young enough at every expiry of some events. -/
def Outlasts
    (ttl stampedAt : Time)
    (events : List (Event Time)) : Prop :=
  ∀ now, .expire now ∈ events → now - stampedAt < ttl

variable {ttl stampedAt held : Time}
variable {events : List (Event Time)}

theorem outlasts_append
    {more : List (Event Time)} :
    Outlasts ttl stampedAt (events ++ more) ↔
      Outlasts ttl stampedAt events ∧ Outlasts ttl stampedAt more := by
  unfold Outlasts
  simp only [List.mem_append, or_imp, forall_and]

/-- A lease that there is was stamped, and outlasted every expiry since. -/
theorem exists_stamp
    (isHeld : events.foldl (step ttl) none = some held) :
    ∃ older newer,
      events = older ++ .stamp held :: newer ∧ Outlasts ttl held newer := by
  induction events using List.reverseRecOn generalizing held with
  | nil =>
      cases isHeld
  | append_singleton rest last inductionHypothesis =>
      rw [List.foldl_append] at isHeld
      -- What was held before the last event and still is.
      have carried :
          rest.foldl (step ttl) none = some held →
            Outlasts ttl held [last] →
            ∃ older newer,
              rest ++ [last] = older ++ .stamp held :: newer ∧
                Outlasts ttl held newer := by
        intro before outlastsLast
        obtain ⟨older, newer, rfl, outlasts⟩ := inductionHypothesis before
        refine ⟨older, newer ++ [last], by simp, ?_⟩
        exact outlasts_append.mpr ⟨outlasts, outlastsLast⟩
      have stampedLast :
          last = .stamp held →
            ∃ older newer,
              rest ++ [last] = older ++ .stamp held :: newer ∧
                Outlasts ttl held newer := by
        rintro rfl
        exact ⟨rest, [], rfl, by simp [Outlasts]⟩
      cases last with
      | stamp again =>
          cases before : rest.foldl (step ttl) none with
          | none =>
              rw [before] at isHeld
              exact stampedLast (congrArg _ (Option.some.inj isHeld))
          | some earlier =>
              rw [before] at isHeld
              have isMax : max earlier again = held := Option.some.inj isHeld
              rcases max_choice earlier again with older | newer
              · refine carried ?_ (by simp [Outlasts])
                rw [before, ← older, isMax]
              · exact stampedLast (by rw [← newer, isMax])
      | expire now =>
          obtain ⟨before, young⟩ := Option.filter_eq_some_iff.mp isHeld
          refine carried before fun other listed => ?_
          obtain rfl : other = now := by
            simpa using listed
          exact of_decide_eq_true young

variable [IsOrderedAddMonoid Time]

/-- As long as a stamp outlasts the expiries, there is a lease not before it. -/
theorem exists_le_of_outlasts
    (notBefore : stampedAt ≤ held)
    (outlasts : Outlasts ttl stampedAt events) :
    ∃ later, stampedAt ≤ later ∧
      events.foldl (step ttl) (some held) = some later := by
  induction events generalizing held with
  | nil =>
      exact ⟨held, notBefore, rfl⟩
  | cons event rest inductionHypothesis =>
      have restOutlasts : Outlasts ttl stampedAt rest :=
        fun now listed => outlasts now (List.mem_cons_of_mem _ listed)
      cases event with
      | stamp again =>
          exact inductionHypothesis (notBefore.trans (le_max_left _ _))
            restOutlasts
      | expire now =>
          have young : now - held < ttl :=
            (sub_le_sub_left notBefore now).trans_lt
              (outlasts now List.mem_cons_self)
          rw [List.foldl_cons, step_expire_some, if_pos young]
          exact inductionHypothesis notBefore restOutlasts

/-- There is a lease exactly when a stamp outlasted every expiry after it. -/
theorem isSome_iff :
    (events.foldl (step ttl) none).isSome ↔
      ∃ older stampedAt newer,
        events = older ++ .stamp stampedAt :: newer ∧
          Outlasts ttl stampedAt newer := by
  constructor
  · intro isHeld
    obtain ⟨held, isLease⟩ := Option.isSome_iff_exists.mp isHeld
    obtain ⟨older, newer, split, outlasts⟩ := exists_stamp isLease
    exact ⟨older, held, newer, split, outlasts⟩
  · rintro ⟨older, stampedAt, newer, rfl, outlasts⟩
    rw [List.foldl_append, List.foldl_cons]
    cases older.foldl (step ttl) none with
    | none =>
        obtain ⟨later, _, isLater⟩ := exists_le_of_outlasts le_rfl outlasts
        rw [step_stamp_none, isLater]
        rfl
    | some earlier =>
        obtain ⟨later, _, isLater⟩ :=
          exists_le_of_outlasts (le_max_right earlier stampedAt) outlasts
        rw [step_stamp_some, isLater]
        rfl

/--
The actions of a system record events: there is a lease exactly when one of
them recorded a stamp that outlasted everything recorded after it.
-/
theorem isSome_trace_iff
    {State Action : Type*}
    {systemStep : State → Action → State}
    {record : State → Action → List (Event Time)}
    {start : State}
    {actions : List Action} :
    ((StepRun.trace systemStep record start actions).foldl (step ttl)
        none).isSome ↔
      ∃ before action after first stampedAt last,
        actions = before ++ action :: after ∧
          record (before.foldl systemStep start) action =
            first ++ .stamp stampedAt :: last ∧
          Outlasts ttl stampedAt
            (last ++
              StepRun.trace systemStep record
                (systemStep (before.foldl systemStep start) action) after) := by
  rw [isSome_iff]
  constructor
  · rintro ⟨older, stampedAt, newer, split, outlasts⟩
    obtain ⟨before, action, after, first, last, isSplit, isRecord, _, rfl⟩ :=
      StepRun.trace_eq_append_cons_iff.mp split
    exact ⟨before, action, after, first, stampedAt, last, isSplit, isRecord,
      outlasts⟩
  · rintro ⟨before, action, after, first, stampedAt, last, isSplit, isRecord,
      outlasts⟩
    exact ⟨_, stampedAt, _,
      StepRun.trace_eq_append_cons_iff.mpr
        ⟨before, action, after, first, last, isSplit, isRecord, rfl, rfl⟩,
      outlasts⟩

end Lease
