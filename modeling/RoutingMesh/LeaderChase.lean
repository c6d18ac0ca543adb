import Mathlib.Algebra.Order.Ring.Cast
import Mathlib.Data.Finset.Card
import Mathlib.Tactic.Linarith
import Mathlib.Tactic.Push

/-!
# Agents that follow a leader

Agents on a line move forward, one at a time.  An agent that has not passed
the leader may jump at most a slack beyond every position there is; one that
has passed it stays.  Each agent then passes the leader at most once, so all
of them remain within one slack for each agent of it.
-/

namespace LeaderChase

variable {Agent Place : Type*} [LinearOrder Place]
variable {agents : Finset Agent}
variable {leader slack : Place}
variable {position : Agent → Place}

/-- The agents that have passed the leader. -/
def ahead
    (agents : Finset Agent)
    (leader : Place)
    (position : Agent → Place) : Finset Agent :=
  agents.filter fun agent => leader < position agent

theorem card_ahead_le : (ahead agents leader position).card ≤ agents.card :=
  Finset.card_filter_le _ _

section

variable [DecidableEq Agent]

/-- An agent that passes the leader is counted from then on. -/
theorem ahead_update_of_lt
    {agent : Agent}
    {next : Place}
    (member : agent ∈ agents)
    (passes : leader < next) :
    ahead agents leader (Function.update position agent next) =
      insert agent (ahead agents leader position) := by
  ext other
  by_cases same : other = agent
  · subst same
    simp [ahead, member, passes]
  · simp [ahead, same]

/-- One that was not counted and does not pass the leader changes nothing. -/
theorem ahead_update_of_le
    {agent : Agent}
    {next : Place}
    (behind : position agent ≤ leader)
    (stays : next ≤ leader) :
    ahead agents leader (Function.update position agent next) =
      ahead agents leader position := by
  ext other
  by_cases same : other = agent
  · subst same
    simp [ahead, not_lt.mpr behind, not_lt.mpr stays]
  · simp [ahead, same]

end

variable [CommRing Place]

/-- Each agent that passed the leader accounts for one slack. -/
def Bounded
    (agents : Finset Agent)
    (leader slack : Place)
    (position : Agent → Place) : Prop :=
  ∀ agent ∈ agents,
    position agent ≤ leader + (ahead agents leader position).card * slack

variable [IsStrictOrderedRing Place]

theorem bounded_of_le
    (slackNonneg : 0 ≤ slack)
    (behind : ∀ agent ∈ agents, position agent ≤ leader) :
    Bounded agents leader slack position := by
  intro agent member
  have more : 0 ≤ ((ahead agents leader position).card : Place) * slack :=
    mul_nonneg (Nat.cast_nonneg _) slackNonneg
  linarith [behind agent member]

/-- All agents are within one slack for each agent of the leader. -/
theorem Bounded.le_limit
    (bounded : Bounded agents leader slack position)
    (slackNonneg : 0 ≤ slack)
    {agent : Agent}
    (member : agent ∈ agents) :
    position agent ≤ leader + agents.card * slack := by
  have counted :
      ((ahead agents leader position).card : Place) ≤ agents.card := by
    exact_mod_cast card_ahead_le
  exact (bounded agent member).trans
    (add_le_add_right (mul_le_mul_of_nonneg_right counted slackNonneg) _)

/-- A jump of at most one slack beyond the bound keeps it. -/
theorem Bounded.update
    [DecidableEq Agent]
    (bounded : Bounded agents leader slack position)
    (slackNonneg : 0 ≤ slack)
    {agent : Agent}
    {next : Place}
    (member : agent ∈ agents)
    (behind : position agent ≤ leader)
    (near :
      next ≤
        leader + (ahead agents leader position).card * slack + slack) :
    Bounded agents leader slack (Function.update position agent next) := by
  rcases le_or_gt next leader with stays | passes
  · have sameAhead :
        ahead agents leader (Function.update position agent next) =
          ahead agents leader position :=
      ahead_update_of_le behind stays
    intro other otherMember
    rw [sameAhead]
    by_cases same : other = agent
    · rw [same, Function.update_self]
      have more : 0 ≤ ((ahead agents leader position).card : Place) * slack :=
        mul_nonneg (Nat.cast_nonneg _) slackNonneg
      linarith
    · rw [Function.update_of_ne same]
      exact bounded other otherMember
  · have notCounted : agent ∉ ahead agents leader position := by
      simp [ahead, not_lt.mpr behind]
    have counted :
        ((ahead agents leader (Function.update position agent next)).card :
            Place) =
          (ahead agents leader position).card + 1 := by
      rw [ahead_update_of_lt member passes,
        Finset.card_insert_of_notMem notCounted]
      push_cast
      rfl
    intro other otherMember
    rw [counted, add_mul, one_mul, ← add_assoc]
    by_cases same : other = agent
    · rw [same, Function.update_self]
      exact near
    · rw [Function.update_of_ne same]
      linarith [bounded other otherMember]

end LeaderChase
