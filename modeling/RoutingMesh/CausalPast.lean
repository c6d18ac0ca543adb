import Mathlib.Data.List.Basic

/-!
# Who has heard of whom

Processes broadcast messages and receive them, in one order of events; a
message is known by the number of broadcasts before it.  A process has heard
of another one when messages lead from there to it, each of them broadcast
after the one before was received.  Nothing here refers to what the messages
say, or to a particular protocol.
-/

namespace CausalPast

/-- A broadcast, the arrival of a message, or a step inside a process. -/
inductive Event (Process : Type*) where
  | broadcast (sender : Process)
  | receive (message : Nat) (receiver : Process)
  | inside (process : Process)

variable {Process : Type*}

/-- How many messages some events broadcast. -/
def broadcasts (events : List (Event Process)) : Nat :=
  events.countP fun
    | .broadcast _ => true
    | _ => false

theorem broadcasts_concat
    (events : List (Event Process))
    (event : Event Process) :
    broadcasts (events ++ [event]) =
      broadcasts events +
        match event with
        | .broadcast _ => 1
        | _ => 0 := by
  rw [broadcasts, List.countP_append]
  cases event <;> rfl

/--
A process has heard of itself, and of what the sender of a message that it
received had heard of when it sent the message.
-/
inductive HeardOf
    (source : Process) : List (Event Process) → Process → Prop where
  | itself (events : List (Event Process)) :
      HeardOf source events source
  | received
      {before between after : List (Event Process)}
      {sender receiver : Process}
      (known : HeardOf source before sender) :
      HeardOf source
        (before ++ .broadcast sender :: between ++
          .receive (broadcasts before) receiver :: after)
        receiver

/-- The sender of a message had heard of the source. -/
def Carries
    (source : Process)
    (events : List (Event Process))
    (message : Nat) : Prop :=
  ∃ before sender after,
    events = before ++ .broadcast sender :: after ∧
      broadcasts before = message ∧
      HeardOf source before sender

section

variable {source process : Process}
variable {events : List (Event Process)}
variable {event : Event Process}
variable {message : Nat}

/-- A process has heard of others by the messages that it received. -/
theorem heardOf_iff :
    HeardOf source events process ↔
      process = source ∨
        ∃ before message after,
          events = before ++ .receive message process :: after ∧
            Carries source before message := by
  constructor
  · intro heard
    cases heard with
    | itself =>
        exact .inl rfl
    | @received before between after sender _ known =>
        exact .inr ⟨before ++ .broadcast sender :: between,
          broadcasts before, after, rfl,
          before, sender, between, rfl, rfl, known⟩
  · rintro (rfl | ⟨_, _, after, rfl, before, sender, between, rfl, rfl,
      known⟩)
    · exact .itself events
    · exact .received known

/-- A list with a last element splits at that element or before it. -/
private theorem concat_eq_append_cons_iff
    {α : Type*}
    {items before after : List α}
    {last item : α} :
    items ++ [last] = before ++ item :: after ↔
      (∃ rest, after = rest ++ [last] ∧ items = before ++ item :: rest) ∨
        (after = [] ∧ before = items ∧ item = last) := by
  constructor
  · intro same
    rcases List.eq_nil_or_concat' after with rfl | ⟨rest, final, rfl⟩
    · obtain ⟨sameItems, sameLast⟩ := List.append_inj' same rfl
      exact .inr ⟨rfl, sameItems.symm, (List.singleton_inj.mp sameLast).symm⟩
    · rw [← List.cons_append, ← List.append_assoc] at same
      obtain ⟨sameItems, sameLast⟩ := List.append_inj' same rfl
      rw [List.singleton_inj.mp sameLast]
      exact .inl ⟨rest, rfl, sameItems⟩
  · rintro (⟨rest, rfl, rfl⟩ | ⟨rfl, rfl, rfl⟩)
    · rw [List.append_assoc, List.cons_append]
    · rfl

/-- The last event carries news if it is a broadcast of a process with news. -/
theorem carries_concat :
    Carries source (events ++ [event]) message ↔
      Carries source events message ∨
        ∃ sender,
          event = .broadcast sender ∧
            broadcasts events = message ∧
            HeardOf source events sender := by
  constructor
  · rintro ⟨before, sender, after, isSplit, isNumber, known⟩
    rcases concat_eq_append_cons_iff.mp isSplit with
      ⟨rest, rfl, rfl⟩ | ⟨rfl, rfl, rfl⟩
    · exact .inl ⟨before, sender, rest, rfl, isNumber, known⟩
    · exact .inr ⟨sender, rfl, isNumber, known⟩
  · rintro (⟨before, sender, after, rfl, isNumber, known⟩ |
      ⟨sender, rfl, isNumber, known⟩)
    · exact ⟨before, sender, after ++ [event], by simp, isNumber, known⟩
    · exact ⟨events, sender, [], rfl, isNumber, known⟩

/-- The last event brings news to the process that receives a message of news. -/
theorem heardOf_concat :
    HeardOf source (events ++ [event]) process ↔
      HeardOf source events process ∨
        ∃ message,
          event = .receive message process ∧
            Carries source events message := by
  rw [heardOf_iff, heardOf_iff]
  constructor
  · rintro (isSource | ⟨before, message, after, isSplit, carries⟩)
    · exact .inl (.inl isSource)
    · rcases concat_eq_append_cons_iff.mp isSplit with
        ⟨rest, rfl, rfl⟩ | ⟨rfl, rfl, rfl⟩
      · exact .inl (.inr ⟨before, message, rest, rfl, carries⟩)
      · exact .inr ⟨message, rfl, carries⟩
  · rintro ((isSource | ⟨before, message, after, rfl, carries⟩) |
      ⟨message, rfl, carries⟩)
    · exact .inl isSource
    · exact .inr ⟨before, message, after ++ [event], by simp, carries⟩
    · exact .inr ⟨events, message, [], rfl, carries⟩

/-- The messages broadcast so far carry what they did. -/
theorem carries_concat_of_lt
    (sentBefore : message < broadcasts events) :
    Carries source (events ++ [event]) message ↔
      Carries source events message := by
  rw [carries_concat, or_iff_left]
  rintro ⟨sender, _, isNumber, _⟩
  exact Nat.ne_of_gt sentBefore isNumber

/-- A new message carries what its sender has heard of. -/
theorem carries_broadcasts
    {sender : Process} :
    Carries source (events ++ [.broadcast sender]) (broadcasts events) ↔
      HeardOf source events sender := by
  rw [carries_concat, or_iff_right]
  · simp
  · -- The messages so far have smaller numbers.
    rintro ⟨before, other, after, isSplit, isNumber, _⟩
    rw [isSplit] at isNumber
    simp [broadcasts, List.countP_append] at isNumber

end

end CausalPast
