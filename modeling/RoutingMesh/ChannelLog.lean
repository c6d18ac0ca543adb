import Mathlib.Data.List.Count
import Mathlib.Data.List.Flatten
import Mathlib.Data.List.Perm.Subperm

/-!
# Logs of several channels

A log of entries that went on several channels, in one order, and what of it
went on each channel.  One log is part of another, up to order, when it is on
every channel.  Nothing here refers to a particular program.
-/

namespace ChannelLog

section

variable {Channel α β : Type*} [DecidableEq Channel]

/-- What a part of a list is mapped to is a part of what the list is mapped to. -/
theorem subperm_map
    {part whole : List α}
    (isPart : part.Subperm whole)
    (f : α → β) :
    (part.map f).Subperm (whole.map f) := by
  obtain ⟨ordered, isPerm, isSublist⟩ := isPart
  exact ⟨ordered.map f, isPerm.map f, isSublist.map f⟩

/-- The entries of a log that went on one channel. -/
def onChannel
    (log : List (Channel × α))
    (channel : Channel) : List α :=
  (log.filter fun entry => entry.1 == channel).map Prod.snd

theorem onChannel_append
    (log later : List (Channel × α))
    (channel : Channel) :
    onChannel (log ++ later) channel =
      onChannel log channel ++ onChannel later channel := by
  rw [onChannel, List.filter_append, List.map_append]
  rfl

theorem onChannel_concat
    (log : List (Channel × α))
    (entry : Channel × α)
    (channel : Channel) :
    onChannel (log ++ [entry]) channel =
      if entry.1 = channel then
        onChannel log channel ++ [entry.2]
      else
        onChannel log channel := by
  by_cases isChannel : entry.1 = channel <;>
    simp [onChannel, isChannel]

/-- A log of one channel. -/
theorem onChannel_map_mk
    (items : List α)
    (other channel : Channel) :
    onChannel (items.map (Prod.mk other)) channel =
      if other = channel then items else [] := by
  induction items with
  | nil =>
      simp [onChannel]
  | cons item rest inductionHypothesis =>
      by_cases isChannel : other = channel <;>
        simp_all [onChannel]

/-- The items of different channels, one channel after the other. -/
theorem onChannel_flatMap_mk
    {channels : List Channel}
    (distinct : channels.Nodup)
    (items : Channel → List α)
    (channel : Channel) :
    onChannel
        (channels.flatMap fun other => (items other).map (Prod.mk other))
        channel =
      if channel ∈ channels then items channel else [] := by
  induction channels with
  | nil =>
      rfl
  | cons first rest inductionHypothesis =>
      obtain ⟨notLater, restDistinct⟩ := List.nodup_cons.mp distinct
      rw [List.flatMap_cons, onChannel_append, onChannel_map_mk,
        inductionHypothesis restDistinct]
      by_cases isFirst : first = channel
      · subst isFirst
        simp [notLater]
      · simp [isFirst, Ne.symm isFirst]

/-- The entries may be mapped before or after. -/
theorem onChannel_map
    (log : List (Channel × α))
    (f : α → β)
    (channel : Channel) :
    onChannel (log.map fun entry => (entry.1, f entry.2)) channel =
      (onChannel log channel).map f := by
  rw [onChannel, onChannel, List.filter_map, List.map_map, List.map_map]
  rfl

/-- What went on different channels is all part of the log. -/
theorem subperm_onChannel
    {channels : List Channel}
    (distinct : channels.Nodup)
    (log : List (Channel × α)) :
    (channels.flatMap (onChannel log)).Subperm (log.map Prod.snd) := by
  induction channels generalizing log with
  | nil =>
      exact List.nil_subperm
  | cons first rest inductionHypothesis =>
      obtain ⟨notLater, restDistinct⟩ := List.nodup_cons.mp distinct
      let others := log.filter fun entry => !(entry.1 == first)
      have onOthers :
          rest.flatMap (onChannel log) = rest.flatMap (onChannel others) := by
        apply List.flatMap_congr
        intro channel listed
        have differ : channel ≠ first := by
          rintro rfl
          exact notLater listed
        unfold onChannel
        rw [List.filter_filter]
        congr 1
        apply List.filter_congr
        intro entry _
        by_cases isChannel : entry.1 = channel <;> simp [isChannel, differ]
      rw [List.flatMap_cons, onOthers]
      have restOfOthers :=
        (List.subperm_append_left (onChannel log first)).mpr
          (inductionHypothesis restDistinct others)
      have whole :
          (onChannel log first ++ others.map Prod.snd).Perm
            (log.map Prod.snd) := by
        unfold onChannel
        rw [← List.map_append]
        exact (List.filter_append_perm _ log).map Prod.snd
      exact restOfOthers.trans whole.subperm

theorem count_onChannel
    [DecidableEq α]
    (log : List (Channel × α))
    (channel : Channel)
    (item : α) :
    (onChannel log channel).count item = log.count (channel, item) := by
  induction log with
  | nil =>
      rfl
  | cons entry rest inductionHypothesis =>
      obtain ⟨other, content⟩ := entry
      unfold onChannel at inductionHypothesis ⊢
      by_cases isChannel : other = channel
      · subst isChannel
        simp [List.count_cons, inductionHypothesis]
      · simp [isChannel, inductionHypothesis]

/-- A log that is part of another one on every channel is part of it. -/
theorem subperm_of_onChannel
    {log whole : List (Channel × α)}
    (each :
      ∀ channel, (onChannel log channel).Subperm (onChannel whole channel)) :
    log.Subperm whole := by
  classical
  rw [List.subperm_ext_iff]
  rintro ⟨channel, item⟩ -
  have counted := (each channel).count_le item
  rwa [count_onChannel, count_onChannel] at counted

end

end ChannelLog
