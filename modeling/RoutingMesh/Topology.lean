import Mathlib.Data.Finset.Basic
import RoutingMesh.Matrix

/-!
# Topologies keyed by node

What the topology matrix is for, without positions: a finite set of members,
the links each member says it hears, the quality it measures, and for each
member the time its entry was created.  Merging a report and expiring silent
members are stated here as operations on partial maps; the position-indexed
code is shown to compute them in `RoutingMesh.MatrixRefinement`.

Cells of non-members are zero, so two topologies with the same members and
the same cells of members are equal.
-/

namespace RoutingMesh

variable {Id : Type*} [DecidableEq Id]

/-- A topology: cells are meaningful for members and zero elsewhere. -/
@[ext] structure Topology (Id : Type*) where
  members : Finset Id
  link : Id → Id → UInt8
  quality : Id → Id → UInt8
  created : Id → ℚ
  age : Id → ℚ

/-- What a topology holds about one member. -/
@[ext] structure Entry (Id : Type*) where
  row : Id → UInt8
  created : ℚ
  age : ℚ

/-- What a received beacon reports. -/
@[ext] structure Report (Id : Type*) where
  members : Finset Id
  link : Id → Id → UInt8
  age : Id → ℚ

namespace Topology

/-- The entry of one member. -/
def entry (topology : Topology Id) (k : Id) : Entry Id where
  row := topology.link k
  created := topology.created k
  age := topology.age k

/-- Forget every member outside `kept`. -/
def restrict (topology : Topology Id) (kept : Finset Id) : Topology Id where
  members := kept
  link a b := if a ∈ kept ∧ b ∈ kept then topology.link a b else 0
  quality a b := if a ∈ kept ∧ b ∈ kept then topology.quality a b else 0
  created k := if k ∈ kept then topology.created k else 0
  age k := if k ∈ kept then topology.age k else 0

/-- The members that are not silent for `maxAge` at time `now`; `me` never is. -/
def alive (topology : Topology Id) (me : Id) (now : ℚ) : Finset Id :=
  topology.members.filter fun k =>
    k = me ∨ now - topology.created k < maxAge

/-- Expire the silent members. -/
def expire (topology : Topology Id) (me : Id) (now : ℚ) : Topology Id :=
  topology.restrict (topology.alive me now)

theorem mem_alive
    {topology : Topology Id}
    {me : Id}
    {now : ℚ}
    {k : Id} :
    k ∈ topology.alive me now ↔
      k ∈ topology.members ∧
        (k = me ∨ now - topology.created k < maxAge) := by
  simp [alive]

/-- Restricting twice keeps the smaller set of members. -/
theorem restrict_restrict
    (topology : Topology Id)
    {smaller larger : Finset Id}
    (contained : smaller ⊆ larger) :
    (topology.restrict larger).restrict smaller =
      topology.restrict smaller := by
  apply Topology.ext
  · rfl
  · funext a b
    simp only [restrict]
    split
    · rename_i kept
      simp [contained kept.1, contained kept.2]
    · rfl
  · funext a b
    simp only [restrict]
    split
    · rename_i kept
      simp [contained kept.1, contained kept.2]
    · rfl
  · funext k
    simp only [restrict]
    split
    · rename_i kept
      simp [contained kept]
    · rfl
  · funext k
    simp only [restrict]
    split
    · rename_i kept
      simp [contained kept]
    · rfl

/-- Forgetting a silent member does not change which members are alive. -/
theorem alive_restrict_erase
    {topology : Topology Id}
    {me removed : Id}
    {now : ℚ}
    (silent : removed ∉ topology.alive me now) :
    (topology.restrict (topology.members.erase removed)).alive me now =
      topology.alive me now := by
  ext k
  rw [mem_alive, mem_alive]
  by_cases isRemoved : k = removed
  · subst isRemoved
    constructor
    · intro kept
      simp [restrict] at kept
    · intro kept
      exact (silent (mem_alive.mpr kept)).elim
  · by_cases listed : k ∈ topology.members
    · simp [restrict, isRemoved, listed]
    · simp [restrict, listed]

/-- Refresh the own entry and compute every age, as before a transmission. -/
def refresh (topology : Topology Id) (me : Id) (now : ℚ) : Topology Id :=
  { topology with
    created := fun k => if k = me then now else topology.created k
    age := fun k =>
      if k = me then 0
      else if k ∈ topology.members then now - topology.created k
      else topology.age k }

/-- Change the quality of the link from `me` to `other`. -/
def rate
    (topology : Topology Id)
    (me other : Id)
    (change : UInt8 → UInt8) : Topology Id :=
  { topology with
    quality := fun a b =>
      if a = me ∧ b = other ∧ other ∈ topology.members then
        change (topology.quality a b)
      else
        topology.quality a b }

/--
When the report of `k` replaces the entry of `k`: it is recent, it is newer
than the local entry, and a relayed report does not revive an expired one.
-/
def Accepts
    (topology : Topology Id)
    (report : Report Id)
    (me other : Id)
    (now : ℚ)
    (k : Id) : Prop :=
  k ∈ report.members ∧
    k ≠ me ∧
    report.age k < maxAge ∧
    (k = other ∨ k ∉ topology.members ∨ now - topology.created k < maxAge) ∧
    (k ∉ topology.members ∨ topology.created k < now - report.age k)

instance
    (topology : Topology Id)
    (report : Report Id)
    (me other : Id)
    (now : ℚ) :
    DecidablePred (topology.Accepts report me other now) :=
  fun _ => inferInstanceAs (Decidable (_ ∧ _ ∧ _ ∧ _ ∧ _))

/-- The entry of `k` after the reports of a beacon have been considered. -/
def reportedEntry
    (topology : Topology Id)
    (report : Report Id)
    (me other : Id)
    (now : ℚ)
    (k : Id)
    (held : Entry Id) : Entry Id :=
  if topology.Accepts report me other now k then
    { row := report.link k
      created :=
        if k = other ∨ k ∉ topology.members then
          now - report.age k
        else
          topology.created k
      age := report.age k }
  else
    held

/-- The links after merging a report heard from `other`. -/
def mergedLink
    (topology : Topology Id)
    (report : Report Id)
    (me other : Id)
    (now : ℚ)
    (a b : Id) : UInt8 :=
  if a = me ∧ b = other ∧ other ∈ topology.members ∪ report.members then
    1
  else if topology.Accepts report me other now a then
    report.link a b
  else
    topology.link a b

/-- The creation times after merging a report heard from `other`. -/
def mergedCreated
    (topology : Topology Id)
    (report : Report Id)
    (me other : Id)
    (now : ℚ)
    (k : Id) : ℚ :=
  if k = me ∧ other ∈ topology.members ∪ report.members then
    now
  else if topology.Accepts report me other now k then
    if k = other ∨ k ∉ topology.members then
      now - report.age k
    else
      topology.created k
  else
    topology.created k

/-- The row of a node but `me` is that of the accepted report, or the old one. -/
theorem mergedLink_of_ne
    {topology : Topology Id}
    {report : Report Id}
    {me other k : Id}
    {now : ℚ}
    (notSelf : k ≠ me)
    (b : Id) :
    topology.mergedLink report me other now k b =
      if topology.Accepts report me other now k then report.link k b
      else topology.link k b :=
  if_neg (fun own => notSelf own.1)

/--
The creation time of a node but `me` is that of an accepted report which the
node sent itself or which makes it known.
-/
theorem mergedCreated_of_ne
    {topology : Topology Id}
    {report : Report Id}
    {me other k : Id}
    {now : ℚ}
    (notSelf : k ≠ me) :
    topology.mergedCreated report me other now k =
      if topology.Accepts report me other now k ∧
          (k = other ∨ k ∉ topology.members) then
        now - report.age k
      else
        topology.created k := by
  unfold mergedCreated
  rw [if_neg (fun own => notSelf own.1)]
  by_cases accepted : topology.Accepts report me other now k
  · simp [accepted]
  · simp [accepted]

/-- The qualities after merging a report heard from `other`. -/
def mergedQuality
    (mode : LinkQualityMode)
    (topology : Topology Id)
    (report : Report Id)
    (me other : Id)
    (now : ℚ)
    (a b : Id) : UInt8 :=
  let members := topology.members ∪ report.members
  let received :=
    (topology.rate me other (adjustQuality · false)).quality a b
  let filled :=
    if a ∈ members ∧ b ∈ members ∧ a ≠ b ∧
        topology.mergedLink report me other now a b = 1 ∧ received = 0 then
      initialLinkQuality mode
    else
      received
  if a = me ∧ b = other ∧ other ∈ members ∧
      filled < initialLinkQuality mode + 10 then
    initialLinkQuality mode + 10
  else
    filled

/-- Merge a report that node `me` heard from `other` at time `now`. -/
def merge
    (mode : LinkQualityMode)
    (topology : Topology Id)
    (report : Report Id)
    (me other : Id)
    (now : ℚ) : Topology Id where
  members := topology.members ∪ report.members
  link := topology.mergedLink report me other now
  quality := topology.mergedQuality mode report me other now
  created := topology.mergedCreated report me other now
  age k :=
    if topology.Accepts report me other now k then report.age k
    else topology.age k

end Topology

end RoutingMesh
