import RoutingMesh.MatrixRefinement
import RoutingMesh.MatrixUpdate

/-!
# `matrix_update` refines the merge of topologies

The code merges two position-indexed matrices with different key orders into
a third, re-sorted one.  Each of its loops is shown to be an operation on
cells addressed by key; together they compute `Topology.merge`.  Ages and
times are rationals: a reported age that is infinite or not a number is left
out.
-/

namespace RoutingMesh

open CellArray KeyedCells

/-!
## The union of the identifiers
-/

@[simp] theorem mem_appendUnknownIds
    {known reported : List UInt8}
    {id : UInt8} :
    id ∈ appendUnknownIds known reported ↔
      id ∈ known ∨ id ∈ reported := by
  unfold appendUnknownIds
  induction reported generalizing known with
  | nil =>
      simp
  | cons head rest inductionHypothesis =>
      rw [List.foldl_cons, inductionHypothesis]
      split
      · rename_i alreadyKnown
        constructor
        · rintro (inKnown | inRest)
          · exact .inl inKnown
          · exact .inr (List.mem_cons_of_mem head inRest)
        · rintro (inKnown | inReported)
          · exact .inl inKnown
          · rcases List.mem_cons.mp inReported with isHead | inRest
            · subst isHead
              exact .inl alreadyKnown
            · exact .inr inRest
      · simp [or_assoc]

/-- Appending the unknown identifiers keeps the known ones as a prefix. -/
theorem appendUnknownIds_prefix
    (known reported : List UInt8) :
    ∃ added, appendUnknownIds known reported = known ++ added := by
  unfold appendUnknownIds
  induction reported generalizing known with
  | nil =>
      exact ⟨[], by simp⟩
  | cons head rest inductionHypothesis =>
      rw [List.foldl_cons]
      split
      · exact inductionHypothesis known
      · obtain ⟨added, shape⟩ := inductionHypothesis (known ++ [head])
        exact ⟨head :: added, by simp [shape]⟩

theorem nodup_appendUnknownIds
    {known : List UInt8}
    (distinct : known.Nodup)
    (reported : List UInt8) :
    (appendUnknownIds known reported).Nodup := by
  unfold appendUnknownIds
  induction reported generalizing known with
  | nil =>
      exact distinct
  | cons head rest inductionHypothesis =>
      rw [List.foldl_cons]
      split
      · exact inductionHypothesis distinct
      · rename_i fresh
        apply inductionHypothesis
        rw [List.nodup_append]
        refine ⟨distinct, by simp, ?_⟩
        intro id inKnown other isHead
        rw [List.mem_singleton] at isHead
        rintro rfl
        exact fresh (isHead ▸ inKnown)

@[simp] theorem mem_discoverIds
    {matrixA matrixB : TdmaMatrix}
    {id : UInt8} :
    id ∈ discoverIds matrixA matrixB ↔
      id ∈ matrixA.idOfActiveNodes ∨ id ∈ matrixB.idOfActiveNodes := by
  simp [discoverIds]

/-- Rating a link lists nobody, so the union stays. -/
@[simp] theorem discoverIds_updateLinkQuality
    (mine newMat : TdmaMatrix)
    (nodeId : UInt8)
    (timeout : Bool) :
    discoverIds (updateLinkQuality mine nodeId timeout) newMat =
      discoverIds mine newMat := by
  simp only [discoverIds, idOfActiveNodes_updateLinkQuality]

/-- The merged identifiers are distinct when the local ones are. -/
theorem nodup_discoverIds
    {matrixA : TdmaMatrix}
    (distinct : matrixA.idOfActiveNodes.Nodup)
    (matrixB : TdmaMatrix) :
    (discoverIds matrixA matrixB).Nodup :=
  (List.perm_insertionSort _ _).nodup_iff.mpr
    (nodup_appendUnknownIds distinct matrixB.idOfActiveNodes)

/-- The merged identifiers are strictly increasing. -/
theorem pairwise_lt_discoverIds
    {matrixA : TdmaMatrix}
    (distinct : matrixA.idOfActiveNodes.Nodup)
    (matrixB : TdmaMatrix) :
    (discoverIds matrixA matrixB).Pairwise (· < ·) := by
  have sorted :
      (discoverIds matrixA matrixB).Pairwise (· ≤ ·) :=
    List.pairwise_insertionSort _ _
  have different := nodup_discoverIds distinct matrixB
  exact (sorted.and different).imp
    (fun ordered => UInt8.lt_of_le_of_ne ordered.1 ordered.2)

/-!
## The copy loops
-/

/-- `copyLine` re-keys one line: the line of `owner` gets the copied cells. -/
theorem link_copyLine
    {final source : TdmaMatrix}
    (finalDistinct : final.idOfActiveNodes.Nodup)
    (sourceDistinct : source.idOfActiveNodes.Nodup)
    (covered :
      ∀ id ∈ source.idOfActiveNodes, id ∈ final.idOfActiveNodes)
    {oldLinePos newLinePos : Nat}
    {owner : UInt8}
    (sourceOwned : source.idOfActiveNodes.idxOf? owner = some oldLinePos)
    (finalOwned : final.idOfActiveNodes.idxOf? owner = some newLinePos)
    (a b : UInt8) :
    (copyLine final source oldLinePos newLinePos).topology.link a b =
      if a = owner ∧ b ∈ source.idOfActiveNodes then
        source.topology.link a b
      else
        final.topology.link a b := by
  change readAt final.idOfActiveNodes (write _ _ _) a b = _
  rw [readAt_write finalDistinct finalOwned,
    copyUntilMissing_eq_copyPresent _ covered,
    read_copyPresent finalDistinct _ sourceDistinct]
  by_cases isOwner : a = owner
  · subst isOwner
    by_cases copied : b ∈ source.idOfActiveNodes
    · simp [copied, covered b copied, TdmaMatrix.topology, readAt,
        read_of_position sourceOwned]
    · simp [copied, TdmaMatrix.topology, readAt,
        read_of_position finalOwned]
  · simp [isOwner, TdmaMatrix.topology]

/-- The part of a matrix under construction that its copy loops leave alone. -/
structure InFrame
    (ids : List UInt8)
    (myId : UInt8)
    (linkQuality : Nat → Nat → UInt8)
    (mat : TdmaMatrix) : Prop where
  ids : mat.idOfActiveNodes = ids
  myId : mat.myId = myId
  linkQuality : mat.linkQuality = linkQuality

section Frame

variable {ids : List UInt8} {myId : UInt8}
variable {linkQuality : Nat → Nat → UInt8}
variable {final : TdmaMatrix}

/-- The first loop writes rows, creation times and ages only. -/
theorem InFrame.copyLocalLines
    {localMat : TdmaMatrix}
    {rest : List UInt8} :
    ∀ {final : TdmaMatrix} {i : Nat},
      InFrame ids myId linkQuality final →
      InFrame ids myId linkQuality
        (copyLocalLines localMat final rest i) := by
  induction rest with
  | nil =>
      intro final i frame
      exact frame
  | cons id rest inductionHypothesis =>
      intro final i frame
      rw [RoutingMesh.copyLocalLines]
      split
      · exact frame
      · exact inductionHypothesis
          ⟨frame.ids, frame.myId, frame.linkQuality⟩

/-- So does the body of the second loop. -/
theorem InFrame.acceptReport
    (frame : InFrame ids myId linkQuality final)
    (localMat newMat : TdmaMatrix)
    (otherIp : UInt8)
    (time : ℚ)
    (id : UInt8)
    (i : Nat) :
    InFrame ids myId linkQuality
      (acceptReport localMat newMat final otherIp time id i) := by
  unfold RoutingMesh.acceptReport
  split
  · exact frame
  · dsimp only
    split
    · exact frame
    · split
      · exact frame
      · split
        · exact ⟨frame.ids, frame.myId, frame.linkQuality⟩
        · exact frame

/-- Considering a report lists nobody. -/
@[simp] theorem idOfActiveNodes_acceptReport
    (localMat newMat final : TdmaMatrix)
    (otherIp : UInt8)
    (time : ℚ)
    (id : UInt8)
    (i : Nat) :
    (RoutingMesh.acceptReport localMat newMat final otherIp time id
        i).idOfActiveNodes =
      final.idOfActiveNodes := by
  have frame :
      InFrame final.idOfActiveNodes final.myId final.linkQuality final :=
    ⟨rfl, rfl, rfl⟩
  exact (frame.acceptReport localMat newMat otherIp time id i).ids

/-- So does the second loop. -/
theorem InFrame.acceptReports
    (frame : InFrame ids myId linkQuality final)
    (localMat newMat : TdmaMatrix)
    (otherIp : UInt8)
    (time : ℚ) :
    InFrame ids myId linkQuality
      (acceptReports localMat newMat final otherIp time) := by
  have kept :
      ∀ {state : TdmaMatrix} {id : UInt8} {i : Nat},
        InFrame ids myId linkQuality state →
        InFrame ids myId linkQuality
          (RoutingMesh.acceptReport localMat newMat state otherIp time id i) :=
    fun {_ id i} stateFrame =>
      stateFrame.acceptReport localMat newMat otherIp time id i
  exact forEachFrom_invariant kept frame

end Frame

/-- The entry that a local node has after the first copy loop. -/
def copiedEntry
    (localMat : TdmaMatrix)
    (k : UInt8)
    (held : Entry UInt8) : Entry UInt8 where
  row b :=
    if b ∈ localMat.idOfActiveNodes then localMat.topology.link k b
    else held.row b
  created := localMat.topology.created k
  age := localMat.topology.age k

/-- Moving one local node changes the entry of that node alone. -/
theorem entry_copyLocalLine
    {localMat final : TdmaMatrix}
    (localDistinct : localMat.idOfActiveNodes.Nodup)
    (finalDistinct : final.idOfActiveNodes.Nodup)
    (covered :
      ∀ id ∈ localMat.idOfActiveNodes, id ∈ final.idOfActiveNodes)
    {i linePos : Nat}
    {owner : UInt8}
    (localOwned : localMat.idOfActiveNodes.idxOf? owner = some i)
    (finalOwned : final.idOfActiveNodes.idxOf? owner = some linePos)
    (k : UInt8) :
    (copyLocalLine localMat final i linePos).topology.entry k =
      if k = owner then
        copiedEntry localMat k (final.topology.entry k)
      else
        final.topology.entry k := by
  have links :=
    link_copyLine finalDistinct localDistinct covered
      localOwned finalOwned k
  have created :=
    read_write finalDistinct finalOwned
      final.creationTime (localMat.creationTime i) k
  have age :=
    read_write finalDistinct finalOwned
      final.age (localMat.age i) k
  by_cases isOwner : k = owner
  · subst isOwner
    rw [if_pos rfl]
    apply Entry.ext
    · funext b
      exact (links b).trans (by simp [copiedEntry, Topology.entry])
    · exact created.trans
        (by simp [copiedEntry, TdmaMatrix.topology,
          read_of_position localOwned])
    · exact age.trans
        (by simp [copiedEntry, TdmaMatrix.topology,
          read_of_position localOwned])
  · rw [if_neg isOwner]
    apply Entry.ext
    · funext b
      exact (links b).trans (by simp [isOwner, Topology.entry])
    · exact created.trans (by simp [isOwner, Topology.entry,
        TdmaMatrix.topology])
    · exact age.trans (by simp [isOwner, Topology.entry,
        TdmaMatrix.topology])

/-- When every local node has a place, the first loop never breaks. -/
theorem copyLocalLines_eq_forEachFrom
    {localMat : TdmaMatrix}
    {rest : List UInt8} :
    ∀ {final : TdmaMatrix} {i : Nat},
      (∀ id ∈ rest, id ∈ final.idOfActiveNodes) →
      copyLocalLines localMat final rest i =
        forEachFrom
          (fun final id i =>
            match searchId final id with
            | none => final
            | some linePos => copyLocalLine localMat final i linePos)
          final rest i := by
  induction rest with
  | nil =>
      intro final i _
      rfl
  | cons id rest inductionHypothesis =>
      intro final i covered
      obtain ⟨linePos, found⟩ := exists_position (covered id (by simp))
      rw [copyLocalLines, forEachFrom, searchId, found]
      apply inductionHypothesis
      intro later member
      exact covered later (by simp [member])

/-- The first copy loop, entry by entry. -/
theorem entry_copyLocalLines
    {localMat final : TdmaMatrix}
    (localDistinct : localMat.idOfActiveNodes.Nodup)
    (distinct : final.idOfActiveNodes.Nodup)
    (covered :
      ∀ id ∈ localMat.idOfActiveNodes, id ∈ final.idOfActiveNodes)
    (k : UInt8) :
    (copyLocalLines localMat final localMat.idOfActiveNodes
        0).topology.entry k =
      if k ∈ localMat.idOfActiveNodes then
        copiedEntry localMat k (final.topology.entry k)
      else
        final.topology.entry k := by
  rw [copyLocalLines_eq_forEachFrom covered]
  refine view_forEach _ localDistinct
    (fun mat : TdmaMatrix => mat.idOfActiveNodes = final.idOfActiveNodes)
    (fun mat k => mat.topology.entry k)
    (copiedEntry localMat) ?_ ?_ final rfl k
  · intro state id i sameIds _
    split
    · exact sameIds
    · exact sameIds
  · intro state id i sameIds owner k
    have localOwned :=
      (idxOf?_eq_some_iff_getElem? localDistinct).mpr owner
    obtain ⟨linePos, finalOwned⟩ :=
      exists_position (covered id (List.mem_of_getElem? owner))
    rw [← sameIds] at finalOwned distinct covered
    simp only [searchId, finalOwned]
    exact entry_copyLocalLine localDistinct distinct covered
      localOwned finalOwned k

/-!
## Accepting reports
-/

/-- The entry that an accepted report of `id` leaves at `finalPos`. -/
def acceptedEntry
    (localMat newMat final : TdmaMatrix)
    (otherIp : UInt8)
    (time : ℚ)
    (id : UInt8)
    (i finalPos : Nat) : TdmaMatrix :=
  { copyLine (clearLine final finalPos) newMat i finalPos with
    creationTime :=
      write final.creationTime finalPos
        (if id = otherIp ∨ id ∉ localMat.idOfActiveNodes then
          time - newMat.age i
        else
          localMat.topology.created id)
    age := write final.age finalPos (newMat.age i) }

/-- The nested tests of the loop body are the acceptance rule. -/
theorem acceptReport_eq
    {localMat newMat final : TdmaMatrix}
    {otherIp : UInt8}
    {time : ℚ}
    {id : UInt8}
    {i finalPos : Nat}
    (reported : newMat.idOfActiveNodes.idxOf? id = some i)
    (finalOwned : final.idOfActiveNodes.idxOf? id = some finalPos) :
    acceptReport localMat newMat final otherIp time id i =
      if localMat.topology.Accepts newMat.report localMat.myId
          otherIp time id then
        acceptedEntry localMat newMat final otherIp time id i finalPos
      else
        final := by
  have listed : id ∈ newMat.idOfActiveNodes := by
    rw [← List.isSome_idxOf?]
    exact Option.isSome_of_eq_some reported
  have ageCell : newMat.report.age id = newMat.age i :=
    read_of_position reported _
  unfold acceptReport acceptedEntry Topology.Accepts
  rcases localFound : searchId localMat id with _ | localPos
  · have unknown : id ∉ localMat.idOfActiveNodes := by
      simpa [searchId] using localFound
    by_cases isSelf : id = localMat.myId
    · simp [isSelf]
    · by_cases stale : newMat.age i ≥ maxAge
      · simp [stale, ageCell]
      · have recent : newMat.age i < maxAge := not_le.mp stale
        simp [isSelf, recent, listed, unknown, ageCell, searchId,
          finalOwned, localEntryExpired, reportIsNewer, copyLine, clearLine]
  · have known : id ∈ localMat.idOfActiveNodes := by
      rw [← List.isSome_idxOf?]
      exact Option.isSome_of_eq_some localFound
    have created :
        localMat.topology.created id = localMat.creationTime localPos :=
      read_of_position localFound _
    by_cases isSelf : id = localMat.myId
    · simp [isSelf]
    · by_cases stale : newMat.age i ≥ maxAge
      · simp [stale, ageCell]
      · have recent : newMat.age i < maxAge := not_le.mp stale
        by_cases isDirect : id = otherIp
        · subst isDirect
          simp [isSelf, recent, stale, listed, known, created, ageCell,
            searchId, finalOwned, reportIsNewer, copyLine, clearLine]
        · by_cases expired :
              time - localMat.creationTime localPos ≥ maxAge
          · simp [isSelf, recent, listed, isDirect, known, created,
              ageCell, searchId, finalOwned, localEntryExpired, expired]
          · have fresh :
                time - localMat.creationTime localPos < maxAge :=
              not_le.mp expired
            simp [isSelf, recent, not_le.mpr recent, listed, isDirect, known,
              created, ageCell, searchId, finalOwned, localEntryExpired,
              fresh, not_le.mpr fresh, reportIsNewer, copyLine, clearLine]

/-- An accepted report replaces the entry of its node alone. -/
theorem entry_acceptedEntry
    {localMat newMat final : TdmaMatrix}
    (newDistinct : newMat.idOfActiveNodes.Nodup)
    (finalDistinct : final.idOfActiveNodes.Nodup)
    (covered :
      ∀ id ∈ newMat.idOfActiveNodes, id ∈ final.idOfActiveNodes)
    (otherIp : UInt8)
    (time : ℚ)
    {id : UInt8}
    {i finalPos : Nat}
    (reported : newMat.idOfActiveNodes.idxOf? id = some i)
    (finalOwned : final.idOfActiveNodes.idxOf? id = some finalPos)
    (k : UInt8) :
    (acceptedEntry localMat newMat final otherIp time id i
        finalPos).topology.entry k =
      if k = id then
        { row := newMat.report.link k
          created :=
            if k = otherIp ∨ k ∉ localMat.topology.members then
              time - newMat.report.age k
            else
              localMat.topology.created k
          age := newMat.report.age k }
      else
        final.topology.entry k := by
  have clearedDistinct :
      (clearLine final finalPos).idOfActiveNodes.Nodup :=
    finalDistinct
  have links :=
    link_copyLine clearedDistinct newDistinct covered reported finalOwned k
  have cleared :
      ∀ b, (clearLine final finalPos).topology.link k b =
        if k = id then 0 else final.topology.link k b := by
    intro b
    refine (readAt_write finalDistinct finalOwned _ _ k b).trans ?_
    simp [TdmaMatrix.topology]
  have age :=
    read_write finalDistinct finalOwned final.age (newMat.age i) k
  have ageCell : newMat.report.age id = newMat.age i :=
    read_of_position reported _
  by_cases isOwner : k = id
  · subst isOwner
    rw [if_pos rfl]
    apply Entry.ext
    · funext b
      refine (links b).trans ?_
      by_cases copied : b ∈ newMat.idOfActiveNodes
      · simp [copied, TdmaMatrix.topology, TdmaMatrix.report]
      · simp [copied, TdmaMatrix.report, cleared]
    · refine (read_write finalDistinct finalOwned _ _ k).trans ?_
      simp [ageCell]
    · exact age.trans (by simp [ageCell])
  · rw [if_neg isOwner]
    apply Entry.ext
    · funext b
      refine (links b).trans ?_
      simp [isOwner, cleared, Topology.entry]
    · refine (read_write finalDistinct finalOwned _ _ k).trans ?_
      simp [isOwner, Topology.entry, TdmaMatrix.topology]
    · exact age.trans (by simp [isOwner, Topology.entry,
        TdmaMatrix.topology])

/-- The second loop, entry by entry. -/
theorem entry_acceptReports
    {localMat newMat final : TdmaMatrix}
    (newDistinct : newMat.idOfActiveNodes.Nodup)
    (distinct : final.idOfActiveNodes.Nodup)
    (covered :
      ∀ id ∈ newMat.idOfActiveNodes, id ∈ final.idOfActiveNodes)
    (otherIp : UInt8)
    (time : ℚ)
    (k : UInt8) :
    (acceptReports localMat newMat final otherIp time).topology.entry k =
      localMat.topology.reportedEntry newMat.report localMat.myId
        otherIp time k (final.topology.entry k) := by
  have entries :=
    view_forEach
      (fun final id i =>
        acceptReport localMat newMat final otherIp time id i)
      newDistinct
      (fun mat => mat.idOfActiveNodes = final.idOfActiveNodes)
      (fun mat k => mat.topology.entry k)
      (localMat.topology.reportedEntry newMat.report localMat.myId
        otherIp time)
      (by
        intro state id i sameIds _
        rw [idOfActiveNodes_acceptReport, sameIds])
      (by
        intro state id i sameIds owner k
        have reported :=
          (idxOf?_eq_some_iff_getElem? newDistinct).mpr owner
        obtain ⟨finalPos, finalOwned⟩ :=
          exists_position (covered id (List.mem_of_getElem? owner))
        rw [← sameIds] at finalOwned distinct covered
        rw [acceptReport_eq reported finalOwned]
        by_cases accepted :
            localMat.topology.Accepts newMat.report localMat.myId
              otherIp time id
        · rw [if_pos accepted,
            entry_acceptedEntry newDistinct distinct covered otherIp time
              reported finalOwned]
          by_cases isOwner : k = id
          · subst isOwner
            simp [Topology.reportedEntry, accepted]
          · simp [isOwner]
        · rw [if_neg accepted]
          by_cases isOwner : k = id
          · subst isOwner
            simp [Topology.reportedEntry, accepted]
          · simp [isOwner])
      final rfl k
  refine entries.trans ?_
  by_cases reported : k ∈ newMat.idOfActiveNodes
  · simp [reported]
  · simp [reported, Topology.reportedEntry, Topology.Accepts]

/-!
## The own row
-/

/-- The confirmation of the direct link leaves everything but its two cells. -/
theorem confirmDirectLink_frame
    (final : TdmaMatrix)
    (otherIp : UInt8)
    (time : ℚ) :
    InFrame final.idOfActiveNodes final.myId final.linkQuality
        (confirmDirectLink final otherIp time) ∧
      (confirmDirectLink final otherIp time).age = final.age := by
  unfold confirmDirectLink
  split <;> exact ⟨⟨rfl, rfl, rfl⟩, rfl⟩

/-- The confirmation sets the own cell of the sender and the own time. -/
theorem topology_confirmDirectLink
    {final : TdmaMatrix}
    (distinct : final.idOfActiveNodes.Nodup)
    (selfListed : final.myId ∈ final.idOfActiveNodes)
    (otherIp : UInt8)
    (time : ℚ) :
    (∀ a b,
      (confirmDirectLink final otherIp time).topology.link a b =
        if a = final.myId ∧ b = otherIp ∧
            otherIp ∈ final.idOfActiveNodes then
          1
        else
          final.topology.link a b) ∧
      ∀ k,
        (confirmDirectLink final otherIp time).topology.created k =
          if k = final.myId ∧ otherIp ∈ final.idOfActiveNodes then time
          else final.topology.created k := by
  obtain ⟨myIpPos, myFound⟩ := exists_position selfListed
  by_cases listed : otherIp ∈ final.idOfActiveNodes
  · obtain ⟨otherIpPos, otherFound⟩ := exists_position listed
    simp only [confirmDirectLink, searchId, myFound, otherFound]
    constructor
    · intro a b
      refine (readAt_writeAt distinct myFound otherFound _ _ a b).trans ?_
      simp [listed, TdmaMatrix.topology]
    · intro k
      refine (read_write distinct myFound _ _ k).trans ?_
      simp [listed, TdmaMatrix.topology]
  · have notFound : final.idOfActiveNodes.idxOf? otherIp = none := by
      simpa using listed
    simp [confirmDirectLink, searchId, notFound, listed]

/-!
## The link qualities
-/

/-- The double loop re-keys the local link qualities. -/
theorem topology_copyLinkQualities
    {localMat final : TdmaMatrix}
    (localDistinct : localMat.idOfActiveNodes.Nodup)
    (distinct : final.idOfActiveNodes.Nodup)
    (covered :
      ∀ id ∈ localMat.idOfActiveNodes, id ∈ final.idOfActiveNodes)
    (blank : final.linkQuality = fun _ _ => 0) :
    (copyLinkQualities localMat final).topology.quality =
      localMat.topology.quality := by
  have rows :=
    view_forEach (copyQualityLine localMat final.idOfActiveNodes)
      localDistinct
      (fun _ => True)
      (fun table k => readAt final.idOfActiveNodes table k)
      (fun k row b =>
        if b ∈ localMat.idOfActiveNodes then localMat.topology.quality k b
        else row b)
      (by
        intro _ _ _ _ _
        trivial)
      (by
        intro table id i _ owner k
        have localOwned :=
          (idxOf?_eq_some_iff_getElem? localDistinct).mpr owner
        obtain ⟨finalPos, finalOwned⟩ :=
          exists_position (covered id (List.mem_of_getElem? owner))
        funext b
        rw [copyQualityLine, finalOwned]
        simp only
        rw [readAt_write distinct finalOwned,
          read_copyPresent distinct _ localDistinct]
        by_cases isOwner : k = id
        · subst isOwner
          by_cases copied : b ∈ localMat.idOfActiveNodes
          · simp [copied, covered b copied, TdmaMatrix.topology, readAt,
              read_of_position localOwned]
          · simp [copied, readAt, read_of_position finalOwned]
        · simp [isOwner])
      final.linkQuality trivial
  funext a b
  refine (congrFun (rows a) b).trans ?_
  rw [blank]
  by_cases rowCopied : a ∈ localMat.idOfActiveNodes
  · by_cases columnCopied : b ∈ localMat.idOfActiveNodes
    · simp [rowCopied, columnCopied]
    · simp [rowCopied, columnCopied, TdmaMatrix.topology]
  · simp [rowCopied, TdmaMatrix.topology]

/-- The fill pass gives every active link without a quality the initial one. -/
theorem topology_fillLinkQualities
    {final : TdmaMatrix}
    (distinct : final.idOfActiveNodes.Nodup)
    (mode : LinkQualityMode)
    (a b : UInt8) :
    (fillLinkQualities mode final).topology.quality a b =
      if a ∈ final.idOfActiveNodes ∧ b ∈ final.idOfActiveNodes ∧
          a ≠ b ∧ final.topology.link a b = 1 ∧
          final.topology.quality a b = 0 then
        initialLinkQuality mode
      else
        final.topology.quality a b := by
  by_cases rowListed : a ∈ final.idOfActiveNodes
  · by_cases columnListed : b ∈ final.idOfActiveNodes
    · obtain ⟨i, iInBounds, rfl⟩ := List.getElem_of_mem rowListed
      obtain ⟨j, jInBounds, rfl⟩ := List.getElem_of_mem columnListed
      have samePosition :
          final.idOfActiveNodes[i] = final.idOfActiveNodes[j] ↔ i = j :=
        distinct.getElem_inj_iff
      simp [TdmaMatrix.topology, fillLinkQualities,
        readAt_getElem distinct iInBounds jInBounds, iInBounds, jInBounds,
        samePosition, TdmaMatrix.numberOfActiveNodes]
    · simp [TdmaMatrix.topology, fillLinkQualities, columnListed]
  · simp [TdmaMatrix.topology, fillLinkQualities, rowListed]

/-- The boost raises the own quality of the sender to the threshold. -/
theorem topology_boostDirectLink
    {final : TdmaMatrix}
    (distinct : final.idOfActiveNodes.Nodup)
    (selfListed : final.myId ∈ final.idOfActiveNodes)
    (mode : LinkQualityMode)
    (otherIp a b : UInt8) :
    (boostDirectLink mode final otherIp).topology.quality a b =
      if a = final.myId ∧ b = otherIp ∧
          otherIp ∈ final.idOfActiveNodes ∧
          final.topology.quality a b < initialLinkQuality mode + 10 then
        initialLinkQuality mode + 10
      else
        final.topology.quality a b := by
  obtain ⟨myIpPos, myFound⟩ := exists_position selfListed
  by_cases listed : otherIp ∈ final.idOfActiveNodes
  · obtain ⟨otherIpPos, otherFound⟩ := exists_position listed
    have cell :
        final.topology.quality final.myId otherIp =
          final.linkQuality myIpPos otherIpPos := by
      simp [TdmaMatrix.topology, readAt, read_of_position myFound,
        read_of_position otherFound]
    simp only [boostDirectLink, searchId, myFound, otherFound]
    split
    · rename_i low
      refine (readAt_writeAt distinct myFound otherFound _ _ a b).trans ?_
      by_cases isLink : a = final.myId ∧ b = otherIp
      · obtain ⟨rfl, rfl⟩ := isLink
        simp [listed, cell, low]
      · have notLink :
            ¬ (a = final.myId ∧ b = otherIp ∧
              otherIp ∈ final.idOfActiveNodes ∧
              final.topology.quality a b <
                initialLinkQuality mode + 10) :=
          fun both => isLink ⟨both.1, both.2.1⟩
        rw [if_neg isLink, if_neg notLink]
        rfl
    · rename_i high
      by_cases isLink : a = final.myId ∧ b = otherIp
      · obtain ⟨rfl, rfl⟩ := isLink
        simp [cell, high]
      · have notLink :
            ¬ (a = final.myId ∧ b = otherIp ∧
              otherIp ∈ final.idOfActiveNodes ∧
              final.topology.quality a b <
                initialLinkQuality mode + 10) :=
          fun both => isLink ⟨both.1, both.2.1⟩
        rw [if_neg notLink]
  · have notFound : final.idOfActiveNodes.idxOf? otherIp = none := by
      simpa using listed
    simp [boostDirectLink, searchId, notFound, listed]

/-- The boost leaves everything but one quality. -/
theorem boostDirectLink_frame
    (mode : LinkQualityMode)
    (final : TdmaMatrix)
    (otherIp : UInt8) :
    (boostDirectLink mode final otherIp).idOfActiveNodes =
        final.idOfActiveNodes ∧
      (boostDirectLink mode final otherIp).myId = final.myId ∧
      (boostDirectLink mode final otherIp).matrix = final.matrix ∧
      (boostDirectLink mode final otherIp).creationTime =
        final.creationTime ∧
      (boostDirectLink mode final otherIp).age = final.age := by
  unfold boostDirectLink
  split
  · split <;> exact ⟨rfl, rfl, rfl, rfl, rfl⟩
  · exact ⟨rfl, rfl, rfl, rfl, rfl⟩

/-!
## The whole merge
-/

/-- The matrix that the two entry loops of a merge leave. -/
def acceptedMatrix
    (localMat newMat : TdmaMatrix)
    (otherIp : UInt8)
    (time : ℚ) : TdmaMatrix :=
  acceptReports localMat newMat
    (copyLocalLines localMat
      (TdmaMatrix.zeroed localMat.myId (discoverIds localMat newMat))
      localMat.idOfActiveNodes 0)
    otherIp time

/-- The first loop only moves the local entries to their new positions. -/
theorem entry_copiedMatrix
    {localMat : TdmaMatrix}
    (localDistinct : localMat.idOfActiveNodes.Nodup)
    (newMat : TdmaMatrix)
    (k : UInt8) :
    (copyLocalLines localMat
        (TdmaMatrix.zeroed localMat.myId (discoverIds localMat newMat))
        localMat.idOfActiveNodes 0).topology.entry k =
      localMat.topology.entry k := by
  have distinct := nodup_discoverIds localDistinct newMat
  refine (entry_copyLocalLines localDistinct distinct
    (fun id listed => mem_discoverIds.mpr (.inl listed)) k).trans ?_
  by_cases listed : k ∈ localMat.idOfActiveNodes
  · rw [if_pos listed]
    apply Entry.ext
    · funext b
      by_cases columnListed : b ∈ localMat.idOfActiveNodes
      · simp [copiedEntry, columnListed, Topology.entry]
      · simp [copiedEntry, columnListed, Topology.entry,
          TdmaMatrix.topology, TdmaMatrix.zeroed]
    · rfl
    · rfl
  · rw [if_neg listed]
    apply Entry.ext
    · funext b
      simp [Topology.entry, TdmaMatrix.topology, TdmaMatrix.zeroed, listed]
    · simp [Topology.entry, TdmaMatrix.topology, TdmaMatrix.zeroed, listed]
    · simp [Topology.entry, TdmaMatrix.topology, TdmaMatrix.zeroed, listed]

/-- The first loop writes rows, creation times and ages only. -/
theorem inFrame_copiedMatrix
    (localMat newMat : TdmaMatrix) :
    InFrame (discoverIds localMat newMat) localMat.myId (fun _ _ => 0)
      (copyLocalLines localMat
        (TdmaMatrix.zeroed localMat.myId (discoverIds localMat newMat))
        localMat.idOfActiveNodes 0) := by
  apply InFrame.copyLocalLines
  exact ⟨rfl, rfl, rfl⟩

/-- The entry loops write rows, creation times and ages only. -/
theorem inFrame_acceptedMatrix
    (localMat newMat : TdmaMatrix)
    (otherIp : UInt8)
    (time : ℚ) :
    InFrame (discoverIds localMat newMat) localMat.myId (fun _ _ => 0)
      (acceptedMatrix localMat newMat otherIp time) :=
  (inFrame_copiedMatrix localMat newMat).acceptReports _ _ _ _

/-- After the entry loops every member holds its local or its reported entry. -/
private theorem entry_acceptedMatrix
    {localMat newMat : TdmaMatrix}
    (localDistinct : localMat.idOfActiveNodes.Nodup)
    (newDistinct : newMat.idOfActiveNodes.Nodup)
    (otherIp : UInt8)
    (time : ℚ)
    (k : UInt8) :
    (acceptedMatrix localMat newMat otherIp time).topology.entry k =
      localMat.topology.reportedEntry newMat.report localMat.myId
        otherIp time k (localMat.topology.entry k) := by
  have copiedIds := (inFrame_copiedMatrix localMat newMat).ids
  refine (entry_acceptReports newDistinct ?_ ?_ otherIp time k).trans ?_
  · rw [copiedIds]
    exact nodup_discoverIds localDistinct newMat
  · intro id listed
    rw [copiedIds]
    exact mem_discoverIds.mpr (.inr listed)
  · rw [entry_copiedMatrix localDistinct]

/--
The confirmation adds the own cell of the sender and the own creation time to
what the entry loops leave, whatever the beacon lists.
-/
theorem cells_confirmDirectLink_acceptedMatrix
    {localMat : TdmaMatrix}
    (distinct : localMat.idOfActiveNodes.Nodup)
    (selfListed : localMat.myId ∈ localMat.idOfActiveNodes)
    (newMat : TdmaMatrix)
    (otherIp : UInt8)
    (time : ℚ)
    {accepted : TdmaMatrix}
    (isAccepted : acceptedMatrix localMat newMat otherIp time = accepted) :
    (∀ a b,
      (confirmDirectLink accepted otherIp time).topology.link a b =
        if a = localMat.myId ∧ b = otherIp ∧
            otherIp ∈ discoverIds localMat newMat then
          1
        else
          accepted.topology.link a b) ∧
      ∀ k,
        (confirmDirectLink accepted otherIp time).topology.created k =
          if k = localMat.myId ∧ otherIp ∈ discoverIds localMat newMat then
            time
          else
            accepted.topology.created k := by
  have frame := inFrame_acceptedMatrix localMat newMat otherIp time
  rw [isAccepted] at frame
  have acceptedDistinct : accepted.idOfActiveNodes.Nodup := by
    rw [frame.ids]
    exact nodup_discoverIds distinct newMat
  have acceptedListed : accepted.myId ∈ accepted.idOfActiveNodes := by
    rw [frame.myId, frame.ids, mem_discoverIds]
    exact .inl selfListed
  have cells :=
    topology_confirmDirectLink acceptedDistinct acceptedListed otherIp time
  simpa only [frame.myId, frame.ids] using cells

/-- The merged matrix before the passes over the qualities. -/
def confirmedMatrix
    (mine newMat : TdmaMatrix)
    (otherIp : UInt8)
    (time : ℚ) : TdmaMatrix :=
  confirmDirectLink
    (acceptedMatrix (updateLinkQuality mine otherIp false) newMat otherIp
      time)
    otherIp time

theorem mergedMatrix_eq
    (mode : LinkQualityMode)
    (mine newMat : TdmaMatrix)
    (otherIp : UInt8)
    (time : ℚ) :
    mergedMatrix mode mine newMat otherIp time =
      boostDirectLink mode
        (fillLinkQualities mode
          (copyLinkQualities (updateLinkQuality mine otherIp false)
            (confirmedMatrix mine newMat otherIp time)))
        otherIp :=
  rfl

/-- Until the quality passes the merge writes rows and times only. -/
theorem inFrame_confirmedMatrix
    (mine newMat : TdmaMatrix)
    (otherIp : UInt8)
    (time : ℚ) :
    InFrame (discoverIds mine newMat) mine.myId (fun _ _ => 0)
      (confirmedMatrix mine newMat otherIp time) := by
  have frame :=
    inFrame_acceptedMatrix (updateLinkQuality mine otherIp false) newMat
      otherIp time
  obtain ⟨confirmedFrame, _⟩ :=
    confirmDirectLink_frame
      (acceptedMatrix (updateLinkQuality mine otherIp false) newMat
        otherIp time) otherIp time
  exact
    { ids := confirmedFrame.ids.trans
        (frame.ids.trans (discoverIds_updateLinkQuality ..))
      myId := confirmedFrame.myId.trans (frame.myId.trans (by simp))
      linkQuality := confirmedFrame.linkQuality.trans frame.linkQuality }

/-- The same for the merged matrix before the passes over the qualities. -/
theorem cells_confirmedMatrix
    {mine : TdmaMatrix}
    (distinct : mine.idOfActiveNodes.Nodup)
    (selfListed : mine.myId ∈ mine.idOfActiveNodes)
    (newMat : TdmaMatrix)
    (otherIp : UInt8)
    (time : ℚ)
    {accepted : TdmaMatrix}
    (isAccepted :
      acceptedMatrix (updateLinkQuality mine otherIp false) newMat otherIp
        time = accepted) :
    (∀ a b,
      (confirmedMatrix mine newMat otherIp time).topology.link a b =
        if a = mine.myId ∧ b = otherIp ∧
            otherIp ∈ discoverIds mine newMat then
          1
        else
          accepted.topology.link a b) ∧
      ∀ k,
        (confirmedMatrix mine newMat otherIp time).topology.created k =
          if k = mine.myId ∧ otherIp ∈ discoverIds mine newMat then time
          else accepted.topology.created k := by
  have cells :=
    cells_confirmDirectLink_acceptedMatrix (by simpa using distinct)
      (by simpa using selfListed) newMat otherIp time isAccepted
  rw [confirmedMatrix, isAccepted]
  simpa only [myId_updateLinkQuality, discoverIds_updateLinkQuality]
    using cells

@[simp] theorem myId_mergedMatrix
    (mode : LinkQualityMode)
    (mine newMat : TdmaMatrix)
    (otherIp : UInt8)
    (time : ℚ) :
    (mergedMatrix mode mine newMat otherIp time).myId = mine.myId :=
  (boostDirectLink_frame _ _ _).2.1.trans
    (inFrame_confirmedMatrix mine newMat otherIp time).myId

/-- A merge leaves the sorted union of the identifiers. -/
@[simp] theorem idOfActiveNodes_mergedMatrix
    (mode : LinkQualityMode)
    (mine newMat : TdmaMatrix)
    (otherIp : UInt8)
    (time : ℚ) :
    (mergedMatrix mode mine newMat otherIp time).idOfActiveNodes =
      discoverIds mine newMat :=
  (boostDirectLink_frame _ _ _).1.trans
    (inFrame_confirmedMatrix mine newMat otherIp time).ids

/--
After the entry loops and the confirmation of the direct link, every cell
but the qualities is the merged one.
-/
private theorem topology_confirmedMatrix
    {localMat newMat : TdmaMatrix}
    (localDistinct : localMat.idOfActiveNodes.Nodup)
    (selfListed : localMat.myId ∈ localMat.idOfActiveNodes)
    (newDistinct : newMat.idOfActiveNodes.Nodup)
    (otherIp : UInt8)
    (time : ℚ)
    {confirmed : TdmaMatrix}
    (isConfirmed :
      confirmed =
        confirmDirectLink (acceptedMatrix localMat newMat otherIp time)
          otherIp time) :
    confirmed.topology.link =
        localMat.topology.mergedLink newMat.report localMat.myId
          otherIp time ∧
      confirmed.topology.created =
        localMat.topology.mergedCreated newMat.report localMat.myId
          otherIp time ∧
      confirmed.topology.age = fun k =>
        if localMat.topology.Accepts newMat.report localMat.myId
            otherIp time k then
          newMat.report.age k
        else
          localMat.topology.age k := by
  subst isConfirmed
  have entries :=
    entry_acceptedMatrix localDistinct newDistinct otherIp time
  obtain ⟨links, created⟩ :=
    cells_confirmDirectLink_acceptedMatrix localDistinct selfListed newMat
      otherIp time rfl
  have members :
      ∀ k, k ∈ discoverIds localMat newMat ↔
        k ∈ localMat.topology.members ∪ newMat.report.members := by
    intro k
    rw [mem_discoverIds, Finset.mem_union, TdmaMatrix.mem_members,
      TdmaMatrix.mem_report_members]
  simp only [members] at links created
  generalize acceptedMatrix localMat newMat otherIp time = accepted at *
  obtain ⟨confirmedFrame, sameAge⟩ :=
    confirmDirectLink_frame accepted otherIp time
  refine ⟨?_, ?_, ?_⟩
  · funext a b
    have row : accepted.topology.link a b = _ :=
      congrFun (congrArg Entry.row (entries a)) b
    rw [links, row, Topology.mergedLink, Topology.reportedEntry]
    split
    · rfl
    · split <;> rfl
  · funext k
    have cell : accepted.topology.created k = _ :=
      congrArg Entry.created (entries k)
    rw [created, cell, Topology.mergedCreated, Topology.reportedEntry]
    split
    · rfl
    · split <;> rfl
  · funext k
    have unchanged :
        (confirmDirectLink accepted otherIp time).topology.age k =
          accepted.topology.age k := by
      simp only [TdmaMatrix.topology, confirmedFrame.ids, sameAge]
    have cell : accepted.topology.age k = _ :=
      congrArg Entry.age (entries k)
    rw [unchanged, cell, Topology.reportedEntry]
    split <;> rfl

/--
The three passes over the qualities keep the local ones, give every new link
the initial one and raise that of the sender; the rest stays.
-/
theorem topology_qualityPasses
    (mode : LinkQualityMode)
    {localMat confirmed : TdmaMatrix}
    (localDistinct : localMat.idOfActiveNodes.Nodup)
    (distinct : confirmed.idOfActiveNodes.Nodup)
    (covered :
      ∀ id ∈ localMat.idOfActiveNodes, id ∈ confirmed.idOfActiveNodes)
    (selfListed : confirmed.myId ∈ confirmed.idOfActiveNodes)
    (blank : confirmed.linkQuality = fun _ _ => 0)
    (otherIp : UInt8) :
    (boostDirectLink mode
      (fillLinkQualities mode (copyLinkQualities localMat confirmed))
      otherIp).topology =
      { confirmed.topology with
        quality := fun a b =>
          let received := localMat.topology.quality a b
          let filled :=
            if a ∈ confirmed.idOfActiveNodes ∧
                b ∈ confirmed.idOfActiveNodes ∧ a ≠ b ∧
                confirmed.topology.link a b = 1 ∧ received = 0 then
              initialLinkQuality mode
            else
              received
          if a = confirmed.myId ∧ b = otherIp ∧
              otherIp ∈ confirmed.idOfActiveNodes ∧
              filled < initialLinkQuality mode + 10 then
            initialLinkQuality mode + 10
          else
            filled } := by
  have copiedQuality :=
    topology_copyLinkQualities localDistinct distinct covered blank
  have copiedFrame :
      (copyLinkQualities localMat confirmed).idOfActiveNodes =
          confirmed.idOfActiveNodes ∧
        (copyLinkQualities localMat confirmed).topology.link =
          confirmed.topology.link :=
    ⟨rfl, rfl⟩
  have copiedDistinct :
      (copyLinkQualities localMat confirmed).idOfActiveNodes.Nodup :=
    distinct
  have filledQuality := topology_fillLinkQualities copiedDistinct mode
  have filledFrame :
      (fillLinkQualities mode
          (copyLinkQualities localMat confirmed)).idOfActiveNodes =
          confirmed.idOfActiveNodes ∧
        (fillLinkQualities mode
          (copyLinkQualities localMat confirmed)).myId = confirmed.myId :=
    ⟨rfl, rfl⟩
  have filledDistinct :
      (fillLinkQualities mode
        (copyLinkQualities localMat confirmed)).idOfActiveNodes.Nodup :=
    distinct
  have boostedQuality :=
    topology_boostDirectLink filledDistinct selfListed mode otherIp
  obtain ⟨boostedIds, _, boostedMatrix, boostedCreated, boostedAge⟩ :=
    boostDirectLink_frame mode
      (fillLinkQualities mode (copyLinkQualities localMat confirmed)) otherIp
  apply Topology.ext
  · simp only [TdmaMatrix.topology, boostedIds]
    rfl
  · simp only [TdmaMatrix.topology, boostedIds, boostedMatrix]
    rfl
  · funext a b
    simp only [boostedQuality, filledQuality, copiedQuality, copiedFrame,
      filledFrame]
  · simp only [TdmaMatrix.topology, boostedIds, boostedCreated]
    rfl
  · simp only [TdmaMatrix.topology, boostedIds, boostedAge]
    rfl

/--
Whatever the beacon lists, the merged topology is that of the confirmed
matrix, with the rated local qualities filled and boosted.
-/
theorem topology_mergedMatrix_of_confirmed
    (mode : LinkQualityMode)
    {mine : TdmaMatrix}
    (distinct : mine.idOfActiveNodes.Nodup)
    (selfListed : mine.myId ∈ mine.idOfActiveNodes)
    (newMat : TdmaMatrix)
    (otherIp : UInt8)
    (time : ℚ) :
    (mergedMatrix mode mine newMat otherIp time).topology =
      { (confirmedMatrix mine newMat otherIp time).topology with
        quality := fun a b =>
          let received :=
            (mine.topology.rate mine.myId otherIp
              (adjustQuality · false)).quality a b
          let filled :=
            if a ∈ discoverIds mine newMat ∧ b ∈ discoverIds mine newMat ∧
                a ≠ b ∧
                (confirmedMatrix mine newMat otherIp time).topology.link
                    a b = 1 ∧
                received = 0 then
              initialLinkQuality mode
            else
              received
          if a = mine.myId ∧ b = otherIp ∧
              otherIp ∈ discoverIds mine newMat ∧
              filled < initialLinkQuality mode + 10 then
            initialLinkQuality mode + 10
          else
            filled } := by
  have rated :=
    topology_updateLinkQuality distinct selfListed otherIp false
  have frame := inFrame_confirmedMatrix mine newMat otherIp time
  have localDistinct :
      (updateLinkQuality mine otherIp false).idOfActiveNodes.Nodup := by
    simpa using distinct
  have confirmedDistinct :
      (confirmedMatrix mine newMat otherIp time).idOfActiveNodes.Nodup := by
    rw [frame.ids]
    exact nodup_discoverIds distinct newMat
  have covered :
      ∀ id ∈ (updateLinkQuality mine otherIp false).idOfActiveNodes,
        id ∈ (confirmedMatrix mine newMat otherIp
          time).idOfActiveNodes := by
    intro id listed
    rw [frame.ids, mem_discoverIds]
    exact .inl (by simpa using listed)
  have selfConfirmed :
      (confirmedMatrix mine newMat otherIp time).myId ∈
        (confirmedMatrix mine newMat otherIp time).idOfActiveNodes := by
    rw [frame.myId, frame.ids, mem_discoverIds]
    exact .inl selfListed
  rw [mergedMatrix_eq, topology_qualityPasses mode localDistinct
    confirmedDistinct covered selfConfirmed frame.linkQuality otherIp]
  simp only [rated, frame.ids, frame.myId]

/--
`matrix_update` computes the merge of topologies: the arrays it builds in
the re-sorted key order hold exactly the merged cells.
-/
theorem topology_mergedMatrix
    (mode : LinkQualityMode)
    {mine newMat : TdmaMatrix}
    (distinct : mine.idOfActiveNodes.Nodup)
    (selfListed : mine.myId ∈ mine.idOfActiveNodes)
    (newDistinct : newMat.idOfActiveNodes.Nodup)
    (otherIp : UInt8)
    (time : ℚ) :
    (mergedMatrix mode mine newMat otherIp time).topology =
      mine.topology.merge mode newMat.report mine.myId otherIp time := by
  have rated :=
    topology_updateLinkQuality distinct selfListed otherIp false
  have localDistinct :
      (updateLinkQuality mine otherIp false).idOfActiveNodes.Nodup := by
    simpa using distinct
  have localListed :
      (updateLinkQuality mine otherIp false).myId ∈
        (updateLinkQuality mine otherIp false).idOfActiveNodes := by
    simpa using selfListed
  obtain ⟨links, created, ages⟩ :=
    topology_confirmedMatrix localDistinct localListed newDistinct otherIp
      time (rfl : confirmedMatrix mine newMat otherIp time = _)
  have frame := inFrame_confirmedMatrix mine newMat otherIp time
  have members :
      ∀ k, k ∈ discoverIds mine newMat ↔
        k ∈ mine.topology.members ∪ newMat.report.members := by
    intro k
    rw [mem_discoverIds, Finset.mem_union, TdmaMatrix.mem_members,
      TdmaMatrix.mem_report_members]
  rw [myId_updateLinkQuality, rated] at links created ages
  rw [topology_mergedMatrix_of_confirmed mode distinct selfListed]
  apply Topology.ext
  · ext k
    rw [TdmaMatrix.mem_members, frame.ids]
    exact members k
  · exact links
  · funext a b
    simp only [links, members]
    rfl
  · exact created
  · exact ages

/-!
## The merge read by identifier
-/

/-- The report of `k` takes the place of the row of `k`. -/
def ReplacesRow
    (mine newMat : TdmaMatrix)
    (otherIp : UInt8)
    (time : ℚ)
    (k : UInt8) : Prop :=
  k ∈ newMat.idOfActiveNodes ∧
    newMat.report.age k < maxAge ∧
    (k ∉ mine.idOfActiveNodes ∨
      mine.topology.created k < time - newMat.report.age k) ∧
    (k = otherIp ∨ k ∉ mine.idOfActiveNodes ∨
      time - mine.topology.created k < maxAge)

/--
What `matrix_update` makes of the rows and creation times, read by
identifier; the cell of an unlisted identifier reads as zero.
-/
structure MergesById
    (mine newMat merged : TdmaMatrix)
    (otherIp : UInt8)
    (time : ℚ) : Prop where
  distinct : merged.idOfActiveNodes.Nodup
  union :
    ∀ id, id ∈ merged.idOfActiveNodes ↔
      id ∈ mine.idOfActiveNodes ∨ id ∈ newMat.idOfActiveNodes
  ownRow :
    ∀ b ∈ merged.idOfActiveNodes,
      merged.topology.link mine.myId b =
        if b = otherIp then 1 else mine.topology.link mine.myId b
  replacedRow :
    ∀ k, k ≠ mine.myId → ReplacesRow mine newMat otherIp time k →
      ∀ b, merged.topology.link k b = newMat.report.link k b
  keptRow :
    ∀ k, k ≠ mine.myId → ¬ ReplacesRow mine newMat otherIp time k →
      ∀ b, merged.topology.link k b = mine.topology.link k b
  ownCreation :
    merged.topology.created mine.myId =
      if otherIp ∈ merged.idOfActiveNodes then time
      else mine.topology.created mine.myId
  restartedCreation :
    ∀ k, k ≠ mine.myId → ReplacesRow mine newMat otherIp time k →
      (k = otherIp ∨ k ∉ mine.idOfActiveNodes) →
      merged.topology.created k = time - newMat.report.age k
  keptCreation :
    ∀ k, k ≠ mine.myId →
      ¬ (ReplacesRow mine newMat otherIp time k ∧
        (k = otherIp ∨ k ∉ mine.idOfActiveNodes)) →
      merged.topology.created k = mine.topology.created k

/-- A report of another node is accepted exactly when it replaces the row. -/
theorem accepts_iff_replacesRow
    {mine newMat : TdmaMatrix}
    {otherIp : UInt8}
    {time : ℚ}
    {k : UInt8}
    (notSelf : k ≠ mine.myId) :
    mine.topology.Accepts newMat.report mine.myId otherIp time k ↔
      ReplacesRow mine newMat otherIp time k := by
  unfold Topology.Accepts ReplacesRow
  rw [TdmaMatrix.mem_members, TdmaMatrix.mem_report_members]
  constructor
  · rintro ⟨reported, _, recent, mayRevive, newer⟩
    exact ⟨reported, recent, newer, mayRevive⟩
  · rintro ⟨reported, recent, newer, mayRevive⟩
    exact ⟨reported, notSelf, recent, mayRevive, newer⟩

section OtherNodes

variable {mine newMat : TdmaMatrix}
variable (mode : LinkQualityMode)
variable (distinct : mine.idOfActiveNodes.Nodup)
variable (selfListed : mine.myId ∈ mine.idOfActiveNodes)
variable (newDistinct : newMat.idOfActiveNodes.Nodup)
variable {otherIp k : UInt8} {time : ℚ}
variable (notSelf : k ≠ mine.myId)
include distinct selfListed newDistinct notSelf

/-- An accepted report gives the row; the node itself sets its creation time. -/
theorem mergedMatrix_of_replacesRow
    (replaces : ReplacesRow mine newMat otherIp time k) :
    (∀ b,
        (mergedMatrix mode mine newMat otherIp time).topology.link k b =
          newMat.report.link k b) ∧
      (mergedMatrix mode mine newMat otherIp time).topology.created k =
        if k = otherIp ∨ k ∉ mine.idOfActiveNodes then
          time - newMat.report.age k
        else
          mine.topology.created k := by
  have accepted := (accepts_iff_replacesRow notSelf).mpr replaces
  rw [topology_mergedMatrix mode distinct selfListed newDistinct otherIp time]
  constructor
  · intro b
    exact (Topology.mergedLink_of_ne notSelf b).trans (if_pos accepted)
  · refine (Topology.mergedCreated_of_ne notSelf).trans ?_
    simp only [accepted, true_and, TdmaMatrix.mem_members]

/-- Without an accepted report the row and the creation time stay. -/
theorem mergedMatrix_of_not_replacesRow
    (keeps : ¬ ReplacesRow mine newMat otherIp time k) :
    (∀ b,
        (mergedMatrix mode mine newMat otherIp time).topology.link k b =
          mine.topology.link k b) ∧
      (mergedMatrix mode mine newMat otherIp time).topology.created k =
        mine.topology.created k := by
  have rejected := (accepts_iff_replacesRow notSelf).not.mpr keeps
  rw [topology_mergedMatrix mode distinct selfListed newDistinct otherIp time]
  constructor
  · intro b
    exact (Topology.mergedLink_of_ne notSelf b).trans (if_neg rejected)
  · exact (Topology.mergedCreated_of_ne notSelf).trans
      (if_neg (fun both => rejected both.1))

end OtherNodes

/--
For every beacon with distinct identifiers that another node sends,
`matrix_update` merges rows and creation times by identifier.
-/
theorem matrixUpdate_mergesById
    (mode : LinkQualityMode)
    {mine newMat : TdmaMatrix}
    (distinct : mine.idOfActiveNodes.Nodup)
    (selfListed : mine.myId ∈ mine.idOfActiveNodes)
    (newDistinct : newMat.idOfActiveNodes.Nodup)
    {otherIp : UInt8}
    (fromAnother : otherIp ≠ mine.myId)
    (time : ℚ) :
    MergesById mine newMat (mergedMatrix mode mine newMat otherIp time)
      otherIp time := by
  have merges :=
    topology_mergedMatrix mode distinct selfListed newDistinct otherIp time
  have union :
      ∀ id, id ∈ (mergedMatrix mode mine newMat otherIp time).idOfActiveNodes ↔
        id ∈ mine.idOfActiveNodes ∨ id ∈ newMat.idOfActiveNodes := by
    intro id
    rw [idOfActiveNodes_mergedMatrix, mem_discoverIds]
  have ownNotAccepted :
      ¬ mine.topology.Accepts newMat.report mine.myId otherIp time
        mine.myId :=
    fun accepted => accepted.2.1 rfl
  refine ⟨?_, union, ?_, ?_, ?_, ?_, ?_, ?_⟩
  · rw [idOfActiveNodes_mergedMatrix]
    exact nodup_discoverIds distinct newMat
  · intro b listed
    have known :
        otherIp ∈ mine.topology.members ∪ newMat.report.members ↔
          otherIp ∈
            (mergedMatrix mode mine newMat otherIp time).idOfActiveNodes := by
      rw [union, Finset.mem_union, TdmaMatrix.mem_members,
        TdmaMatrix.mem_report_members]
    simp only [merges, Topology.merge, Topology.mergedLink, known,
      if_neg ownNotAccepted, true_and]
    by_cases isOther : b = otherIp
    · subst isOther
      rw [if_pos ⟨rfl, listed⟩, if_pos rfl]
    · rw [if_neg (fun both => isOther both.1), if_neg isOther]
  · intro k notSelf replaces
    exact (mergedMatrix_of_replacesRow mode distinct selfListed newDistinct
      notSelf replaces).1
  · intro k notSelf keeps
    exact (mergedMatrix_of_not_replacesRow mode distinct selfListed
      newDistinct notSelf keeps).1
  · simp only [merges, Topology.merge, Topology.mergedCreated,
      if_neg ownNotAccepted, true_and, union, Finset.mem_union,
      TdmaMatrix.mem_members, TdmaMatrix.mem_report_members]
  · intro k notSelf replaces restarts
    exact (mergedMatrix_of_replacesRow mode distinct selfListed newDistinct
      notSelf replaces).2.trans (if_pos restarts)
  · intro k notSelf keeps
    by_cases replaces : ReplacesRow mine newMat otherIp time k
    · exact (mergedMatrix_of_replacesRow mode distinct selfListed newDistinct
        notSelf replaces).2.trans
          (if_neg (fun restarts => keeps ⟨replaces, restarts⟩))
    · exact (mergedMatrix_of_not_replacesRow mode distinct selfListed
        newDistinct notSelf replaces).2

/-- A beacon of node 2, which lists node 3 first and hears it. -/
def beaconOfSecond : TdmaMatrix :=
  { TdmaMatrix.zeroed 0 [3, 2] with
    matrix := fun i j => if i = 1 ∧ j = 0 then 1 else 0
    age := fun i => if i = 0 then 1 else 0 }

/-- Node 1 merges it one second after its start. -/
theorem matrixUpdate_mergesById_beaconOfSecond :
    MergesById (matrixInit 1 0) beaconOfSecond
      (mergedMatrix .test (matrixInit 1 0) beaconOfSecond 2 1) 2 1 :=
  matrixUpdate_mergesById .test (by decide) (by decide) (by decide)
    (by decide) 1

end RoutingMesh
