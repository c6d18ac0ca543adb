import Mathlib.Logic.Function.Basic
import RoutingMesh.BitWindow
import RoutingMesh.SlotGate
import RoutingMesh.StepRun

/-!
# The loss window

`receiver_loop` notes the frame of each beacon, and `tx_loop`, once a frame
and outside its slot, shifts one bit for each neighbour into a window of 16
frames and calls `MATRIX_updateLinkQuality` when fewer than 60 per cent of
the window are received.  The percentage is over 16 frames from the start, so
it is that of the frames observed once there are 16 of them, or ten of them
were received, or so few were that both percentages are low.
-/

namespace RoutingMesh

open BitWindow

/-- `STARTUP_GRACE_US`. -/
def startupGraceUs : UInt64 := 10000000

/-- `LOSS_WINDOW`. -/
def lossWindow : Nat := 16

/-- `LOSS_THRESHOLD_PCT`. -/
def lossThresholdPct : Nat := 60

/--
`g_last_rx_frame` and the variables of `tx_loop` that the loss detection uses;
`calls` are the ids for which it called `MATRIX_updateLinkQuality`.
-/
structure LossState where
  lastRxFrame : UInt8 → UInt64
  lastRound : UInt64
  rxWindow : UInt8 → BitVec lossWindow
  seen : UInt8 → Bool
  degraded : UInt8 → Bool
  calls : List UInt8

/-- `tx_loop` starts; beacons may have come before. -/
def lossStart (lastRxFrame : UInt8 → UInt64) : LossState where
  lastRxFrame := lastRxFrame
  lastRound := 0
  rxWindow := fun _ => 0
  seen := fun _ => false
  degraded := fun _ => false
  calls := []

/-- A beacon, or a pass of `tx_loop` with what `sync_in_slot` says. -/
inductive LossAction where
  | beacon (slotId : UInt8) (nowUs : UInt64)
  | pass (inSlot : Bool) (nowUs laterUs : UInt64)
  deriving Repr, DecidableEq

section

variable (nodeId numNodes : UInt8)
variable (startTime : UInt64)

/-- `cur_round`. -/
def curRound (nowUs : UInt64) : UInt64 :=
  nowUs / UInt64.ofNat (roundUs numNodes.toNat)

/-- `received`. -/
def LossState.received
    (state : LossState)
    (round : UInt64)
    (nid : UInt8) : Bool :=
  decide (round - 1 ≤ state.lastRxFrame nid)

/-- `rx_window` of a neighbour after the frame. -/
def LossState.nextWindow
    (state : LossState)
    (round : UInt64)
    (nid : UInt8) : BitVec lossWindow :=
  shiftIn (state.rxWindow nid) (state.received round nid)

/-- `pct`. -/
def LossState.pct
    (state : LossState)
    (round : UInt64)
    (nid : UInt8) : Nat :=
  popcount (state.nextWindow round nid) * 100 / lossWindow

/-- One round of the loop over the neighbours. -/
def checkNeighbour
    (round : UInt64)
    (state : LossState)
    (nid : UInt8) : LossState :=
  if nid = nodeId then
    state
  else if state.lastRxFrame nid = 0 then
    state
  else if state.pct round nid < lossThresholdPct then
    { state with
      seen := Function.update state.seen nid true
      rxWindow :=
        Function.update state.rxWindow nid (state.nextWindow round nid)
      calls := state.calls ++ [nid]
      degraded := Function.update state.degraded nid true }
  else
    { state with
      seen := Function.update state.seen nid true
      rxWindow :=
        Function.update state.rxWindow nid (state.nextWindow round nid)
      degraded := Function.update state.degraded nid false }

/-- A pass of `tx_loop` that is not in its slot. -/
def lossPass
    (nowUs laterUs : UInt64)
    (state : LossState) : LossState :=
  if curRound numNodes nowUs ≠ state.lastRound then
    let entered := { state with lastRound := curRound numNodes nowUs }
    if laterUs - startTime < startupGraceUs then
      entered
    else
      (nodeIds numNodes).foldl
        (checkNeighbour nodeId (curRound numNodes nowUs)) entered
  else
    state

/-- A beacon that `receiver_loop` gets, or a pass of `tx_loop`. -/
def lossStep
    (state : LossState) : LossAction → LossState
  | .beacon slotId nowUs =>
      if slotId.toNat ≤ maxNodes then
        { state with
          lastRxFrame :=
            Function.update state.lastRxFrame slotId
              (curRound numNodes nowUs) }
      else
        state
  | .pass inSlot nowUs laterUs =>
      if inSlot then
        state
      else
        lossPass nodeId numNodes startTime nowUs laterUs state

/-! ## What a round of the loop changes -/

/-- A neighbour that is not skipped: another node, and it was heard. -/
def Heard
    (state : LossState)
    (nid : UInt8) : Prop :=
  nid ≠ nodeId ∧ state.lastRxFrame nid ≠ 0

instance (state : LossState) (nid : UInt8) :
    Decidable (Heard nodeId state nid) :=
  inferInstanceAs (Decidable (_ ∧ _))

/-- The neighbours for which `MATRIX_updateLinkQuality` is called. -/
def Loses
    (round : UInt64)
    (state : LossState)
    (nid : UInt8) : Prop :=
  Heard nodeId state nid ∧ state.pct round nid < lossThresholdPct

instance (round : UInt64) (state : LossState) (nid : UInt8) :
    Decidable (Loses nodeId round state nid) :=
  inferInstanceAs (Decidable (_ ∧ _))

/-- The ids that were checked have the next window, and may be called for. -/
structure Checked
    (round : UInt64)
    (nids : List UInt8)
    (before after : LossState) : Prop where
  lastRxFrame : after.lastRxFrame = before.lastRxFrame
  rxWindow :
    ∀ nid,
      after.rxWindow nid =
        if nid ∈ nids ∧ Heard nodeId before nid then
          before.nextWindow round nid
        else
          before.rxWindow nid
  calls :
    after.calls =
      before.calls ++ nids.filter fun nid => Loses nodeId round before nid

variable {nodeId}

theorem checked_nil
    (round : UInt64)
    (state : LossState) :
    Checked nodeId round [] state state where
  lastRxFrame := rfl
  rxWindow nid := by simp
  calls := by simp

/-- One check concerns one neighbour. -/
theorem checked_checkNeighbour
    (round : UInt64)
    (state : LossState)
    (nid : UInt8) :
    Checked nodeId round [nid] state
      (checkNeighbour nodeId round state nid) := by
  unfold checkNeighbour
  split
  · rename_i isSelf
    constructor <;> grind [Heard, Loses]
  · rename_i notSelf
    split
    · rename_i neverSeen
      constructor <;> grind [Heard, Loses]
    · rename_i wasSeen
      split
      · rename_i low
        constructor <;> grind [Heard, Loses, Function.update]
      · rename_i enough
        constructor <;> grind [Heard, Loses, Function.update]

/-- A check after the checks of other neighbours. -/
theorem Checked.append_singleton
    {round : UInt64}
    {nids : List UInt8}
    {before after : LossState}
    (checked : Checked nodeId round nids before after)
    {nid : UInt8}
    (fresh : nid ∉ nids) :
    Checked nodeId round (nids ++ [nid]) before
      (checkNeighbour nodeId round after nid) := by
  have last :
      Checked nodeId round [nid] after
        (checkNeighbour nodeId round after nid) :=
    checked_checkNeighbour round after nid
  have sameHeard
      (other : UInt8) :
      Heard nodeId after other ↔ Heard nodeId before other := by
    rw [Heard, Heard, checked.lastRxFrame]
  have sameWindow :
      after.nextWindow round nid = before.nextWindow round nid := by
    rw [LossState.nextWindow, LossState.nextWindow, LossState.received,
      LossState.received, checked.lastRxFrame, checked.rxWindow nid,
      if_neg fun listed => fresh listed.1]
  have sameLoses :
      Loses nodeId round after nid ↔ Loses nodeId round before nid := by
    rw [Loses, Loses, sameHeard, LossState.pct, LossState.pct, sameWindow]
  constructor
  · exact last.lastRxFrame.trans checked.lastRxFrame
  · intro other
    rw [last.rxWindow other, checked.rxWindow other]
    grind
  · rw [last.calls, checked.calls, List.filter_append, List.append_assoc]
    simp [List.filter_cons, sameLoses]

/-- The checks of different neighbours do not touch each other. -/
theorem checked_foldl
    (round : UInt64)
    (state : LossState)
    {nids : List UInt8}
    (distinct : nids.Nodup) :
    Checked nodeId round nids state
      (nids.foldl (checkNeighbour nodeId round) state) := by
  induction nids using List.reverseRecOn with
  | nil =>
      exact checked_nil round state
  | append_singleton rest last inductionHypothesis =>
      rw [List.nodup_append'] at distinct
      rw [List.foldl_append]
      exact (inductionHypothesis distinct.1).append_singleton
        fun listed => distinct.2.2 listed (List.mem_singleton_self last)

end

/-! ## The frames that are observed -/

section

variable (nodeId numNodes : UInt8)
variable (startTime : UInt64)

/-- The pass enters a new frame, outside the slot and after the grace period. -/
def ChecksLoss
    (state : LossState) : LossAction → Prop
  | .beacon _ _ => False
  | .pass inSlot nowUs laterUs =>
      inSlot = false ∧
        curRound numNodes nowUs ≠ state.lastRound ∧
        ¬ laterUs - startTime < startupGraceUs

instance (state : LossState) (action : LossAction) :
    Decidable (ChecksLoss numNodes startTime state action) :=
  match action with
  | .beacon _ _ => isFalse not_false
  | .pass _ _ _ => inferInstanceAs (Decidable (_ ∧ _))

/-- The id is that of another node of the network. -/
def IsNeighbour (nid : UInt8) : Prop :=
  0 < nid ∧ nid ≤ numNodes ∧ nid ≠ nodeId

instance (nid : UInt8) : Decidable (IsNeighbour nodeId numNodes nid) :=
  inferInstanceAs (Decidable (_ ∧ _))

/-- A frame of a neighbour that was heard is observed. -/
def Observes
    (state : LossState)
    (action : LossAction)
    (nid : UInt8) : Prop :=
  ChecksLoss numNodes startTime state action ∧
    IsNeighbour nodeId numNodes nid ∧
    state.lastRxFrame nid ≠ 0

instance (state : LossState) (action : LossAction) (nid : UInt8) :
    Decidable (Observes nodeId numNodes startTime state action nid) :=
  inferInstanceAs (Decidable (_ ∧ _))

/-- The frame that an action belongs to. -/
def LossAction.round : LossAction → UInt64
  | beacon _ nowUs => curRound numNodes nowUs
  | pass _ nowUs _ => curRound numNodes nowUs

/-- The reception flag of the frame, when it is observed. -/
def receptionFlag
    (nid : UInt8)
    (state : LossState)
    (action : LossAction) : List Bool :=
  if Observes nodeId numNodes startTime state action nid then
    [state.received (action.round numNodes) nid]
  else
    []

/-- The state after the actions of a run. -/
def lossAfter
    (lastRxFrame : UInt8 → UInt64)
    (actions : List LossAction) : LossState :=
  actions.foldl (lossStep nodeId numNodes startTime) (lossStart lastRxFrame)

/-- The reception flags of a run, since the neighbour was first heard. -/
def flagsAfter
    (lastRxFrame : UInt8 → UInt64)
    (nid : UInt8)
    (actions : List LossAction) : List Bool :=
  StepRun.trace (lossStep nodeId numNodes startTime)
    (receptionFlag nodeId numNodes startTime nid) (lossStart lastRxFrame)
    actions

/-- The action calls `MATRIX_updateLinkQuality` for the neighbour. -/
def CallsFor
    (state : LossState)
    (action : LossAction)
    (nid : UInt8) : Prop :=
  ∃ called,
    (lossStep nodeId numNodes startTime state action).calls =
        state.calls ++ called ∧
      nid ∈ called

variable {nodeId numNodes}
variable {startTime}

/-- A pass that enters a frame checks every neighbour. -/
theorem checked_lossStep
    {state : LossState}
    {action : LossAction}
    (checks : ChecksLoss numNodes startTime state action) :
    Checked nodeId (action.round numNodes) (nodeIds numNodes) state
      (lossStep nodeId numNodes startTime state action) := by
  cases action with
  | beacon slotId nowUs =>
      exact checks.elim
  | pass inSlot nowUs laterUs =>
      obtain ⟨rfl, newRound, afterGrace⟩ := checks
      have loop :
          Checked nodeId (curRound numNodes nowUs) (nodeIds numNodes)
            { state with lastRound := curRound numNodes nowUs } _ :=
        checked_foldl _ _ (nodup_nodeIds numNodes)
      simp only [lossStep, Bool.false_eq_true, if_false, lossPass, ne_eq,
        newRound, not_false_eq_true, if_true, afterGrace]
      exact ⟨loop.lastRxFrame, loop.rxWindow, loop.calls⟩

/-- Another action leaves the windows and makes no call. -/
theorem lossStep_of_not_checksLoss
    {state : LossState}
    {action : LossAction}
    (skips : ¬ ChecksLoss numNodes startTime state action) :
    (lossStep nodeId numNodes startTime state action).rxWindow =
        state.rxWindow ∧
      (lossStep nodeId numNodes startTime state action).calls =
        state.calls := by
  cases action with
  | beacon slotId nowUs =>
      simp only [lossStep]
      split <;> exact ⟨rfl, rfl⟩
  | pass inSlot nowUs laterUs =>
      cases inSlot with
      | true =>
          exact ⟨rfl, rfl⟩
      | false =>
          simp only [lossStep, Bool.false_eq_true, if_false, lossPass]
          split
          · rename_i newRound
            have inGrace : laterUs - startTime < startupGraceUs := by
              by_contra afterGrace
              exact skips ⟨rfl, newRound, afterGrace⟩
            rw [if_pos inGrace]
            exact ⟨rfl, rfl⟩
          · exact ⟨rfl, rfl⟩

/-- What an action does to the window of a neighbour. -/
theorem rxWindow_lossStep
    (state : LossState)
    (action : LossAction)
    {nid : UInt8}
    (isNeighbour : IsNeighbour nodeId numNodes nid) :
    (lossStep nodeId numNodes startTime state action).rxWindow nid =
      if Observes nodeId numNodes startTime state action nid then
        state.nextWindow (action.round numNodes) nid
      else
        state.rxWindow nid := by
  have listed : nid ∈ nodeIds numNodes :=
    mem_nodeIds.mpr ⟨isNeighbour.1, isNeighbour.2.1⟩
  by_cases checks : ChecksLoss numNodes startTime state action
  · rw [(checked_lossStep checks).rxWindow nid]
    simp [Observes, checks, isNeighbour, listed, Heard, isNeighbour.2.2]
  · rw [(lossStep_of_not_checksLoss checks).1]
    simp [Observes, checks]

/-- The neighbours for which an action calls `MATRIX_updateLinkQuality`. -/
theorem callsFor_iff
    {state : LossState}
    {action : LossAction}
    {nid : UInt8} :
    CallsFor nodeId numNodes startTime state action nid ↔
      Observes nodeId numNodes startTime state action nid ∧
        state.pct (action.round numNodes) nid < lossThresholdPct := by
  by_cases checks : ChecksLoss numNodes startTime state action
  · have called :
        (lossStep nodeId numNodes startTime state action).calls = _ :=
      (checked_lossStep checks).calls
    simp only [CallsFor, called, List.append_cancel_left_eq,
      exists_eq_left', List.mem_filter, mem_nodeIds, decide_eq_true_eq]
    simp only [Loses, Heard, Observes, checks, IsNeighbour, true_and]
    tauto
  · have noCall :
        (lossStep nodeId numNodes startTime state action).calls =
          state.calls :=
      (lossStep_of_not_checksLoss checks).2
    simp [CallsFor, noCall, Observes, checks]

/-! ## The window of a run -/

/-- An action adds its flag, if it observes a frame. -/
theorem flagsAfter_append_singleton
    (lastRxFrame : UInt8 → UInt64)
    (nid : UInt8)
    (actions : List LossAction)
    (action : LossAction) :
    flagsAfter nodeId numNodes startTime lastRxFrame nid
        (actions ++ [action]) =
      flagsAfter nodeId numNodes startTime lastRxFrame nid actions ++
        receptionFlag nodeId numNodes startTime nid
          (lossAfter nodeId numNodes startTime lastRxFrame actions) action :=
  StepRun.trace_append_singleton _ _ _ _

/-- The window holds the flags of the frames observed so far. -/
theorem holds_flagsAfter
    (lastRxFrame : UInt8 → UInt64)
    (actions : List LossAction)
    {nid : UInt8}
    (isNeighbour : IsNeighbour nodeId numNodes nid) :
    Holds
      ((lossAfter nodeId numNodes startTime lastRxFrame actions).rxWindow nid)
      (flagsAfter nodeId numNodes startTime lastRxFrame nid
        actions).reverse := by
  induction actions using List.reverseRecOn with
  | nil =>
      exact holds_zero
  | append_singleton rest action inductionHypothesis =>
      rw [flagsAfter_append_singleton, List.reverse_append, lossAfter,
        List.foldl_append, List.foldl_cons, List.foldl_nil, ← lossAfter,
        rxWindow_lossStep _ action isNeighbour, receptionFlag]
      split
      · exact inductionHypothesis.shiftIn _
      · exact inductionHypothesis

end

/-! ## The percentage and the frames observed -/

/-- The flags of the last frames of the window, the newest first. -/
def lastFlags (flags : List Bool) : List Bool :=
  flags.reverse.take lossWindow

/-- Fewer than LOSS_THRESHOLD_PCT per cent of the last frames were received. -/
def FewReceived (flags : List Bool) : Prop :=
  (lastFlags flags).count true * 100 <
    lossThresholdPct * (lastFlags flags).length

instance : DecidablePred FewReceived :=
  fun _ => inferInstanceAs (Decidable (_ < _))

/-- A percentage of 16 frames leads to the same as one of those observed. -/
def EnoughFlags (flags : List Bool) : Prop :=
  lossWindow ≤ flags.length ∨
    10 ≤ (lastFlags flags).count true ∨
    FewReceived flags

instance : DecidablePred EnoughFlags :=
  fun _ => inferInstanceAs (Decidable (_ ∨ _))

/-- The percentage of the window against that of the last flags. -/
theorem low_iff_fewReceived_iff
    (flags : List Bool) :
    ((lastFlags flags).count true * 100 / lossWindow < lossThresholdPct ↔
        FewReceived flags) ↔
      EnoughFlags flags := by
  have atMostAll : (lastFlags flags).count true ≤ (lastFlags flags).length :=
    List.count_le_length
  have atMostWindow :
      (lastFlags flags).length = min lossWindow flags.length := by
    simp [lastFlags]
  unfold EnoughFlags FewReceived lossWindow lossThresholdPct at *
  omega

/-- The percentage is that of the last flags, the new one included. -/
theorem pct_of_observes
    {nodeId numNodes : UInt8}
    {startTime : UInt64}
    {lastRxFrame : UInt8 → UInt64}
    {actions : List LossAction}
    {action : LossAction}
    {nid : UInt8}
    (observed :
      Observes nodeId numNodes startTime
        (lossAfter nodeId numNodes startTime lastRxFrame actions) action nid) :
    (lossAfter nodeId numNodes startTime lastRxFrame actions).pct
        (action.round numNodes) nid =
      (lastFlags
        (flagsAfter nodeId numNodes startTime lastRxFrame nid
          (actions ++ [action]))).count true * 100 / lossWindow := by
  have before :
      Holds
        ((lossAfter nodeId numNodes startTime lastRxFrame actions).rxWindow
          nid)
        _ :=
    holds_flagsAfter lastRxFrame actions observed.2.1
  rw [LossState.pct, LossState.nextWindow, (before.shiftIn _).popcount_eq,
    flagsAfter_append_singleton, receptionFlag, if_pos observed, lastFlags,
    List.reverse_append]
  rfl

/--
In every run, a neighbour's frame that is observed leads to a call of
`MATRIX_updateLinkQuality` exactly when fewer than 60 per cent of its last
min(16, observed) frames were received, if and only if 16 frames are observed,
or ten of the last ones received, or fewer than 60 per cent of them.  There is
no call for a frame that is not observed.
-/
theorem degradesOnLoss_iff
    (nodeId numNodes : UInt8)
    (startTime : UInt64)
    (lastRxFrame : UInt8 → UInt64)
    (actions : List LossAction)
    (action : LossAction)
    (nid : UInt8) :
    let state := lossAfter nodeId numNodes startTime lastRxFrame actions
    let flags :=
      flagsAfter nodeId numNodes startTime lastRxFrame nid
        (actions ++ [action])
    (Observes nodeId numNodes startTime state action nid →
        ((CallsFor nodeId numNodes startTime state action nid ↔
            FewReceived flags) ↔
          EnoughFlags flags)) ∧
      (¬ Observes nodeId numNodes startTime state action nid →
        ¬ CallsFor nodeId numNodes startTime state action nid) := by
  intro state flags
  constructor
  · intro observed
    rw [callsFor_iff, pct_of_observes observed]
    simp only [observed, true_and]
    exact low_iff_fewReceived_iff flags
  · intro notObserved calls
    exact notObserved (callsFor_iff.mp calls).1

/-- The microsecond at which a frame begins, counted from when node 1 starts. -/
def frameTime (frame : Nat) : UInt64 :=
  1700000010000000 + UInt64.ofNat (frame * roundUs 3)

/-- In a frame, the beacon of node 2 comes before the pass of node 1. -/
def hearsNode2 (frame : Nat) : List LossAction :=
  [.beacon 2 (frameTime frame + 60000),
    .pass false (frameTime frame + 70000) (frameTime frame + 70000)]

/-- The frames after the grace period; node 2 is heard in all of them. -/
def hearsTenFrames : List LossAction :=
  (List.range 10).flatMap fun frame => hearsNode2 (67 + frame)

/-- The tenth of them does not degrade. -/
theorem degradesOnLoss_hearsTenFrames :
    ¬ CallsFor 1 3 (frameTime 0)
      (lossAfter 1 3 (frameTime 0) (fun _ => 0) hearsTenFrames.dropLast)
      (.pass false (frameTime 76 + 70000) (frameTime 76 + 70000)) 2 := by
  have frame :=
    degradesOnLoss_iff 1 3 (frameTime 0) (fun _ => 0) hearsTenFrames.dropLast
      (.pass false (frameTime 76 + 70000) (frameTime 76 + 70000)) 2
  have observed :
      Observes 1 3 (frameTime 0)
        (lossAfter 1 3 (frameTime 0) (fun _ => 0) hearsTenFrames.dropLast)
        (.pass false (frameTime 76 + 70000) (frameTime 76 + 70000)) 2 := by
    decide +kernel
  rw [(frame.1 observed).mpr (by decide +kernel)]
  decide +kernel

/-- The first of them does, although node 2 was heard in it. -/
theorem degradesOnLoss_hearsFirstFrame :
    ¬ ∀ (nodeId numNodes : UInt8) (startTime : UInt64)
        (lastRxFrame : UInt8 → UInt64) (actions : List LossAction)
        (action : LossAction) (nid : UInt8),
      Observes nodeId numNodes startTime
          (lossAfter nodeId numNodes startTime lastRxFrame actions) action
          nid →
        (CallsFor nodeId numNodes startTime
            (lossAfter nodeId numNodes startTime lastRxFrame actions) action
            nid ↔
          FewReceived
            (flagsAfter nodeId numNodes startTime lastRxFrame nid
              (actions ++ [action]))) := by
  intro always
  have observed :
      Observes 1 3 (frameTime 0)
        (lossAfter 1 3 (frameTime 0) (fun _ => 0) (hearsNode2 67).dropLast)
        (.pass false (frameTime 67 + 70000) (frameTime 67 + 70000)) 2 := by
    decide +kernel
  have called := callsFor_iff.mpr ⟨observed, by decide +kernel⟩
  have few := (always 1 3 _ _ _ _ _ observed).mp called
  revert few
  decide +kernel

end RoutingMesh
