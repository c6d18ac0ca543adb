import RoutingMesh.DataFraming

/-!
# The byte budget of a slot

The drain loop of `tx_loop` admits a packet by its headers and data and counts
what `send` took of the frame, which has four bytes of length in front.  So
`bytes_sent` stays within `MAX_BYTES_SLOT` exactly in the runs in which no
packet that leaves less than these four bytes is sent beyond the budget.
-/

namespace RoutingMesh

/-- `frame_len`: the length in front, the headers and the data. -/
def frameLen (pkt : TxPacket) : Nat :=
  4 + (headerSize + msgDataHdrWire + pkt.dataLen.toNat)

/-- `bytes_sent`, where the drain loop is running. -/
def TxPhase.bytesSent : TxPhase → Nat
  | .outside => 0
  | .draining bytesSent => bytesSent
  | .holding _ bytesSent => bytesSent

/-- The bytes counted so far are within the budget of the slot. -/
def WithinBudget (state : TxState) : Prop :=
  state.phase.bytesSent ≤ maxBytesSlot

/-- The value of `bytes_sent` when a step leaves the drain loop. -/
def bytesAtExit
    (nodeId : UInt8)
    (state : TxState)
    (action : TxAction) : List Nat :=
  match state.phase, (txStep nodeId state action).phase with
  | .outside, _ => []
  | phase, .outside => [phase.bytesSent]
  | _, _ => []

/-- A `send` takes at most the frame. -/
def SendsFrame (state : TxState) : TxAction → Prop
  | .handle _ _ (.sent bytes) =>
      match state.phase with
      | .holding pkt _ => bytes ≤ frameLen pkt
      | _ => True
  | _ => True

/-- The steps of the two threads, with what `send` can return. -/
def SendEnabled (state : TxState) (action : TxAction) : Prop :=
  TxEnabled state action ∧ SendsFrame state action

/--
The headers and the data of a packet still fit in the budget, but its frame
does not.
-/
def LengthOverBudget (bytesSent : Nat) (pkt : TxPacket) : Prop :=
  overBudget bytesSent pkt = false ∧ maxBytesSlot < bytesSent + frameLen pkt

/--
Where the length in front is what does not fit, `send` takes no more than the
rest of the budget.
-/
def LengthFits (state : TxState) : TxAction → Prop
  | .handle slotEnded nextHop (.sent bytes) =>
      match state.phase with
      | .holding pkt bytesSent =>
          slotEnded = false → nextHop ≠ 0 → LengthOverBudget bytesSent pkt →
            bytes ≤ maxBytesSlot - bytesSent
      | _ => True
  | _ => True

instance (state : TxState) : DecidablePred (SendsFrame state)
  | .tunRead _ _ => .isTrue trivial
  | .beginSlot => .isTrue trivial
  | .pop => .isTrue trivial
  | .handle _ _ .unknownAddress => .isTrue trivial
  | .handle _ _ .noConnection => .isTrue trivial
  | .handle _ _ .failed => .isTrue trivial
  | .handle _ _ (.sent bytes) =>
      match state with
      | { phase := .outside, .. } => .isTrue trivial
      | { phase := .draining _, .. } => .isTrue trivial
      | { phase := .holding pkt _, .. } =>
          inferInstanceAs (Decidable (bytes ≤ frameLen pkt))

instance (state : TxState) (action : TxAction) :
    Decidable (SendEnabled state action) :=
  inferInstanceAs (Decidable (_ ∧ _))

instance (bytesSent : Nat) (pkt : TxPacket) :
    Decidable (LengthOverBudget bytesSent pkt) :=
  inferInstanceAs (Decidable (_ ∧ _))

instance (state : TxState) : DecidablePred (LengthFits state)
  | .tunRead _ _ => .isTrue trivial
  | .beginSlot => .isTrue trivial
  | .pop => .isTrue trivial
  | .handle _ _ .unknownAddress => .isTrue trivial
  | .handle _ _ .noConnection => .isTrue trivial
  | .handle _ _ .failed => .isTrue trivial
  | .handle slotEnded nextHop (.sent bytes) =>
      match state with
      | { phase := .outside, .. } => .isTrue trivial
      | { phase := .draining _, .. } => .isTrue trivial
      | { phase := .holding pkt bytesSent, .. } =>
          inferInstanceAs
            (Decidable
              (slotEnded = false → nextHop ≠ 0 →
                LengthOverBudget bytesSent pkt →
                  bytes ≤ maxBytesSlot - bytesSent))

/-- The budget holds in every state of a run, and whenever the loop is left. -/
structure KeepsBudget
    (nodeId : UInt8)
    (initial : TxState)
    (actions : List TxAction) : Prop where
  throughout :
    StepRun.Throughout (txStep nodeId) initial WithinBudget actions
  atExit :
    ∀ bytes ∈ StepRun.trace (txStep nodeId) (bytesAtExit nodeId) initial
      actions, bytes ≤ maxBytesSlot

section

variable {nodeId : UInt8}
variable {state : TxState}

/-- A packet that goes to `send` counts with what `send` took. -/
theorem bytesSent_of_sent
    {pkt : TxPacket}
    {bytesSent : Nat}
    (isHolding : state.phase = .holding pkt bytesSent)
    {nextHop : UInt8}
    (routed : nextHop ≠ 0)
    (admitted : overBudget bytesSent pkt = false)
    (bytes : Nat) :
    (txStep nodeId state (.handle false nextHop (.sent bytes))).phase =
      .draining (bytesSent + bytes) := by
  simp [txStep, isHolding, handlePacket, routed, admitted]

/-- Whatever else happens to a packet, it does not count. -/
theorem bytesSent_handlePacket_le
    (pkt : TxPacket)
    (bytesSent : Nat)
    (slotEnded : Bool)
    (nextHop : UInt8)
    {outcome : SendOutcome}
    (notSent :
      ∀ bytes, outcome = .sent bytes →
        slotEnded = true ∨ nextHop = 0 ∨ overBudget bytesSent pkt = true) :
    (handlePacket state pkt bytesSent slotEnded nextHop
      outcome).phase.bytesSent ≤ bytesSent := by
  unfold handlePacket
  by_cases ended : slotEnded = true
  · rw [if_pos ended]
    exact Nat.zero_le bytesSent
  · rw [if_neg ended]
    by_cases noRoute : nextHop = 0
    · rw [if_pos noRoute]
      exact le_rfl
    · rw [if_neg noRoute]
      dsimp only
      by_cases exceeds : overBudget bytesSent pkt = true
      · rw [if_pos exceeds]
        exact Nat.zero_le bytesSent
      · rw [if_neg exceeds]
        cases outcome with
        | unknownAddress =>
            exact le_rfl
        | noConnection =>
            exact le_rfl
        | failed =>
            exact le_rfl
        | sent bytes =>
            rcases notSent bytes rfl with isEnded | isZero | isOver
            · exact absurd isEnded ended
            · exact absurd isZero noRoute
            · exact absurd isOver exceeds

/-- A step that counts nothing stays within the budget. -/
theorem WithinBudget.handle
    (within : WithinBudget state)
    {slotEnded : Bool}
    {nextHop : UInt8}
    {outcome : SendOutcome}
    (allowed : SendEnabled state (.handle slotEnded nextHop outcome))
    (fits : LengthFits state (.handle slotEnded nextHop outcome)) :
    WithinBudget (txStep nodeId state (.handle slotEnded nextHop outcome)) := by
  obtain ⟨queue, phase, txCounter, dataMsgId, handed, readPackets⟩ := state
  cases phase with
  | outside =>
      exact within
  | draining bytesSent =>
      exact within
  | holding pkt bytesSent =>
      have notMore : bytesSent ≤ maxBytesSlot := within
      by_cases counts :
          ∃ bytes, outcome = .sent bytes ∧ slotEnded = false ∧
            nextHop ≠ 0 ∧ overBudget bytesSent pkt = false
      · obtain ⟨bytes, rfl, rfl, routed, admitted⟩ := counts
        have frame : bytes ≤ frameLen pkt := allowed.2
        have rest : LengthOverBudget bytesSent pkt →
            bytes ≤ maxBytesSlot - bytesSent :=
          fits rfl routed
        unfold WithinBudget
        rw [bytesSent_of_sent rfl routed admitted]
        change bytesSent + bytes ≤ maxBytesSlot
        by_cases isOver : maxBytesSlot < bytesSent + frameLen pkt
        · have fitsRest := rest ⟨admitted, isOver⟩
          omega
        · omega
      · refine le_trans ?_ notMore
        refine bytesSent_handlePacket_le pkt bytesSent slotEnded nextHop ?_
        intro bytes isSent
        by_contra counted
        simp only [not_or, Bool.not_eq_true] at counted
        exact counts ⟨bytes, isSent, counted⟩

/-- A step keeps the budget where the length fits. -/
theorem WithinBudget.step
    (within : WithinBudget state)
    {action : TxAction}
    (allowed : SendEnabled state action)
    (fits : LengthFits state action) :
    WithinBudget (txStep nodeId state action) := by
  cases action with
  | tunRead data ready =>
      exact within
  | beginSlot =>
      obtain ⟨queue, phase, txCounter, dataMsgId, handed, readPackets⟩ := state
      cases phase with
      | outside =>
          exact Nat.zero_le _
      | draining bytesSent =>
          exact within
      | holding pkt bytesSent =>
          exact within
  | pop =>
      obtain ⟨queue, phase, txCounter, dataMsgId, handed, readPackets⟩ := state
      cases phase with
      | outside =>
          exact within
      | draining bytesSent =>
          cases queue with
          | nil =>
              exact Nat.zero_le _
          | cons pkt rest =>
              exact within
      | holding pkt bytesSent =>
          exact within
  | handle slotEnded nextHop outcome =>
      exact within.handle allowed fits

/-- Where it does not fit, the budget is exceeded right after the step. -/
theorem not_withinBudget_of_not_lengthFits
    {action : TxAction}
    (tooLong : ¬ LengthFits state action) :
    ¬ WithinBudget (txStep nodeId state action) := by
  obtain ⟨queue, phase, txCounter, dataMsgId, handed, readPackets⟩ := state
  cases action with
  | tunRead data ready =>
      exact absurd trivial tooLong
  | beginSlot =>
      exact absurd trivial tooLong
  | pop =>
      exact absurd trivial tooLong
  | handle slotEnded nextHop outcome =>
      cases outcome with
      | unknownAddress =>
          exact absurd trivial tooLong
      | noConnection =>
          exact absurd trivial tooLong
      | failed =>
          exact absurd trivial tooLong
      | sent bytes =>
          cases phase with
          | outside =>
              exact absurd trivial tooLong
          | draining bytesSent =>
              exact absurd trivial tooLong
          | holding pkt bytesSent =>
              simp only [LengthFits, Classical.not_imp] at tooLong
              obtain ⟨rfl, routed, isOver, exceeds⟩ := tooLong
              unfold WithinBudget
              rw [bytesSent_of_sent rfl routed isOver.1]
              change ¬ bytesSent + bytes ≤ maxBytesSlot
              omega

/-- What the loop leaves behind was counted before. -/
theorem le_of_mem_bytesAtExit
    (within : WithinBudget state)
    {action : TxAction}
    {bytes : Nat}
    (leaves : bytes ∈ bytesAtExit nodeId state action) :
    bytes ≤ maxBytesSlot := by
  unfold bytesAtExit at leaves
  split at leaves
  · cases leaves
  · rw [List.mem_singleton.mp leaves]
    exact within
  · cases leaves

/-- The values at the exits come from states within the budget. -/
theorem atExit_of_throughout
    {initial : TxState}
    {actions : List TxAction}
    (throughout :
      StepRun.Throughout (txStep nodeId) initial WithinBudget actions) :
    ∀ bytes ∈ StepRun.trace (txStep nodeId) (bytesAtExit nodeId) initial
      actions, bytes ≤ maxBytesSlot := by
  induction actions using List.reverseRecOn with
  | nil =>
      intro bytes leaves
      cases leaves
  | append_singleton actions action inductionHypothesis =>
      intro bytes leaves
      have shorter : actions <+: actions ++ [action] := ⟨[action], rfl⟩
      rw [StepRun.trace_append_singleton] at leaves
      rcases List.mem_append.mp leaves with earlier | last
      · exact inductionHypothesis
          (fun leading isPrefix => throughout leading (isPrefix.trans shorter))
          bytes earlier
      · exact le_of_mem_bytesAtExit (throughout actions shorter) last

end

/--
From between two slots, with any packets in the queue: in every run of the TUN
thread and the transmitter the bytes counted in a slot stay within the budget,
also when the loop is left, exactly when no frame is sent beyond the budget
that only its headers and data fit in.
-/
theorem slotBudget_kept_iff
    (nodeId : UInt8)
    {initial : TxState}
    (between : initial.phase = .outside)
    {actions : List TxAction}
    {state : TxState}
    (run :
      StepRun.Run (txStep nodeId) SendEnabled initial actions state) :
    KeepsBudget nodeId initial actions ↔
      StepRun.EachStep (txStep nodeId) initial LengthFits actions := by
  have starts : WithinBudget initial := by
    unfold WithinBudget
    rw [between]
    exact Nat.zero_le _
  have always :
      StepRun.Throughout (txStep nodeId) initial WithinBudget actions ↔
        StepRun.EachStep (txStep nodeId) initial LengthFits actions :=
    run.throughout_iff_eachStep (fun _ => True) WithinBudget trivial
      (fun _ _ => trivial) starts
      (fun _ within allowed fits => within.step allowed fits)
      (fun _ within => within)
      (fun _ _ tooLong => not_withinBudget_of_not_lengthFits tooLong)
  constructor
  · intro keeps
    exact always.mp keeps.throughout
  · intro fits
    have throughout := always.mpr fits
    exact ⟨throughout, atExit_of_throughout throughout⟩

/-- A packet to node 2 that is as long as given. -/
def packetOfLength (length : Nat) : List UInt8 :=
  [0x45] ++ List.replicate 18 0 ++ [2] ++ List.replicate (length - 20) 0

/-- A packet is read, popped and sent as a whole. -/
def readAndSend (length : Nat) : List TxAction :=
  [.tunRead (packetOfLength length) true, .pop,
    .handle false 2 (.sent (28 + length))]

/-- 88 packets are sent as a whole, and 532 of the 536 bytes left as well. -/
def almostFillsSlot : List TxAction :=
  .beginSlot ::
    (List.replicate 88 (readAndSend 1500)).flatten ++
      readAndSend 504 ++ [.pop]

/-- It stays within the budget. -/
theorem slotBudget_kept_almostFillsSlot :
    KeepsBudget 1 txStart almostFillsSlot := by
  have run :
      StepRun.Run (txStep 1) SendEnabled txStart almostFillsSlot
        (almostFillsSlot.foldl (txStep 1) txStart) :=
    StepRun.Run.of_checkRun (by decide +kernel)
  have checked :
      StepRun.Run (txStep 1) LengthFits txStart almostFillsSlot
        (almostFillsSlot.foldl (txStep 1) txStart) :=
    StepRun.Run.of_checkRun (by decide +kernel)
  refine (slotBudget_kept_iff 1 rfl run).mpr ?_
  intro leading action isPrefix
  exact (checked.step_before isPrefix).2

/-- A slot that ends with 536 bytes left for a packet of 512. -/
def fillsSlot : List TxAction :=
  .beginSlot ::
    (List.replicate 88 (readAndSend 1500)).flatten ++ readAndSend 512

/-- The last frame takes 540 bytes of them. -/
theorem slotBudget_exceeded_fillsSlot :
    ¬ ∀ (nodeId : UInt8) (initial state : TxState) (actions : List TxAction),
      initial.phase = .outside →
      StepRun.Run (txStep nodeId) SendEnabled initial actions state →
        KeepsBudget nodeId initial actions := by
  intro always
  have run :
      StepRun.Run (txStep 1) SendEnabled txStart fillsSlot
        (fillsSlot.foldl (txStep 1) txStart) :=
    StepRun.Run.of_checkRun (by decide +kernel)
  have within :=
    (always 1 txStart _ fillsSlot rfl run).throughout fillsSlot
      List.prefix_rfl
  unfold WithinBudget at within
  revert within
  decide +kernel

end RoutingMesh
