import RoutingMesh.SlotSync
import RoutingMesh.TransmitOrder

/-!
# Data waits for the slots

Model of `sync_data_plane_ready` and of the gate in `tun_reader_loop`, between
the thread that records delays, the transmitter that adjusts the slot and
drains the queue, and the thread that reads the TUN.  The counter of stable
rounds is read against the rounds of the run: the gate is open when the last
eight of them stayed in the dead band, or when the cap is over.
-/

namespace RoutingMesh

/-- `SYNC_CONVERGE_CAP_MS`. -/
def syncConvergeCapMs : Nat := 90000

/-- The time that `sync_data_plane_ready` waits at most has passed. -/
def CapPassed (initUs nowUs : Nat) : Prop :=
  initUs ≠ 0 ∧ nowUs - initUs ≥ syncConvergeCapMs * 1000

instance (initUs nowUs : Nat) : Decidable (CapPassed initUs nowUs) :=
  inferInstanceAs (Decidable (_ ∧ _))

/-- `sync_data_plane_ready`, with `g_init_us` and the monotonic clock. -/
def SyncState.syncDataPlaneReady
    (node : SyncState)
    (initUs nowUs : Nat) : Bool :=
  if node.syncIsStable then true else decide (CapPassed initUs nowUs)

/-- What the threads of a node share. -/
structure GatedNode where
  sync : SyncState
  tx : TxState

/--
The steps of the threads: the receiver records a delay, the transmitter
adjusts the slot, the TUN thread reads a packet, and the transmitter drains
the queue.
-/
inductive GatedAction where
  | recordDelay (entry : RecordedDelay)
  | adjustSlot (random : Nat)
  | tunRead (data : List UInt8) (nowUs : Nat)
  | drain (action : TxAction)

/-- The node and the time at which `sync_init` ran. -/
structure GateSettings where
  numNodes : Nat
  slotId : Nat
  nodeId : UInt8
  initUs : Nat

/-- One step of one thread. -/
def gatedStep
    (settings : GateSettings)
    (node : GatedNode) : GatedAction → GatedNode
  | .recordDelay entry => { node with sync := node.sync.recordDelay entry }
  | .adjustSlot random =>
      { node with
        sync :=
          node.sync.adjustSlot settings.numNodes settings.slotId random }
  | .tunRead data nowUs =>
      { node with
        tx :=
          txStep settings.nodeId node.tx
            (.tunRead data
              (node.sync.syncDataPlaneReady settings.initUs nowUs)) }
  | .drain action => { node with tx := txStep settings.nodeId node.tx action }

/-- The clock is not before `sync_init`, and only the TUN thread reads packets. -/
def GatedEnabled (settings : GateSettings) (node : GatedNode) :
    GatedAction → Prop
  | .tunRead _ nowUs => settings.initUs ≤ nowUs
  | .drain (.tunRead _ _) => False
  | .drain action => TxEnabled node.tx action
  | _ => True

instance (settings : GateSettings) (node : GatedNode) :
    DecidablePred (GatedEnabled settings node)
  | .recordDelay _ => .isTrue trivial
  | .adjustSlot _ => .isTrue trivial
  | .tunRead _ _ => inferInstanceAs (Decidable (_ ≤ _))
  | .drain (.tunRead _ _) => .isFalse id
  | .drain .beginSlot => inferInstanceAs (Decidable (TxEnabled _ .beginSlot))
  | .drain .pop => inferInstanceAs (Decidable (TxEnabled _ .pop))
  | .drain (.handle slotEnded nextHop outcome) =>
      inferInstanceAs
        (Decidable (TxEnabled _ (.handle slotEnded nextHop outcome)))

/-- After `sync_init`, with the slot that it computed. -/
def gatedStart (slot : SlotLimits) : GatedNode where
  sync :=
    { slot := slot
      delays := []
      stableRounds := 0 }
  tx := txStart

/-- An adjustment that saw a beacon: whether it stayed in the dead band. -/
def roundInBand
    (node : GatedNode) : GatedAction → List Bool
  | .adjustSlot _ =>
      if node.sync.delays = [] then
        []
      else
        [decide (largestMeanDelay node.sync.delays ≤ syncDeadbandMs)]
  | _ => []

/-- The rounds of a run that saw a beacon, in order. -/
def roundsInBand
    (settings : GateSettings)
    (start : GatedNode)
    (actions : List GatedAction) : List Bool :=
  StepRun.trace (gatedStep settings) roundInBand start actions

/--
The gate is open after a run: its last `SYNC_STABLE_ROUNDS` rounds stayed in
the dead band, or the cap is over.
-/
def GateOpen
    (settings : GateSettings)
    (start : GatedNode)
    (actions : List GatedAction)
    (nowUs : Nat) : Prop :=
  List.replicate syncStableRounds true <:+
      roundsInBand settings start actions ∨
    CapPassed settings.initUs nowUs

/--
A packet came through the open gate in a run: the TUN gave it, for another
node, at a time at which the gate was open.
-/
def Admitted
    (settings : GateSettings)
    (start : GatedNode)
    (actions : List GatedAction)
    (pkt : TxPacket) : Prop :=
  ∃ before data nowUs,
    before ++ [.tunRead data nowUs] <+: actions ∧
      pkt = TxPacket.ofTun data ∧
      pkt.dstId ≠ 0 ∧ pkt.dstId ≠ settings.nodeId ∧
      GateOpen settings start before nowUs

/-! ## Streaks -/

/-- A streak grows by the last flag of a list. -/
theorem replicate_succ_suffix_append_singleton
    {length : Nat}
    {flags : List Bool}
    {flag : Bool} :
    List.replicate (length + 1) true <:+ flags ++ [flag] ↔
      flag = true ∧ List.replicate length true <:+ flags := by
  rw [List.replicate_succ']
  constructor
  · rintro ⟨older, same⟩
    rw [← List.append_assoc] at same
    obtain ⟨others, last⟩ := List.append_inj' same rfl
    exact ⟨(List.singleton_injective last).symm, older, others⟩
  · rintro ⟨rfl, older, rfl⟩
    exact ⟨older, (List.append_assoc _ _ _).symm⟩

/-- A counter has the lengths of the streaks of true flags, up to its cap. -/
def CountsStreak (counter : Nat) (flags : List Bool) : Prop :=
  ∀ length, length ≤ stableRoundsCap →
    (length ≤ counter ↔ List.replicate length true <:+ flags)

theorem countsStreak_nil : CountsStreak 0 [] := by
  intro length _
  rw [List.suffix_nil, List.replicate_eq_nil_iff, Nat.le_zero]

theorem CountsStreak.countRound
    {counter : Nat}
    {flags : List Bool}
    (counts : CountsStreak counter flags) :
    CountsStreak (countRound counter) (flags ++ [true]) := by
  intro length capped
  cases length with
  | zero =>
      simp
  | succ shorter =>
      have before := counts shorter (by omega)
      rw [replicate_succ_suffix_append_singleton, eq_self_iff_true, true_and,
        ← before]
      unfold RoutingMesh.countRound
      split <;> omega

theorem countsStreak_reset (flags : List Bool) :
    CountsStreak 0 (flags ++ [false]) := by
  intro length _
  cases length with
  | zero =>
      simp
  | succ shorter =>
      rw [replicate_succ_suffix_append_singleton]
      simp

/-! ## The threads -/

section

variable {settings : GateSettings}
variable {start node : GatedNode}
variable {actions : List GatedAction}
variable {pkt : TxPacket}

/-- One step of any thread keeps what the counter says. -/
theorem CountsStreak.gatedStep
    {flags : List Bool}
    (counts : CountsStreak node.sync.stableRounds flags)
    (action : GatedAction) :
    CountsStreak
      (RoutingMesh.gatedStep settings node action).sync.stableRounds
      (flags ++ roundInBand node action) := by
  cases action with
  | recordDelay entry =>
      simpa [RoutingMesh.gatedStep, roundInBand, SyncState.recordDelay]
        using counts
  | tunRead data nowUs =>
      simpa [RoutingMesh.gatedStep, roundInBand] using counts
  | drain action =>
      simpa [RoutingMesh.gatedStep, roundInBand] using counts
  | adjustSlot random =>
      simp only [RoutingMesh.gatedStep, roundInBand, SyncState.adjustSlot]
      by_cases none : node.sync.delays = []
      · rw [if_pos none, if_pos none, List.append_nil]
        exact counts
      · rw [if_neg none, if_neg none]
        by_cases inBand :
            largestMeanDelay node.sync.delays ≤ syncDeadbandMs
        · rw [if_pos inBand, decide_eq_true inBand]
          exact counts.countRound
        · rw [if_neg inBand, decide_eq_false inBand]
          exact countsStreak_reset flags

/-- The verdict of `sync_data_plane_ready` is about the rounds of the run. -/
theorem syncDataPlaneReady_iff
    (counts :
      CountsStreak node.sync.stableRounds
        (roundsInBand settings start actions))
    (nowUs : Nat) :
    node.sync.syncDataPlaneReady settings.initUs nowUs = true ↔
      GateOpen settings start actions nowUs := by
  unfold SyncState.syncDataPlaneReady GateOpen
  rw [← counts syncStableRounds (by decide), SyncState.syncIsStable]
  by_cases stable : node.sync.stableRounds ≥ syncStableRounds
  · simp [stable]
  · simp [stable]

/-- What a push leaves in the queue was there, or is the packet. -/
theorem mem_txQueuePush
    {queue : List TxPacket}
    {pushed : TxPacket}
    (listed : pkt ∈ txQueuePush queue pushed) :
    pkt ∈ queue ∨ pkt = pushed := by
  have inBoth := (sublist_txQueuePush queue pushed).mem listed
  rwa [List.mem_append, List.mem_singleton] at inBoth

/-- The packet that is put back was in the pipeline. -/
theorem TxState.mem_pipeline_handlePacket
    {state : TxState}
    {held : TxPacket}
    {bytesSent : Nat}
    (inHand : state.phase = .holding held bytesSent)
    {slotEnded : Bool}
    {nextHop : UInt8}
    {outcome : SendOutcome}
    (listed :
      pkt ∈
        (handlePacket state held bytesSent slotEnded nextHop
          outcome).pipeline) :
    pkt ∈ state.pipeline := by
  -- Each branch keeps what was handed, and at most the packet and the queue.
  have parts :
      pkt ∈ state.handed.map DataFrame.packet ∨ pkt = held ∨
        pkt ∈ state.queue := by
    revert listed
    unfold handlePacket TxState.pipeline
    split
    · simp only [TxState.putBack, TxPhase.inHand, List.append_nil,
        List.mem_append]
      exact Or.imp id fun queued => (mem_txQueuePush queued).symm
    · split
      · simp only [TxPhase.inHand, List.append_nil, List.mem_append]
        exact Or.imp id .inr
      · split
        · simp only [TxState.putBack, TxPhase.inHand, List.append_nil,
            List.mem_append]
          exact Or.imp id fun queued => (mem_txQueuePush queued).symm
        · cases outcome <;>
            simp only [TxPhase.inHand, List.append_nil, List.mem_append,
              List.map_append, List.map_cons, List.map_nil,
              List.mem_singleton] <;>
            tauto
  unfold TxState.pipeline
  rw [inHand, List.append_assoc]
  simpa [TxPhase.inHand] using parts

/-- Nothing but a read that is admitted brings a packet into the pipeline. -/
theorem TxState.mem_pipeline_txStep
    {nodeId : UInt8}
    {state : TxState}
    {action : TxAction}
    (listed : pkt ∈ (txStep nodeId state action).pipeline) :
    pkt ∈ state.pipeline ∨
      ∃ data,
        action = .tunRead data true ∧ pkt = TxPacket.ofTun data ∧
          pkt.dstId ≠ 0 ∧ pkt.dstId ≠ nodeId := by
  cases action with
  | tunRead data ready =>
      simp only [txStep, TxState.pipeline, List.mem_append] at listed ⊢
      rcases listed with earlier | queued
      · exact .inl (.inl earlier)
      · by_cases remote :
            (TxPacket.ofTun data).dstId ≠ 0 ∧
              (TxPacket.ofTun data).dstId ≠ nodeId ∧ ready = true
        · rw [if_pos remote] at queued
          rcases mem_txQueuePush queued with waiting | isRead
          · exact .inl (.inr waiting)
          · obtain ⟨known, other, isReady⟩ := remote
            subst isReady isRead
            exact .inr ⟨data, rfl, rfl, known, other⟩
        · rw [if_neg remote] at queued
          exact .inl (.inr queued)
  | beginSlot =>
      simp only [txStep] at listed
      split at listed
      · rename_i between
        left
        simpa [TxState.pipeline, between, TxPhase.inHand] using listed
      · exact .inl listed
  | pop =>
      simp only [txStep] at listed
      split at listed
      · rename_i bytesSent first rest drains waits
        left
        simpa [TxState.pipeline, drains, waits, TxPhase.inHand] using listed
      · rename_i bytesSent drains empty
        left
        simpa [TxState.pipeline, drains, empty, TxPhase.inHand] using listed
      · exact .inl listed
  | handle slotEnded nextHop outcome =>
      simp only [txStep] at listed
      split at listed
      · rename_i held bytesSent inHand
        exact .inl (TxState.mem_pipeline_handlePacket inHand listed)
      · exact .inl listed

/-- What was admitted stays admitted. -/
theorem Admitted.append_singleton
    (admitted : Admitted settings start actions pkt)
    (action : GatedAction) :
    Admitted settings start (actions ++ [action]) pkt := by
  obtain ⟨before, data, nowUs, isPrefix, rest⟩ := admitted
  exact ⟨before, data, nowUs, isPrefix.trans (List.prefix_append _ _), rest⟩

/-- A step brings in at most the packet that it admits. -/
theorem admitted_of_mem_pipeline
    (counts :
      CountsStreak node.sync.stableRounds
        (roundsInBand settings start actions))
    (earlier :
      ∀ pkt ∈ node.tx.pipeline, Admitted settings start actions pkt)
    {action : GatedAction}
    (allowed : GatedEnabled settings node action)
    (listed : pkt ∈ (gatedStep settings node action).tx.pipeline) :
    Admitted settings start (actions ++ [action]) pkt := by
  cases action with
  | recordDelay entry =>
      exact (earlier pkt listed).append_singleton _
  | adjustSlot random =>
      exact (earlier pkt listed).append_singleton _
  | tunRead data nowUs =>
      rcases TxState.mem_pipeline_txStep listed with
        before | ⟨read, sameRead, isRead, known, other⟩
      · exact (earlier pkt before).append_singleton _
      · obtain ⟨sameData, ready⟩ := TxAction.tunRead.inj sameRead
        subst sameData
        exact ⟨actions, data, nowUs, List.prefix_rfl, isRead, known, other,
          (syncDataPlaneReady_iff counts nowUs).mp ready⟩
  | drain action =>
      rcases TxState.mem_pipeline_txStep listed with
        before | ⟨read, isTunRead, _⟩
      · exact (earlier pkt before).append_singleton _
      · subst isTunRead
        cases allowed

end

/--
In every run of the threads from `sync_init` on, `sync_data_plane_ready`
answers exactly whether the last eight rounds that saw a beacon stayed in the
dead band or 90 s have passed, and everything that was handed to TCP, is in
hand or waits was read from the TUN, for another node, while the gate was open.
-/
theorem data_waits_for_gate
    (settings : GateSettings)
    (slot : SlotLimits)
    {actions : List GatedAction}
    {node : GatedNode}
    (run :
      StepRun.Run (gatedStep settings) (GatedEnabled settings)
        (gatedStart slot) actions node) :
    (∀ nowUs,
        node.sync.syncDataPlaneReady settings.initUs nowUs = true ↔
          GateOpen settings (gatedStart slot) actions nowUs) ∧
      ∀ pkt ∈ node.tx.pipeline,
        Admitted settings (gatedStart slot) actions pkt := by
  have always :
      CountsStreak node.sync.stableRounds
          (roundsInBand settings (gatedStart slot) actions) ∧
        ∀ pkt ∈ node.tx.pipeline,
          Admitted settings (gatedStart slot) actions pkt := by
    induction run with
    | start =>
        refine ⟨countsStreak_nil, fun pkt listed => ?_⟩
        simp [gatedStart, txStart, TxState.pipeline, TxPhase.inHand] at listed
    | next action earlier allowed inductionHypothesis =>
        obtain ⟨counts, admitted⟩ := inductionHypothesis
        refine ⟨?_, fun pkt listed =>
          admitted_of_mem_pipeline counts admitted allowed listed⟩
        rw [roundsInBand, StepRun.trace_append_singleton,
          ← earlier.final_eq_foldl]
        exact counts.gatedStep action
  exact ⟨syncDataPlaneReady_iff always.1, always.2⟩

/-- The first of two nodes, with `sync_init` a second after the clock began. -/
def firstOfTwo : GateSettings where
  numNodes := 2
  slotId := 1
  nodeId := 1
  initUs := 1000000

/-- An IPv4 packet for node 2, as the TUN gives it. -/
def packetForSecond : List UInt8 :=
  0x45 :: List.replicate 18 0 ++ [2]

/-- Eight rounds with a beacon that took 2 ms, with reads before and after. -/
def readsBeforeAndAfter : List GatedAction :=
  [.tunRead packetForSecond 1500000] ++
    (List.replicate 8
      [.recordDelay { sender := 2, delayMs := 2 }, .adjustSlot 0]).flatten ++
    [.tunRead packetForSecond 2500000]

/-- Only the second read goes into the queue, and the gate was open then. -/
theorem data_waits_for_gate_readsBeforeAndAfter :
    let node :=
      readsBeforeAndAfter.foldl (gatedStep firstOfTwo)
        (gatedStart (syncInit 1 2))
    node.tx.queue.length = 1 ∧
      ∀ pkt ∈ node.tx.queue,
        Admitted firstOfTwo (gatedStart (syncInit 1 2)) readsBeforeAndAfter
          pkt := by
  have admitted :=
    (data_waits_for_gate firstOfTwo (syncInit 1 2)
      (StepRun.Run.of_checkRun
        (by decide +kernel :
          StepRun.checkRun (gatedStep firstOfTwo) (GatedEnabled firstOfTwo)
            (gatedStart (syncInit 1 2)) readsBeforeAndAfter = true))).2
  exact ⟨by decide +kernel, fun pkt waiting =>
    admitted pkt (List.mem_append_right _ waiting)⟩

end RoutingMesh
