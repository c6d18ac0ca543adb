import Mathlib.Data.List.Chain
import RoutingMesh.TransmitOrder

/-!
# Gaps in the message numbers

`tx_loop` has one `data_msg_id` for all destinations, and a packet takes a
number before its budget, its next hop and its connection are looked at.  The
frames for a destination are therefore numbered without a gap only when every
number in between came round to the same place again.
-/

namespace RoutingMesh

/-- The frames for one destination, in order. -/
def framesFor
    (destination : UInt8)
    (frames : List DataFrame) : List DataFrame :=
  frames.filter fun frame => frame.packet.dstId == destination

/-- Each frame has the number after that of the frame before it. -/
def ConsecutiveMsgIds (frames : List DataFrame) : Prop :=
  frames.IsChain fun earlier later => later.msgId = earlier.msgId + 1

instance : DecidablePred ConsecutiveMsgIds :=
  fun frames =>
    inferInstanceAs
      (Decidable
        (frames.IsChain fun earlier later =>
          later.msgId = earlier.msgId + 1))

/--
What takes a message number in a step: a frame that is handed to TCP, with
its destination, or a packet that is put back or dropped with its number.
-/
def numberTaken (state : TxState) : TxAction → List (Option UInt8)
  | .handle slotEnded nextHop outcome =>
      match state.phase with
      | .holding pkt bytesSent =>
          if slotEnded = true ∨ nextHop = 0 then
            []
          else if overBudget bytesSent pkt then
            [none]
          else
            match outcome with
            | .sent _ => [some pkt.dstId]
            | _ => [none]
      | _ => []
  | _ => []

/-- What took the numbers of a run, in order. -/
def numbersTaken
    (nodeId : UInt8)
    (actions : List TxAction) : List (Option UInt8) :=
  StepRun.trace (txStep nodeId) numberTaken txStart actions

/--
Between two consecutive frames for the destination, the numbers that went to
anything else are a multiple of 2^16.
-/
def GapsWrap
    (destination : UInt8)
    (taken : List (Option UInt8)) : Prop :=
  (taken.idxsOf (some destination)).IsChain fun earlier later =>
    2 ^ 16 ∣ later - (earlier + 1)

instance (destination : UInt8) : DecidablePred (GapsWrap destination) :=
  fun taken =>
    inferInstanceAs
      (Decidable
        ((taken.idxsOf (some destination)).IsChain fun earlier later =>
          2 ^ 16 ∣ later - (earlier + 1)))

/-- The counter and the frames agree with what took the numbers. -/
structure NumbersMatch
    (state : TxState)
    (taken : List (Option UInt8)) : Prop where
  counter : state.dataMsgId = UInt16.ofNat taken.length
  msgIds :
    ∀ destination,
      (framesFor destination state.handed).map DataFrame.msgId =
        (taken.idxsOf (some destination)).map UInt16.ofNat

/-- What a step does to the counter and to the frames. -/
inductive NumberStep (before after : TxState) : List (Option UInt8) → Prop where
  | none
      (counter : after.dataMsgId = before.dataMsgId)
      (handed : after.handed = before.handed) :
      NumberStep before after []
  | wasted
      (counter : after.dataMsgId = before.dataMsgId + 1)
      (handed : after.handed = before.handed) :
      NumberStep before after [Option.none]
  | handed
      (frame : DataFrame)
      (msgId : frame.msgId = before.dataMsgId)
      (counter : after.dataMsgId = before.dataMsgId + 1)
      (handed : after.handed = before.handed ++ [frame]) :
      NumberStep before after [some frame.packet.dstId]

/-- Handling a packet takes at most one number. -/
theorem numberStep_handlePacket
    (state : TxState)
    (pkt : TxPacket)
    (bytesSent : Nat)
    (slotEnded : Bool)
    (nextHop : UInt8)
    (outcome : SendOutcome) :
    NumberStep state
      (handlePacket state pkt bytesSent slotEnded nextHop outcome)
      (if slotEnded = true ∨ nextHop = 0 then
        []
      else if overBudget bytesSent pkt then
        [none]
      else
        match outcome with
        | .sent _ => [some pkt.dstId]
        | _ => [none]) := by
  unfold handlePacket
  by_cases ended : slotEnded = true
  · simp only [ended, true_or, if_true]
    exact .none rfl rfl
  · by_cases noRoute : nextHop = 0
    · simp only [ended, noRoute, or_true, if_true]
      exact .none rfl rfl
    · simp only [ended, noRoute, if_false]
      by_cases exceeds : overBudget bytesSent pkt = true
      · simp only [exceeds, if_true]
        exact .wasted rfl rfl
      · simp only [exceeds]
        cases outcome with
        | sent bytes =>
            exact .handed
              { seqNum := state.txCounter
                msgId := state.dataMsgId
                packet := pkt }
              rfl rfl rfl
        | unknownAddress =>
            exact .wasted rfl rfl
        | noConnection =>
            exact .wasted rfl rfl
        | failed =>
            exact .wasted rfl rfl

/-- Every step takes at most one number. -/
theorem numberStep_txStep
    (nodeId : UInt8)
    (state : TxState)
    (action : TxAction) :
    NumberStep state (txStep nodeId state action)
      (numberTaken state action) := by
  cases action with
  | tunRead data ready =>
      exact .none rfl rfl
  | beginSlot =>
      unfold txStep numberTaken
      cases state.phase <;> exact .none rfl rfl
  | pop =>
      unfold txStep numberTaken
      cases state.phase <;> cases state.queue <;> exact .none rfl rfl
  | handle slotEnded nextHop outcome =>
      unfold txStep numberTaken
      cases state.phase with
      | outside =>
          exact .none rfl rfl
      | draining bytesSent =>
          exact .none rfl rfl
      | holding pkt bytesSent =>
          exact numberStep_handlePacket state pkt bytesSent slotEnded nextHop
            outcome

/-- A step keeps the numbers matched. -/
theorem NumbersMatch.step
    {before after : TxState}
    {taken takes : List (Option UInt8)}
    (numbers : NumbersMatch before taken)
    (step : NumberStep before after takes) :
    NumbersMatch after (taken ++ takes) := by
  cases step with
  | none counter handed =>
      rw [List.append_nil]
      exact
        { counter := counter.trans numbers.counter
          msgIds := by
            rw [handed]
            exact numbers.msgIds }
  | wasted counter handed =>
      refine ⟨?_, fun destination => ?_⟩
      · rw [counter, numbers.counter, List.length_append]
        simp [UInt16.ofNat_add]
      · rw [handed, numbers.msgIds destination, List.idxsOf_append]
        simp
  | handed frame msgId counter handed =>
      refine ⟨?_, fun destination => ?_⟩
      · rw [counter, numbers.counter, List.length_append]
        simp [UInt16.ofNat_add]
      · rw [handed, framesFor, List.filter_append, List.map_append,
          ← framesFor, numbers.msgIds destination, List.idxsOf_append,
          List.map_append]
        by_cases isDestination : frame.packet.dstId = destination
        · simp [isDestination, msgId, numbers.counter]
        · simp [isDestination]

/-- The numbers match throughout a run. -/
theorem numbersMatch_of_run
    {nodeId : UInt8}
    {actions : List TxAction}
    {state : TxState}
    (run : StepRun.Run (txStep nodeId) TxEnabled txStart actions state) :
    NumbersMatch state (numbersTaken nodeId actions) := by
  induction run with
  | start =>
      exact
        { counter := rfl
          msgIds := fun _ => rfl }
  | next action earlier _ inductionHypothesis =>
      rw [numbersTaken, StepRun.trace_append_singleton,
        ← earlier.final_eq_foldl]
      exact inductionHypothesis.step (numberStep_txStep nodeId _ action)

/-- Two places of a counter of 16 bits. -/
theorem ofNat_eq_next_iff
    {earlier later : Nat}
    (after : earlier < later) :
    UInt16.ofNat later = UInt16.ofNat earlier + 1 ↔
      2 ^ 16 ∣ later - (earlier + 1) := by
  have sameNumber :
      UInt16.ofNat later = UInt16.ofNat earlier + 1 ↔
        (earlier + 1) % 2 ^ 16 = later % 2 ^ 16 := by
    rw [← UInt16.toNat_inj]
    simp only [UInt16.toNat_add, UInt16.toNat_ofNat']
    constructor <;> intro same <;> simpa [Nat.add_mod] using same.symm
  rw [sameNumber]
  exact Nat.modEq_iff_dvd' after

/--
In every run, the frames that were handed to TCP for a destination have
consecutive numbers exactly when, between any two of them, the numbers that
went to other destinations or to packets that were put back or dropped are a
multiple of 2^16.
-/
theorem msgIds_consecutive_iff
    (nodeId : UInt8)
    (actions : List TxAction)
    {state : TxState}
    (run : StepRun.Run (txStep nodeId) TxEnabled txStart actions state)
    (destination : UInt8) :
    ConsecutiveMsgIds (framesFor destination state.handed) ↔
      GapsWrap destination (numbersTaken nodeId actions) := by
  have msgIds := (numbersMatch_of_run run).msgIds destination
  have increasing :
      ((numbersTaken nodeId actions).idxsOf (some destination)).IsChain
        (· < ·) :=
    List.isChain_idxsOf
  rw [List.isChain_iff_getElem] at increasing
  calc
    ConsecutiveMsgIds (framesFor destination state.handed) ↔
        ((framesFor destination state.handed).map DataFrame.msgId).IsChain
          (fun earlier later => later = earlier + 1) := by
      rw [List.isChain_map]
      rfl
    _ ↔ ((numbersTaken nodeId actions).idxsOf (some destination)).IsChain
          (fun earlier later =>
            UInt16.ofNat later = UInt16.ofNat earlier + 1) := by
      rw [msgIds, List.isChain_map]
    _ ↔ GapsWrap destination (numbersTaken nodeId actions) := by
      rw [GapsWrap, List.isChain_iff_getElem, List.isChain_iff_getElem]
      exact forall_congr' fun i => forall_congr' fun bounded =>
        ofNat_eq_next_iff (increasing i bounded)

/-- Node 1 sends packets to node 2 only, one of which does not fit first. -/
def sendsToSecond : List TxAction :=
  [.tunRead (ipPacket 1 2) true, .tunRead (ipPacket 2 2) true,
    .beginSlot, .pop, .handle true 2 .failed,
    .beginSlot, .pop, .handle false 2 (.sent 48),
    .pop, .handle false 2 (.sent 48)]

/-- The frames of that run are numbered without a gap. -/
theorem msgIds_consecutive_sendsToSecond :
    ConsecutiveMsgIds
      (framesFor 2 (sendsToSecond.foldl (txStep 1) txStart).handed) :=
  (msgIds_consecutive_iff 1 sendsToSecond
    (StepRun.Run.of_checkRun (by decide +kernel)) 2).mpr (by decide +kernel)

/-- A packet for node 3 goes between two packets for node 2. -/
def sendsBetween : List TxAction :=
  [.tunRead (ipPacket 1 2) true, .tunRead (ipPacket 1 3) true,
    .tunRead (ipPacket 2 2) true,
    .beginSlot, .pop, .handle false 2 (.sent 48),
    .pop, .handle false 3 (.sent 48),
    .pop, .handle false 2 (.sent 48)]

/-- Nothing is lost, and node 2 gets the numbers 0 and 2. -/
theorem msgIds_gap_sendsBetween :
    ¬ ∀ state,
      StepRun.Reachable (txStep 1) TxEnabled txStart state →
      ∀ destination,
        ConsecutiveMsgIds (framesFor destination state.handed) := by
  intro always
  have consecutive :=
    always (sendsBetween.foldl (txStep 1) txStart)
      ⟨sendsBetween, StepRun.Run.of_checkRun (by decide +kernel)⟩ 2
  revert consecutive
  decide +kernel

end RoutingMesh
