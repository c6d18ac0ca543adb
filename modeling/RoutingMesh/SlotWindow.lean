import RoutingMesh.SlotGate

/-!
# The transmission window and the slot

`sync_in_slot` and the computation of `slot_end` in `tx_loop` handle a slot
that crosses the frame boundary separately.  Both are read against the
microsecond at which the slot of the current frame begins: the window ends
with the slot exactly when the occurrence that is open began in that frame.
-/

namespace RoutingMesh

open FrameClock

/-- The slots that `sync_init` and any number of shifts lead to. -/
def ReachableSlot (numNodes slotId : Nat) (slot : SlotLimits) : Prop :=
  StepRun.Reachable (shiftSlot numNodes) (fun _ _ => True)
    (syncInit slotId numNodes) slot

/--
The end of the window, with the guard that was taken off, is the first instant
after a time at which the slot is closed.
-/
structure WindowEndsWithSlot
    (numNodes : Nat)
    (slot : SlotLimits)
    (nowUs : Nat) : Prop where
  later : nowUs < slotEndUs numNodes slot nowUs + guardUs
  closed :
    syncInSlot numNodes slot (slotEndUs numNodes slot nowUs + guardUs) = false
  openBefore :
    ∀ t, nowUs ≤ t → t < slotEndUs numNodes slot nowUs + guardUs →
      syncInSlot numNodes slot t = true

/-- The drain loop goes on only inside the slot: `get_time_us() >= slot_end`. -/
def SendsInSlot
    (numNodes : Nat)
    (slot : SlotLimits)
    (nowUs : Nat) : Prop :=
  ∀ t, nowUs ≤ t → t < slotEndUs numNodes slot nowUs →
    syncInSlot numNodes slot t = true

/-- A time is in the second part of a slot that crosses the frame boundary. -/
def InSecondPart
    (numNodes : Nat)
    (slot : SlotLimits)
    (nowUs : Nat) : Prop :=
  slot.endMs ≤ slot.beginMs ∧
    nowUs % roundUs numNodes / 1000 < slot.beginMs

instance (numNodes : Nat) (slot : SlotLimits) (nowUs : Nat) :
    Decidable (InSecondPart numNodes slot nowUs) :=
  inferInstanceAs (Decidable (_ ∧ _))

section

variable {numNodes slotId nowUs t : Nat} {slot : SlotLimits}

theorem ReachableSlot.wellPlaced
    (valid : ValidArguments numNodes slotId)
    (reachable : ReachableSlot numNodes slotId slot) :
    slot.WellPlaced numNodes :=
  reachable.invariant (fun slot => slot.WellPlaced numNodes)
    (wellPlaced_syncInit valid)
    (fun {slot deltaMs} _ _ =>
      wellPlaced_shiftSlot (by have := valid.atLeastTwo; omega) slot deltaMs)

/-- The slot of a frame begins in that frame. -/
theorem slotBeginUs_lt
    (placed : slot.WellPlaced numNodes)
    (nowUs : Nat) :
    slotBeginUs numNodes slot nowUs <
      frameStart (roundUs numNodes) nowUs + roundUs numNodes := by
  have begins := placed.begins
  unfold slotBeginUs
  rw [roundPeriodMs_eq] at begins
  rw [roundUs_eq]
  omega

/-- A frame holds at least two slots. -/
theorem two_slots_le_roundUs
    (atLeastTwo : 2 ≤ numNodes) :
    2 * (50 * 1000) ≤ roundUs numNodes := by
  rw [roundUs_eq]
  omega

/-- In the frame of a time, or in the one after, the slot begins where it does. -/
theorem slotBeginUs_of_between
    (slot : SlotLimits)
    (notBefore : nowUs ≤ t)
    (near : t < frameStart (roundUs numNodes) nowUs + 2 * roundUs numNodes) :
    slotBeginUs numNodes slot t = slotBeginUs numNodes slot nowUs ∧
        t < frameStart (roundUs numNodes) nowUs + roundUs numNodes ∨
      slotBeginUs numNodes slot t =
          slotBeginUs numNodes slot nowUs + roundUs numNodes ∧
        frameStart (roundUs numNodes) nowUs + roundUs numNodes ≤ t := by
  have starts := frameStart_le (roundUs numNodes) nowUs
  unfold slotBeginUs
  rcases Nat.lt_or_ge t
      (frameStart (roundUs numNodes) nowUs + roundUs numNodes) with
    sameFrame | nextFrame
  · refine .inl ⟨?_, sameFrame⟩
    have same :
        frameStart (roundUs numNodes) t =
          frameStart (roundUs numNodes) nowUs := by
      rw [frameStart_eq_mul (roundUs numNodes) nowUs] at starts sameFrame ⊢
      exact frameStart_eq_of_mem (starts.trans notBefore) sameFrame
    rw [same]
  · refine .inr ⟨?_, nextFrame⟩
    rw [frameStart_of_next nextFrame (by omega)]
    omega

/-- An open slot that did not begin in the current frame is in its second part. -/
theorem inSecondPart_iff
    (atLeastTwo : 2 ≤ numNodes)
    (placed : slot.WellPlaced numNodes)
    (inSlot : syncInSlot numNodes slot nowUs = true) :
    InSecondPart numNodes slot nowUs ↔
      nowUs < slotBeginUs numNodes slot nowUs := by
  have splits := frameStart_add_mod (roundUs numNodes) nowUs
  have offset : nowUs % roundUs numNodes < roundUs numNodes :=
    Nat.mod_lt _ (roundUs_pos (by omega))
  have begins := placed.begins
  have ends := placed.ends
  have isOpen := (syncInSlot_iff atLeastTwo placed nowUs).mp inSlot
  unfold InSecondPart
  unfold slotBeginUs at isOpen ⊢
  rw [slotWidthMs_eq (by omega)] at ends
  rw [roundPeriodMs_eq] at begins ends
  rw [roundUs_eq] at isOpen splits offset ⊢
  rcases Nat.lt_or_ge (slot.beginMs + 50) (numNodes * 50) with
    inFrame | crosses
  · rw [Nat.mod_eq_of_lt inFrame] at ends
    omega
  · rw [Nat.mod_eq_sub_mod crosses, Nat.mod_eq_of_lt (by omega)] at ends
    omega

/-- An occurrence that began in the current frame is over at `slot_end`. -/
theorem windowEndsWithSlot_of_begun
    (atLeastTwo : 2 ≤ numNodes)
    (placed : slot.WellPlaced numNodes)
    (begun : slotBeginUs numNodes slot nowUs ≤ nowUs)
    (notOver : nowUs < slotBeginUs numNodes slot nowUs + 50 * 1000) :
    WindowEndsWithSlot numNodes slot nowUs := by
  have limit := slotEndUs_add_guardUs atLeastTwo placed nowUs
  have inFrame := slotBeginUs_lt placed nowUs
  have longFrame := two_slots_le_roundUs atLeastTwo
  have near :
      slotBeginUs numNodes slot nowUs + 50 * 1000 <
        frameStart (roundUs numNodes) nowUs + 2 * roundUs numNodes := by
    omega
  refine ⟨by omega, ?_, ?_⟩
  · rw [limit, ← Bool.not_eq_true, syncInSlot_iff atLeastTwo placed]
    rcases slotBeginUs_of_between slot (by omega : nowUs ≤ _) near with
      ⟨same, _⟩ | ⟨next, _⟩
    · rw [same]
      omega
    · rw [next]
      omega
  · intro t notBefore before
    rw [limit] at before
    rw [syncInSlot_iff atLeastTwo placed]
    rcases slotBeginUs_of_between slot notBefore (before.trans near) with
      ⟨same, _⟩ | ⟨next, _⟩
    · rw [same]
      omega
    · rw [next]
      omega

/-- In the second part the slot closes a whole frame before `slot_end`. -/
theorem not_sendsInSlot_of_secondPart
    (atLeastTwo : 2 ≤ numNodes)
    (placed : slot.WellPlaced numNodes)
    (rest :
      nowUs + roundUs numNodes <
        slotBeginUs numNodes slot nowUs + 50 * 1000) :
    ¬ SendsInSlot numNodes slot nowUs := by
  intro sends
  have limit := slotEndUs_add_guardUs atLeastTwo placed nowUs
  have inFrame := slotBeginUs_lt placed nowUs
  have longFrame := two_slots_le_roundUs atLeastTwo
  unfold guardUs at limit
  -- The instant at which the open occurrence closes.
  obtain ⟨closes, isClosing⟩ :
      ∃ closes,
        closes + roundUs numNodes =
          slotBeginUs numNodes slot nowUs + 50 * 1000 :=
    ⟨slotBeginUs numNodes slot nowUs + 50 * 1000 - roundUs numNodes,
      by omega⟩
  have notBefore : nowUs ≤ closes := by
    omega
  have near :
      closes < frameStart (roundUs numNodes) nowUs + 2 * roundUs numNodes := by
    omega
  have isOpen := sends closes notBefore (by omega)
  rw [syncInSlot_iff atLeastTwo placed] at isOpen
  rcases slotBeginUs_of_between slot notBefore near with
    ⟨same, _⟩ | ⟨_, late⟩
  · rw [same] at isOpen
    omega
  · omega

end

/--
For every network size and slot, every slot position that `sync_init` and
`shiftSlot` reach and every time in the slot, the window ends with the slot,
and sending with it, exactly when the time is not in the second part of a slot
that crosses the frame boundary.
-/
theorem window_endsWithSlot_iff
    {numNodes slotId : Nat}
    (valid : ValidArguments numNodes slotId)
    {slot : SlotLimits}
    (reachable : ReachableSlot numNodes slotId slot)
    {nowUs : Nat}
    (inSlot : syncInSlot numNodes slot nowUs = true) :
    (WindowEndsWithSlot numNodes slot nowUs ↔
        ¬ InSecondPart numNodes slot nowUs) ∧
      (SendsInSlot numNodes slot nowUs ↔
        ¬ InSecondPart numNodes slot nowUs) := by
  have atLeastTwo := valid.atLeastTwo
  have placed := reachable.wellPlaced valid
  have isOpen := (syncInSlot_iff atLeastTwo placed nowUs).mp inSlot
  have sends :
      WindowEndsWithSlot numNodes slot nowUs →
        SendsInSlot numNodes slot nowUs :=
    fun window t notBefore before =>
      window.openBefore t notBefore (before.trans_le (Nat.le_add_right _ _))
  have begun :
      ¬ InSecondPart numNodes slot nowUs →
        WindowEndsWithSlot numNodes slot nowUs := by
    intro notSecond
    rw [inSecondPart_iff atLeastTwo placed inSlot, not_lt] at notSecond
    refine windowEndsWithSlot_of_begun atLeastTwo placed notSecond ?_
    rcases isOpen with rest | occurrence
    · have longFrame := two_slots_le_roundUs atLeastTwo
      omega
    · exact occurrence.2
  have stops :
      SendsInSlot numNodes slot nowUs →
        ¬ InSecondPart numNodes slot nowUs := by
    intro inside second
    rw [inSecondPart_iff atLeastTwo placed inSlot] at second
    rcases isOpen with rest | occurrence
    · exact not_sendsInSlot_of_secondPart atLeastTwo placed rest inside
    · omega
  exact ⟨⟨fun window => stops (sends window), begun⟩,
    ⟨stops, fun notSecond => sends (begun notSecond)⟩⟩

/-- The slot of node 2 of 2 after a shift of 5 ms: it crosses the boundary. -/
def crossingSlot : SlotLimits :=
  shiftSlot 2 (syncInit 2 2) 5

theorem reachableSlot_crossingSlot : ReachableSlot 2 2 crossingSlot :=
  ⟨[5], StepRun.Run.of_checkRun (by decide)⟩

/-- Before the boundary the window ends with the slot. -/
theorem window_endsWithSlot_beforeBoundary :
    WindowEndsWithSlot 2 crossingSlot 160000 ∧
      SendsInSlot 2 crossingSlot 160000 := by
  obtain ⟨window, sends⟩ :=
    window_endsWithSlot_iff ⟨by decide, by decide, by decide, by decide⟩
      reachableSlot_crossingSlot (by decide : syncInSlot 2 crossingSlot 160000)
  exact ⟨window.mpr (by decide), sends.mpr (by decide)⟩

/-- Behind the boundary the window ends a frame after the slot. -/
theorem window_outlastsSlot_behindBoundary :
    ¬ ∀ (numNodes slotId : Nat) (slot : SlotLimits) (nowUs : Nat),
      ValidArguments numNodes slotId →
      ReachableSlot numNodes slotId slot →
      syncInSlot numNodes slot nowUs = true →
        WindowEndsWithSlot numNodes slot nowUs := by
  intro always
  have window :=
    always 2 2 crossingSlot 102000
      ⟨by decide, by decide, by decide, by decide⟩
      reachableSlot_crossingSlot (by decide)
  have isOpen := window.openBefore 105000 (by decide) (by decide)
  revert isOpen
  decide

end RoutingMesh
