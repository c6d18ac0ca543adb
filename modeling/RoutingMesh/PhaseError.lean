import Mathlib.Tactic.Ring
import RoutingMesh.PeriodicTime
import RoutingMesh.SlotGate

/-!
# The delay of a packet is a phase error

`compute_delay` for any frame that `sync_init` was given.  The ideal begin of
the sender's slot is computed in three ways, and the positions and times are
reduced separately; all of it agrees modulo the frame, so the delay is how far
the packet is out of phase.
-/

namespace RoutingMesh

open AddCommGroup PeriodicTime

/-- What `sync_init` keeps of its arguments. -/
structure SyncSettings where
  slotId : Nat
  numNodes : Nat
  roundPeriodMs : Nat

namespace SyncSettings

/-- `width_ms`. -/
def widthMs (settings : SyncSettings) : Nat :=
  settings.roundPeriodMs / settings.numNodes

/-- `get_current_round_time_ms`, for a reading of the clock. -/
def currentRoundTimeMs (settings : SyncSettings) (clockMs : ℚ) : ℚ :=
  (((truncate clockMs).tmod settings.roundPeriodMs : ℤ) : ℚ) +
    (clockMs - truncate clockMs)

/-- `msg_position`. -/
def msgPosition
    (settings : SyncSettings)
    (timestampS : ℚ)
    (beginMs : Nat) : ℚ :=
  let position := fmod (timestampS * 1000) settings.roundPeriodMs - beginMs
  if position < 0 then position + settings.roundPeriodMs else position

/-- `slot_difference`, with the last and the first slot as neighbours. -/
def slotDifference (settings : SyncSettings) (sender : Nat) : ℤ :=
  let difference : ℤ := sender - settings.slotId
  if difference = settings.numNodes - 1 then
    -1
  else if -difference = settings.numNodes - 1 then
    1
  else
    difference

/-- `ideal_slot_init`. -/
def idealSlotInit
    (settings : SyncSettings)
    (slot : SlotLimits)
    (sender : Nat) : ℚ :=
  let difference := settings.slotDifference sender
  if difference = 1 then
    slot.endMs
  else if difference = -1 then
    slot.beginMs - settings.widthMs
  else
    slot.beginMs + difference * settings.widthMs + settings.roundPeriodMs

/-- The `delay_ms` of `compute_delay` before it is made positive. -/
def rawDelay
    (settings : SyncSettings)
    (slot : SlotLimits)
    (clockMs : ℚ)
    (sender : Nat)
    (timestampS : ℚ)
    (beginMs : Nat) : ℚ :=
  settings.currentRoundTimeMs clockMs -
    settings.msgPosition timestampS beginMs -
    settings.idealSlotInit slot sender

/-- `compute_delay`, at a reading of the clock. -/
def computeDelay
    (settings : SyncSettings)
    (slot : SlotLimits)
    (clockMs : ℚ)
    (sender : Nat)
    (timestampS : ℚ)
    (beginMs : Nat) : ℚ :=
  centred settings.roundPeriodMs
    (settings.rawDelay slot clockMs sender timestampS beginMs)

/-- The frame consists of the slots of its nodes. -/
structure Valid (settings : SyncSettings) : Prop where
  atLeastTwo : 2 ≤ settings.numNodes
  positive : 0 < settings.widthMs
  whole : settings.numNodes * settings.widthMs = settings.roundPeriodMs

/--
How far a packet is behind the slot of its sender, when that slot is reckoned
from one's own.
-/
def phaseError
    (settings : SyncSettings)
    (slot : SlotLimits)
    (clockMs : ℚ)
    (sender : Nat)
    (timestampS : ℚ)
    (beginMs : Nat) : ℚ :=
  clockMs - (timestampS * 1000 - beginMs) -
    (slot.beginMs + ((sender : ℚ) - settings.slotId) * settings.widthMs)

/-! ## Everything agrees modulo the frame -/

section

variable {settings : SyncSettings}

theorem Valid.roundPeriodMs_pos
    (valid : settings.Valid) :
    0 < settings.roundPeriodMs := by
  rw [← valid.whole]
  exact Nat.mul_pos (Nat.zero_lt_of_lt valid.atLeastTwo) valid.positive

/-- The time in the round is the reading of the clock. -/
theorem currentRoundTimeMs_modEq (clockMs : ℚ) :
    settings.currentRoundTimeMs clockMs ≡ clockMs
      [PMOD (settings.roundPeriodMs : ℚ)] := by
  rw [modEq_iff_zsmul]
  refine ⟨(truncate clockMs).tdiv settings.roundPeriodMs, ?_⟩
  have splits :=
    Int.tmod_add_mul_tdiv (truncate clockMs) settings.roundPeriodMs
  have castSplits := congrArg (Int.cast (R := ℚ)) splits
  push_cast at castSplits
  rw [currentRoundTimeMs, zsmul_eq_mul]
  linarith

/-- The position of a message is its time stamp after the begin of the slot. -/
theorem msgPosition_modEq (timestampS : ℚ) (beginMs : Nat) :
    settings.msgPosition timestampS beginMs ≡ timestampS * 1000 - beginMs
      [PMOD (settings.roundPeriodMs : ℚ)] := by
  have position :
      fmod (timestampS * 1000) settings.roundPeriodMs - beginMs ≡
        timestampS * 1000 - beginMs
        [PMOD (settings.roundPeriodMs : ℚ)] :=
    (fmod_modEq _ _).sub_right _
  unfold msgPosition
  dsimp only
  split
  · exact (add_period_modEq _ _).trans position
  · exact position

/-- Neighbours across the frame boundary are one frame away. -/
theorem slotDifference_modEq
    (whole : settings.numNodes * settings.widthMs = settings.roundPeriodMs)
    (sender : Nat) :
    (settings.slotDifference sender : ℚ) * settings.widthMs ≡
      ((sender : ℚ) - settings.slotId) * settings.widthMs
      [PMOD (settings.roundPeriodMs : ℚ)] := by
  have castWhole :
      (settings.roundPeriodMs : ℚ) =
        settings.numNodes * settings.widthMs := by
    exact_mod_cast whole.symm
  rw [modEq_iff_zsmul, castWhole]
  unfold slotDifference
  dsimp only
  split
  · rename_i last
    have lastSlot :
        (sender : ℚ) - settings.slotId = settings.numNodes - 1 := by
      exact_mod_cast last
    refine ⟨1, ?_⟩
    rw [lastSlot]
    push_cast
    rw [one_smul]
    ring
  · split
    · rename_i _ first
      have firstSlot :
          -((sender : ℚ) - settings.slotId) = settings.numNodes - 1 := by
        exact_mod_cast first
      have difference :
          (sender : ℚ) - settings.slotId = 1 - settings.numNodes := by
        linarith
      refine ⟨-1, ?_⟩
      rw [difference]
      push_cast
      rw [neg_smul, one_smul]
      ring
    · refine ⟨0, ?_⟩
      push_cast
      rw [zero_smul, sub_self]

/-- The ideal begin of a slot, from the begin of one's own. -/
theorem idealSlotInit_modEq
    (whole : settings.numNodes * settings.widthMs = settings.roundPeriodMs)
    {slot : SlotLimits}
    (ends :
      slot.endMs =
        (slot.beginMs + settings.widthMs) % settings.roundPeriodMs)
    (sender : Nat) :
    settings.idealSlotInit slot sender ≡
      slot.beginMs + ((sender : ℚ) - settings.slotId) * settings.widthMs
      [PMOD (settings.roundPeriodMs : ℚ)] := by
  have distance :
      (slot.beginMs : ℚ) +
          settings.slotDifference sender * settings.widthMs ≡
        slot.beginMs + ((sender : ℚ) - settings.slotId) * settings.widthMs
        [PMOD (settings.roundPeriodMs : ℚ)] :=
    (slotDifference_modEq whole sender).add_left _
  unfold idealSlotInit
  dsimp only
  split
  · rename_i next
    rw [next, Int.cast_one, one_mul] at distance
    refine ModEq.trans ?_ distance
    rw [modEq_iff_zsmul]
    refine
      ⟨((slot.beginMs + settings.widthMs) /
        settings.roundPeriodMs : Nat), ?_⟩
    have splits :=
      Nat.mod_add_div (slot.beginMs + settings.widthMs)
        settings.roundPeriodMs
    rw [← ends] at splits
    have castSplits := congrArg (Nat.cast (R := ℚ)) splits
    push_cast at castSplits
    rw [zsmul_eq_mul, Int.cast_natCast]
    linarith
  · split
    · rename_i _ previous
      rw [previous] at distance
      push_cast at distance
      rw [neg_one_mul, ← sub_eq_add_neg] at distance
      exact distance
    · exact (add_period_modEq _ _).trans distance

/-- Before it is made positive, the delay is the phase error. -/
theorem rawDelay_modEq
    (whole : settings.numNodes * settings.widthMs = settings.roundPeriodMs)
    {slot : SlotLimits}
    (ends :
      slot.endMs =
        (slot.beginMs + settings.widthMs) % settings.roundPeriodMs)
    (clockMs : ℚ)
    (sender : Nat)
    (timestampS : ℚ)
    (beginMs : Nat) :
    settings.rawDelay slot clockMs sender timestampS beginMs ≡
      settings.phaseError slot clockMs sender timestampS beginMs
      [PMOD (settings.roundPeriodMs : ℚ)] :=
  ((currentRoundTimeMs_modEq clockMs).sub
    (msgPosition_modEq timestampS beginMs)).sub
      (idealSlotInit_modEq whole ends sender)

/-- A shift of both clock readings of the sender does not show. -/
theorem phaseError_modEq_of_shift
    (slot : SlotLimits)
    (clockMs : ℚ)
    (sender : Nat)
    (timestampS offsetMs : ℚ)
    {beginMs shiftedBeginMs : Nat}
    (shifted :
      (shiftedBeginMs : ℚ) ≡ beginMs + offsetMs
        [PMOD (settings.roundPeriodMs : ℚ)]) :
    settings.phaseError slot clockMs sender (timestampS + offsetMs / 1000)
        shiftedBeginMs ≡
      settings.phaseError slot clockMs sender timestampS beginMs
      [PMOD (settings.roundPeriodMs : ℚ)] := by
  have moved :=
    shifted.add_left
      (clockMs - (timestampS * 1000 + offsetMs) -
        (slot.beginMs + ((sender : ℚ) - settings.slotId) * settings.widthMs))
  unfold phaseError
  convert moved using 1 <;> ring

end

/--
For every own slot that ends a width after it begins, every sender and all
times: the loop of `compute_delay` ends, and its result is the one value in
the half-open frame around zero that differs from the phase error by whole
frames.  A clock offset that moves the sender's time stamp and its slot
together, modulo the frame, leaves the result as it is.
-/
theorem computeDelay_isPhaseError
    {settings : SyncSettings}
    (valid : settings.Valid)
    {slot : SlotLimits}
    (ends :
      slot.endMs =
        (slot.beginMs + settings.widthMs) % settings.roundPeriodMs)
    (clockMs : ℚ)
    (sender : Nat)
    (timestampS : ℚ)
    (beginMs : Nat) :
    let raw := settings.rawDelay slot clockMs sender timestampS beginMs
    let delay := settings.computeDelay slot clockMs sender timestampS beginMs
    let phase := settings.phaseError slot clockMs sender timestampS beginMs
    RaisesTo settings.roundPeriodMs raw (raise settings.roundPeriodMs raw) ∧
      IsCentred settings.roundPeriodMs phase delay ∧
      (∀ other,
        IsCentred settings.roundPeriodMs phase other → other = delay) ∧
      ∀ (offsetMs : ℚ) (shiftedBeginMs : Nat),
        (shiftedBeginMs : ℚ) ≡ beginMs + offsetMs
          [PMOD (settings.roundPeriodMs : ℚ)] →
        settings.computeDelay slot clockMs sender
          (timestampS + offsetMs / 1000) shiftedBeginMs = delay := by
  have positive : (0 : ℚ) < settings.roundPeriodMs := by
    exact_mod_cast valid.roundPeriodMs_pos
  have isDelay :
      ∀ (stampS : ℚ) (startMs : Nat),
        IsCentred settings.roundPeriodMs
          (settings.phaseError slot clockMs sender stampS startMs)
          (settings.computeDelay slot clockMs sender stampS startMs) := by
    intro stampS startMs
    obtain ⟨within, same⟩ :=
      isCentred_centred positive
        (settings.rawDelay slot clockMs sender stampS startMs)
    exact ⟨within,
      same.trans
        (rawDelay_modEq valid.whole ends clockMs sender stampS startMs)⟩
  have unique :
      ∀ {first second : ℚ},
        IsCentred settings.roundPeriodMs
          (settings.phaseError slot clockMs sender timestampS beginMs)
          first →
        IsCentred settings.roundPeriodMs
          (settings.phaseError slot clockMs sender timestampS beginMs)
          second →
        first = second := fun one another =>
    (one.eq_centred positive).trans (another.eq_centred positive).symm
  refine ⟨raisesTo_raise positive _, isDelay timestampS beginMs,
    fun _ isOther => unique isOther (isDelay timestampS beginMs), ?_⟩
  intro offsetMs shiftedBeginMs shifted
  obtain ⟨within, same⟩ :=
    isDelay (timestampS + offsetMs / 1000) shiftedBeginMs
  exact unique
    ⟨within,
      same.trans
        (phaseError_modEq_of_shift slot clockMs sender timestampS offsetMs
          shifted)⟩
    (isDelay timestampS beginMs)

end SyncSettings

/-- Node 2 of two, with a frame of 100 ms. -/
def secondOfTwo : SyncSettings where
  slotId := 2
  numNodes := 2
  roundPeriodMs := 100

/-- Its slot, which ends with the frame. -/
def lastSlot : SlotLimits where
  beginMs := 50
  endMs := 0

/--
A packet of the first node arrives 1 ms late.  The clock of that node is 3 ms
ahead; set back by 5 ms, it changes nothing.
-/
theorem computeDelay_isPhaseError_secondOfTwo :
    secondOfTwo.computeDelay lastSlot 1011 1 (1013 / 1000) 3 = 1 ∧
      secondOfTwo.computeDelay lastSlot 1011 1 (1013 / 1000 + (-5) / 1000)
        98 = 1 := by
  have valid : secondOfTwo.Valid := ⟨by decide, by decide, by decide⟩
  have ends :
      lastSlot.endMs =
        (lastSlot.beginMs + secondOfTwo.widthMs) %
          secondOfTwo.roundPeriodMs := by
    decide
  obtain ⟨_, _, unique, shifted⟩ :=
    SyncSettings.computeDelay_isPhaseError valid ends 1011 1 (1013 / 1000) 3
  have isOne :
      1 = secondOfTwo.computeDelay lastSlot 1011 1 (1013 / 1000) 3 := by
    refine unique 1
      ⟨⟨by norm_num [secondOfTwo], by norm_num [secondOfTwo]⟩, ?_⟩
    rw [modEq_iff_zsmul]
    exact
      ⟨0, by
        norm_num [SyncSettings.phaseError, SyncSettings.widthMs, secondOfTwo,
          lastSlot]⟩
  refine ⟨isOne.symm, ?_⟩
  rw [shifted (-5) 98, ← isOne]
  rw [modEq_iff_zsmul]
  exact ⟨-1, by norm_num [secondOfTwo]⟩

end RoutingMesh
