import Mathlib.Logic.Function.Basic

/-!
# Custody of handles

A system hands out handles that have to be given back, each opened for an
owner.  Its places (entries of tables, local variables of threads) hold them.
Custody is exact when every open handle is held at one place only, which
belongs to its owner, and no place holds a closed one.  Acquiring into a
vacant place, releasing a place and moving between places keep custody exact,
so a system that does nothing else with its handles neither closes one twice
nor closes one of another owner, and what it leaves open is what its places
hold.
-/

namespace Custody

/-- What each place holds, and for whom each handle is open. -/
@[ext]
structure State (Place Handle Owner : Type*) where
  holds : Place → Option Handle
  opened : Handle → Option Owner

variable {Place Handle Owner : Type*}

/-- Every open handle is held at exactly one place, which is one of its owner. -/
structure Exact
    (ownerOf : Place → Owner)
    (state : State Place Handle Owner) : Prop where
  opened_of_holds :
    ∀ {place handle}, state.holds place = some handle →
      state.opened handle = some (ownerOf place)
  held :
    ∀ {handle owner}, state.opened handle = some owner →
      ∃ place, state.holds place = some handle
  exclusive :
    ∀ {place other handle}, state.holds place = some handle →
      state.holds other = some handle → place = other

section

variable [DecidableEq Place] [DecidableEq Handle]
variable (ownerOf : Place → Owner)

/-- A handle is opened and held at a place. -/
def State.acquire
    (state : State Place Handle Owner)
    (place : Place)
    (handle : Handle) : State Place Handle Owner where
  holds := Function.update state.holds place (some handle)
  opened := Function.update state.opened handle (some (ownerOf place))

/-- What a place holds is closed. -/
def State.release
    (state : State Place Handle Owner)
    (place : Place) : State Place Handle Owner :=
  match state.holds place with
  | none => state
  | some handle =>
      { holds := Function.update state.holds place none
        opened := Function.update state.opened handle none }

/-- What one place holds goes to another. -/
def State.move
    (state : State Place Handle Owner)
    (source target : Place) : State Place Handle Owner :=
  { state with
    holds :=
      Function.update (Function.update state.holds source none) target
        (state.holds source) }

variable {ownerOf}
variable {state : State Place Handle Owner}

/-- A closed handle may be acquired into a vacant place. -/
theorem Exact.acquire
    (exact : Exact ownerOf state)
    {place : Place}
    {handle : Handle}
    (vacant : state.holds place = none)
    (closed : state.opened handle = none) :
    Exact ownerOf (state.acquire ownerOf place handle) := by
  have unheld : ∀ other, state.holds other ≠ some handle := by
    intro other holds
    rw [exact.opened_of_holds holds] at closed
    exact absurd closed (by simp)
  constructor
  · intro other otherHandle holds
    simp only [State.acquire, Function.update_apply] at holds ⊢
    grind [exact.opened_of_holds]
  · intro otherHandle owner isOpen
    simp only [State.acquire, Function.update_apply] at isOpen ⊢
    by_cases same : otherHandle = handle
    · exact ⟨place, by simp [same]⟩
    · rw [if_neg same] at isOpen
      obtain ⟨other, holds⟩ := exact.held isOpen
      refine ⟨other, ?_⟩
      rw [if_neg, holds]
      rintro rfl
      rw [vacant] at holds
      simp at holds
  · intro first second otherHandle firstHolds secondHolds
    simp only [State.acquire, Function.update_apply] at firstHolds secondHolds
    grind [exact.exclusive]

/-- A place may be released at any time. -/
theorem Exact.release
    (exact : Exact ownerOf state)
    (place : Place) :
    Exact ownerOf (state.release place) := by
  unfold State.release
  split
  · exact exact
  · rename_i handle holdsHandle
    constructor
    · intro other otherHandle holds
      simp only [Function.update_apply] at holds ⊢
      grind [exact.opened_of_holds, exact.exclusive]
    · intro otherHandle owner isOpen
      simp only [Function.update_apply] at isOpen ⊢
      grind [exact.held]
    · intro first second otherHandle firstHolds secondHolds
      simp only [Function.update_apply] at firstHolds secondHolds
      grind [exact.exclusive]

omit [DecidableEq Handle] in
/-- A handle may go to a vacant place of the same owner. -/
theorem Exact.move
    (exact : Exact ownerOf state)
    {source target : Place}
    (vacant : state.holds target = none)
    (sameOwner : ownerOf source = ownerOf target) :
    Exact ownerOf (state.move source target) := by
  constructor
  · intro other handle holds
    change state.opened handle = some (ownerOf other)
    simp only [State.move, Function.update_apply] at holds
    grind [exact.opened_of_holds]
  · intro handle owner isOpen
    obtain ⟨other, holds⟩ := exact.held isOpen
    simp only [State.move, Function.update_apply]
    by_cases isSource : other = source
    · exact ⟨target, by rw [if_pos rfl, ← isSource, holds]⟩
    · refine ⟨other, ?_⟩
      rw [if_neg, if_neg isSource, holds]
      rintro rfl
      rw [vacant] at holds
      simp at holds
  · intro first second handle firstHolds secondHolds
    simp only [State.move, Function.update_apply] at firstHolds secondHolds
    grind [exact.exclusive]

/-- A released place is vacant. -/
theorem holds_release_self
    (state : State Place Handle Owner)
    (place : Place) :
    (state.release place).holds place = none := by
  unfold State.release
  split
  · assumption
  · simp

end

end Custody
