import Chip8VM.Pacing.Quantity

/-!
The order in which the instructions and the timer ticks of an interval take place. Either kind
falls due at regular times, counted from the beginning of the interval. A tick comes before an
instruction that is not due earlier; an agenda goes from one beat to the next until all that is
owed has been done, and `Agenda.toList` lists its beats.
-/

namespace Chip8VM

inductive Beat where
  | instruction
  | tick
deriving DecidableEq, Repr

/-- What one clock owes in an interval. The fraction of a cycle that was left over from before is
`start`; `owed` cycles are owed, and `done` of them have been delivered. -/
structure Lane (τ : Type) where
  start : τ
  rate : τ
  owed : Nat
  done : Nat

namespace Lane

variable {τ : Type}

def left (lane : Lane τ) : Nat := lane.owed - lane.done

/-- When the `k`-th cycle of the interval is due. -/
def dueAt [Quantity τ] (lane : Lane τ) (k : Nat) : τ :=
  (Quantity.ofInt k - lane.start) / lane.rate

def due [Quantity τ] (lane : Lane τ) : τ := lane.dueAt (lane.done + 1)

def advance (lane : Lane τ) : Lane τ := { lane with done := lane.done + 1 }

end Lane

structure Agenda (τ : Type) where
  instructions : Lane τ
  ticks : Lane τ

namespace Agenda

variable {τ : Type}

def left (agenda : Agenda τ) : Nat := agenda.instructions.left + agenda.ticks.left

def advance (agenda : Agenda τ) : Beat → Agenda τ
  | .instruction => { agenda with instructions := agenda.instructions.advance }
  | .tick => { agenda with ticks := agenda.ticks.advance }

variable [Quantity τ]

/-- Whether the next tick is not later than the next instruction, or no instruction is left. -/
def tickFirst (agenda : Agenda τ) : Bool :=
  decide (agenda.instructions.left = 0) ||
    Quantity.le agenda.ticks.due agenda.instructions.due

def next? (agenda : Agenda τ) : Option Beat :=
  if 0 < agenda.ticks.left ∧ agenda.tickFirst then some .tick
  else if 0 < agenda.instructions.left then some .instruction
  else none

theorem left_advance_lt {agenda : Agenda τ} {beat : Beat} (h : agenda.next? = some beat) :
    (agenda.advance beat).left < agenda.left := by
  unfold next? at h
  split at h
  next some_tick =>
    cases h
    have := some_tick.1
    simp only [left, advance, Lane.left, Lane.advance] at *
    omega
  next =>
    split at h
    next some_instruction =>
      cases h
      simp only [left, advance, Lane.left, Lane.advance] at *
      omega
    next => cases h

/-- The beats that are left, in their order. -/
def toList (agenda : Agenda τ) : List Beat :=
  match _found : agenda.next? with
  | some beat => beat :: (agenda.advance beat).toList
  | none => []
termination_by agenda.left
decreasing_by exact left_advance_lt ‹_›

theorem toList_of_some {agenda : Agenda τ} {beat : Beat} (h : agenda.next? = some beat) :
    agenda.toList = beat :: (agenda.advance beat).toList := by
  rw [toList]
  split
  next other found => rw [h] at found; cases found; rfl
  next absent => rw [h] at absent; cases absent

theorem toList_of_none {agenda : Agenda τ} (h : agenda.next? = none) : agenda.toList = [] := by
  rw [toList]
  split
  next found => rw [h] at found; cases found
  next => rfl

end Agenda

end Chip8VM
