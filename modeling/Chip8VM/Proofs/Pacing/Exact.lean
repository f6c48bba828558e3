import Chip8VM.Proofs.Pacing.Agenda
import Chip8VM.Proofs.Pacing.Delivery
import Mathlib.Data.Rat.Floor
import Mathlib.Tactic.FieldSimp
import Mathlib.Tactic.Linarith
import Mathlib.Tactic.Ring

/-!
Pacing in exact arithmetic. Between two advances a clock owes less than a cycle.
In some time it owes as many cycles as its debt and that time are worth
together, rounded down; the fraction is carried over, and a cycle is due in that
time exactly if it is one of those.
-/

namespace Chip8VM

/-- Rational numbers are exact, and none of them is beyond the numbers. -/
instance : Quantity ℚ where
  zero := 0
  ofInt n := n
  isBeyond _ := false
  le a b := decide (a ≤ b)
  integerPart q := .ok (if 0 ≤ q then ⌊q⌋ else ⌈q⌉)

namespace Clock

/-- A clock that runs, and owes a fraction of a cycle. -/
structure Settled (clock : Clock ℚ) : Prop where
  rate_pos : 0 < clock.rate
  debt_nonneg : 0 ≤ clock.debt
  debt_lt_one : clock.debt < 1

/-- The number of cycles that a clock owes in some time. -/
def cycles (clock : Clock ℚ) (elapsed : ℚ) : ℤ := ⌊clock.debt + elapsed * clock.rate⌋

/-- The clock with some time added to its debt. -/
def charged (clock : Clock ℚ) (elapsed : ℚ) : Clock ℚ :=
  { clock with debt := clock.debt + elapsed * clock.rate }

/-- The clock after some time, with the fraction of a cycle that it still owes. -/
def carry (clock : Clock ℚ) (elapsed : ℚ) : Clock ℚ :=
  { clock with debt := Int.fract (clock.debt + elapsed * clock.rate) }

variable {clock : Clock ℚ} {elapsed : ℚ}

theorem charged_debt_nonneg (hsettled : clock.Settled) (helapsed : 0 ≤ elapsed) :
    0 ≤ (clock.charged elapsed).debt :=
  add_nonneg hsettled.debt_nonneg (mul_nonneg helapsed hsettled.rate_pos.le)

theorem cycles_nonneg (hsettled : clock.Settled) (helapsed : 0 ≤ elapsed) :
    0 ≤ clock.cycles elapsed :=
  Int.floor_nonneg.mpr (charged_debt_nonneg hsettled helapsed)

theorem cycles_zero (hsettled : clock.Settled) : clock.cycles 0 = 0 := by
  rw [cycles, zero_mul, add_zero]
  exact Int.floor_eq_zero_iff.mpr ⟨hsettled.debt_nonneg, hsettled.debt_lt_one⟩

theorem carry_zero (hsettled : clock.Settled) : clock.carry 0 = clock := by
  have hfract : Int.fract clock.debt = clock.debt :=
    Int.fract_eq_self.mpr ⟨hsettled.debt_nonneg, hsettled.debt_lt_one⟩
  rw [carry, zero_mul, add_zero, hfract]

theorem settled_carry (hsettled : clock.Settled) (elapsed : ℚ) :
    (clock.carry elapsed).Settled where
  rate_pos := hsettled.rate_pos
  debt_nonneg := Int.fract_nonneg _
  debt_lt_one := Int.fract_lt_one _

theorem settled_countedBy (hsettled : clock.Settled) (cycles : Nat) :
    (clock.countedBy cycles).Settled :=
  ⟨hsettled.rate_pos, hsettled.debt_nonneg, hsettled.debt_lt_one⟩

theorem owed_of_settled (hsettled : clock.Settled) (helapsed : 0 ≤ elapsed) :
    clock.owed elapsed = .ok (clock.cycles elapsed) :=
  congrArg Except.ok (if_pos (charged_debt_nonneg hsettled helapsed))

/-- What is charged in two parts is the whole cycles of the first, and what the
fraction that remains is charged with the second. -/
theorem debt_charged_add (clock : Clock ℚ) (x y : ℚ) :
    clock.debt + (x + y) * clock.rate =
      (clock.carry x).debt + y * (clock.carry x).rate + clock.cycles x := by
  have hfract := Int.fract_add_floor (clock.debt + x * clock.rate)
  simp only [carry, cycles]
  linarith

theorem cycles_add (clock : Clock ℚ) (x y : ℚ) :
    clock.cycles (x + y) = clock.cycles x + (clock.carry x).cycles y := by
  rw [cycles, debt_charged_add, Int.floor_add_intCast, add_comm]
  rfl

theorem cycles_le_cycles_add (hsettled : clock.Settled) (x : ℚ) {y : ℚ} (hy : 0 ≤ y) :
    clock.cycles x ≤ clock.cycles (x + y) := by
  have hmore := cycles_nonneg (settled_carry hsettled x) hy
  rw [cycles_add]
  omega

theorem carry_add (clock : Clock ℚ) (x y : ℚ) :
    clock.carry (x + y) = (clock.carry x).carry y := by
  rw [carry, debt_charged_add, Int.fract_add_intCast]
  rfl

theorem lane_dueAt (clock : Clock ℚ) (cycles : ℤ) (k : Nat) :
    (clock.lane cycles).dueAt k = (k - clock.debt) / clock.rate := by
  simp [Lane.dueAt, lane, Quantity.ofInt]

theorem lane_dueAt_le_iff (hsettled : clock.Settled) (cycles : ℤ) (k : Nat) :
    (clock.lane cycles).dueAt k ≤ elapsed ↔ (k : ℤ) ≤ clock.cycles elapsed := by
  rw [lane_dueAt, div_le_iff₀ hsettled.rate_pos, Clock.cycles, Int.le_floor,
    sub_le_iff_le_add', Int.cast_natCast]

/-- A cycle that is due after some time is due in the clock that remains then
by so much earlier. -/
theorem carry_lane_dueAt (hsettled : clock.Settled) (helapsed : 0 ≤ elapsed)
    (cycles more : ℤ) (k : Nat) :
    ((clock.carry elapsed).lane more).dueAt (((clock.carry elapsed).lane more).done + k) =
      (clock.lane cycles).dueAt ((clock.cycles elapsed).toNat + k) - elapsed := by
  have hrate := hsettled.rate_pos.ne'
  have hcycles : ((clock.cycles elapsed).toNat : ℤ) = clock.cycles elapsed :=
    Int.toNat_of_nonneg (cycles_nonneg hsettled helapsed)
  have hfract := Int.fract_add_floor (clock.debt + elapsed * clock.rate)
  have hdone : ((clock.carry elapsed).lane more).done + k = k := Nat.zero_add k
  rw [hdone, lane_dueAt, lane_dueAt, Nat.cast_add, ← Int.cast_natCast (Int.toNat _), hcycles]
  simp only [carry, Clock.cycles]
  field_simp
  linarith

end Clock

namespace Host

/-- A host both of whose clocks run and owe a fraction of a cycle. -/
structure Settled (host : Host ℚ) : Prop where
  instructions : host.instructions.Settled
  ticks : host.ticks.Settled

/-- What a host has to deliver in some time. -/
def agenda (host : Host ℚ) (elapsed : ℚ) : Agenda ℚ :=
  ⟨host.instructions.lane (host.instructions.cycles elapsed),
    host.ticks.lane (host.ticks.cycles elapsed)⟩

/-- The beats of some time, in the order in which they fall due. -/
def timeline (host : Host ℚ) (elapsed : ℚ) : List Beat := (host.agenda elapsed).toList

/-- The host that has settled what its clocks owe in some time, before it is
delivered. -/
def carry (host : Host ℚ) (elapsed : ℚ) : Host ℚ :=
  { host with
    instructions := host.instructions.carry elapsed
    ticks := host.ticks.carry elapsed }

/-- The host after some time in which nothing has failed. -/
def later (host : Host ℚ) (elapsed : ℚ) : Host ℚ :=
  (host.carry elapsed).behind (host.timeline elapsed)

variable {host : Host ℚ} {elapsed : ℚ}

theorem settled_later (hsettled : host.Settled) : (host.later elapsed).Settled where
  instructions := Clock.settled_countedBy (Clock.settled_carry hsettled.instructions elapsed) _
  ticks := Clock.settled_countedBy (Clock.settled_carry hsettled.ticks elapsed) _

theorem count_timeline (hsettled : host.Settled) (helapsed : 0 ≤ elapsed) :
    ((host.timeline elapsed).count .instruction : ℤ) = host.instructions.cycles elapsed ∧
    ((host.timeline elapsed).count .tick : ℤ) = host.ticks.cycles elapsed := by
  obtain ⟨hinstructions, hticks⟩ := (host.agenda elapsed).count_toList
  rw [timeline, hinstructions, hticks]
  exact ⟨Int.toNat_of_nonneg (Clock.cycles_nonneg hsettled.instructions helapsed),
    Int.toNat_of_nonneg (Clock.cycles_nonneg hsettled.ticks helapsed)⟩

theorem timeline_zero (hsettled : host.Settled) : host.timeline 0 = [] := by
  refine Agenda.toList_of_none ((Agenda.next?_eq_none_iff _).mpr ?_)
  rw [agenda, Clock.cycles_zero hsettled.instructions, Clock.cycles_zero hsettled.ticks]
  exact ⟨rfl, rfl⟩

theorem later_zero (hsettled : host.Settled) : host.later 0 = host := by
  rw [later, timeline_zero hsettled, behind_nil, carry, Clock.carry_zero hsettled.instructions,
    Clock.carry_zero hsettled.ticks]

/-- To advance is to settle what the clocks owe and to deliver the timeline. -/
theorem advance_of_completes (hsettled : host.Settled) (helapsed : 0 ≤ elapsed)
    (hcompletes : host.processor.Completes (host.timeline elapsed)) :
    host.advance elapsed = (.ok (host.instructions.cycles elapsed), host.later elapsed) :=
  advance_ok_of_owed (Clock.owed_of_settled hsettled.instructions helapsed)
    (Clock.owed_of_settled hsettled.ticks helapsed) hcompletes

theorem advance_of_not_completes (hsettled : host.Settled) (helapsed : 0 ≤ elapsed)
    (hfails : ¬host.processor.Completes (host.timeline elapsed)) :
    ∃ cause after, host.advance elapsed = (.error (.halt cause), after) := by
  obtain ⟨_, _, cause, -, -, -, hadvance⟩ :=
    advance_error_of_owed (Clock.owed_of_settled hsettled.instructions helapsed)
      (Clock.owed_of_settled hsettled.ticks helapsed) hfails
  exact ⟨cause, _, hadvance⟩

end Host

end Chip8VM
