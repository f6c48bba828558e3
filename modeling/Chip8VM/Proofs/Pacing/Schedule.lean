import Chip8VM.Proofs.Pacing.Slicing

/-!
The schedule of a host: the beats of several intervals, one list for each. What is
owed depends on the rates and the debts of the clocks alone, so a schedule is known
before anything is delivered, whatever the processor will make of it. In exact
arithmetic the lists of a schedule together are the beats of the whole time.
-/

namespace Chip8VM

namespace Clock

variable {τ : Type} [Quantity τ]

theorem owed_eq (clock : Clock τ) (elapsed : τ) :
    clock.owed elapsed =
      if Quantity.isBeyond (clock.debt + elapsed * clock.rate) then .error .beyond
      else Quantity.integerPart (clock.debt + elapsed * clock.rate) := by
  unfold owed charge
  by_cases hbeyond : Quantity.isBeyond (clock.debt + elapsed * clock.rate)
  · simp only [hbeyond, if_true]
    rfl
  · simp only [hbeyond, Bool.false_eq_true, if_false]
    rfl

theorem owed_countedBy (clock : Clock τ) (cycles : Nat) (elapsed : τ) :
    (clock.countedBy cycles).owed elapsed = clock.owed elapsed := by
  rw [owed_eq, owed_eq]
  rfl

end Clock

namespace Host

section

variable {τ : Type} [Quantity τ]

/-- The beats of several intervals; there are none to be had if a debt has no
integer part. -/
def schedule (host : Host τ) : List τ → Except Unmeasured (List (List Beat))
  | [] => .ok []
  | elapsed :: rest => do
      let executed ← host.instructions.owed elapsed
      let ticks ← host.ticks.owed elapsed
      let later ← (host.paid elapsed executed ticks).schedule rest
      return host.beats executed ticks :: later

theorem schedule_cons_eq_ok_iff (host : Host τ) (elapsed : τ) (rest : List τ)
    (schedule : List (List Beat)) :
    host.schedule (elapsed :: rest) = .ok schedule ↔
      ∃ executed ticks later, host.instructions.owed elapsed = .ok executed ∧
        host.ticks.owed elapsed = .ok ticks ∧
        (host.paid elapsed executed ticks).schedule rest = .ok later ∧
        schedule = host.beats executed ticks :: later := by
  simp only [Host.schedule, Machine.bind_ok_iff]
  constructor
  · rintro ⟨executed, hexecuted, ticks, hticks, later, hlater, hschedule⟩
    exact ⟨executed, ticks, later, hexecuted, hticks, hlater, (Except.ok.inj hschedule).symm⟩
  · rintro ⟨executed, ticks, later, hexecuted, hticks, hlater, rfl⟩
    exact ⟨executed, hexecuted, ticks, hticks, later, hlater, rfl⟩

/-- A schedule has a list of beats for each interval. -/
theorem length_of_schedule {host : Host τ} {slices : List τ} {schedule : List (List Beat)}
    (hschedule : host.schedule slices = .ok schedule) : schedule.length = slices.length := by
  induction slices generalizing host schedule with
  | nil => cases hschedule; rfl
  | cons elapsed rest ih =>
      obtain ⟨executed, ticks, later, -, -, hlater, rfl⟩ :=
        (host.schedule_cons_eq_ok_iff elapsed rest schedule).mp hschedule
      rw [List.length_cons, List.length_cons, ih hlater]

/-- Neither what the clocks have counted nor the processor is in a schedule. -/
theorem schedule_counted (host : Host τ) (processor : Processor) (executed ticks : Nat)
    (slices : List τ) :
    schedule { host with
        processor := processor
        instructions := host.instructions.countedBy executed
        ticks := host.ticks.countedBy ticks } slices =
      host.schedule slices := by
  induction slices generalizing host with
  | nil => rfl
  | cons elapsed rest ih =>
      simp only [schedule, Clock.owed_countedBy]
      refine bind_congr (m := Except Unmeasured) fun owed => bind_congr fun owed' => ?_
      exact congrArg (· >>= _) (ih (host.paid elapsed owed owed'))

theorem schedule_behind (host : Host τ) (beats : List Beat) (slices : List τ) :
    (host.behind beats).schedule slices = host.schedule slices :=
  host.schedule_counted _ _ _ _

end

variable {host : Host ℚ}

/-- A schedule in exact arithmetic is the timeline, cut into slices. -/
theorem schedule_exact (hsettled : host.Settled) {slices : List ℚ}
    (hslices : ∀ slice ∈ slices, 0 ≤ slice) :
    ∃ schedule, host.schedule slices = .ok schedule ∧
      schedule.flatten = host.timeline slices.sum := by
  induction slices generalizing host with
  | nil => exact ⟨[], rfl, (timeline_zero hsettled).symm⟩
  | cons slice rest ih =>
      obtain ⟨hslice, hrest⟩ := List.forall_mem_cons.mp hslices
      obtain ⟨later, hlater, hflatten⟩ := ih (settled_later hsettled) hrest
      have hpaid : (host.paid slice (host.instructions.cycles slice)
          (host.ticks.cycles slice)).schedule rest = .ok later := by
        rw [← schedule_behind _ (host.timeline slice)]
        exact hlater
      refine ⟨host.timeline slice :: later, ?_, ?_⟩
      · exact (host.schedule_cons_eq_ok_iff _ _ _).mpr ⟨_, _, later,
          Clock.owed_of_settled hsettled.instructions hslice,
          Clock.owed_of_settled hsettled.ticks hslice, hpaid, rfl⟩
      · rw [List.flatten_cons, hflatten, List.sum_cons,
          timeline_add hsettled hslice (List.sum_nonneg hrest)]

end Host

end Chip8VM
