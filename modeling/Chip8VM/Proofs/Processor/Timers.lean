import Chip8VM.Proofs.Processor.Signals
import Mathlib.Control.Monad.Basic

/-!
The timers during a run. Each tick takes one from a timer until it is zero. The
sound timer counts down from what the setup gives it, since no instruction sets
it; the delay timer counts down from what it was last set to. The instruction that
would start a sound only beeps.
-/

namespace Chip8VM

open Processor (Command)

theorem Instruction.eq_setDelay_of_form {instruction : Instruction}
    (hform : instruction.form = .setDelay) : ∃ x, instruction = .setDelay x := by
  unfold Instruction.form at hform
  split at hform
  all_goals cases hform
  exact ⟨_, rfl⟩

namespace Machine

theorem toNat_countDown (timer : UInt8) : (countDown timer).toNat = timer.toNat - 1 := by
  unfold countDown
  split
  next hzero => rw [hzero]; rfl
  next hpos =>
    have hone : (1 : UInt8) ≤ timer := by
      rw [UInt8.le_iff_toNat_le]
      rw [← UInt8.toNat_inj] at hpos
      exact Nat.one_le_iff_ne_zero.mpr hpos
    exact UInt8.toNat_sub_of_le _ _ hone

theorem toNat_iterate_countDown (ticks : Nat) (timer : UInt8) :
    (countDown^[ticks] timer).toNat = timer.toNat - ticks := by
  induction ticks generalizing timer with
  | zero => rfl
  | succ ticks ih =>
      rw [Function.iterate_succ_apply, ih, toNat_countDown]
      omega

theorem perform_sound (m : Machine) {command : Command}
    (hreset : ∀ setup, command ≠ .reset setup) :
    (m.perform command).2.sound = countDown^[ticksIn [command]] m.sound := by
  cases hexecution : m.execution? command with
  | none => exact (perform_idle hreset hexecution).sound
  | some e =>
      obtain ⟨rfl, rfl, hperform⟩ := perform_of_execution? hexecution
      rw [hperform]
      exact e.frame.sound

theorem performAll_sound (m : Machine) {commands : List Command}
    (hreset : ∀ command ∈ commands, ∀ setup, command ≠ .reset setup) :
    (m.performAll commands).sound = countDown^[ticksIn commands] m.sound := by
  induction commands generalizing m with
  | nil => rfl
  | cons command rest ih =>
      obtain ⟨hfirst, hrest⟩ := List.forall_mem_cons.mp hreset
      rw [performAll_cons, ih _ hrest, m.perform_sound hfirst, ticksIn_cons command rest,
        Function.iterate_add_apply]

/-- A run that does not set the delay timer. -/
theorem performAll_delay (m : Machine) {commands : List Command}
    (hreset : ∀ command ∈ commands, ∀ setup, command ≠ .reset setup)
    (hkept : m.executionsOf .setDelay commands = []) :
    (m.performAll commands).delay = countDown^[ticksIn commands] m.delay := by
  induction commands generalizing m with
  | nil => rfl
  | cons command rest ih =>
      obtain ⟨hfirst, hrest⟩ := List.forall_mem_cons.mp hreset
      rw [performAll_cons, ticksIn_cons, Function.iterate_add_apply]
      cases hexecution : m.execution? command with
      | none =>
          rw [executionsOf_cons_of_none hexecution] at hkept
          rw [ih _ hrest hkept, (perform_idle hfirst hexecution).delay]
      | some e =>
          rw [executionsOf_cons_of_some hexecution] at hkept
          obtain ⟨rfl, rfl, hperform⟩ := perform_of_execution? hexecution
          split at hkept
          next => cases hkept
          next hform =>
            have hdelay := e.frame.delay fun x hset => hform (congrArg Instruction.form hset)
            rw [hperform, ih e.after hrest hkept, hdelay]
            rfl

/-- The value that the delay timer was last given during a run, and the number of
ticks since: the initial value, if no instruction of the run sets the timer, or the
register of the last one that does. -/
inductive DelayGiven (m : Machine) : List Command → UInt8 → Nat → Prop where
  | initially {commands : List Command} :
      m.executionsOf .setDelay commands = [] → DelayGiven m commands m.delay (ticksIn commands)
  | executed {before since : List Command} {e : Execution} {x : Register} :
      (m.performAll before).execution? .step = some e → e.decoded.instruction = .setDelay x →
      e.after.executionsOf .setDelay since = [] →
      DelayGiven m (before ++ .step :: since) (e.before.register x) (ticksIn since)

theorem delay_of_given {m : Machine} {commands : List Command} {value : UInt8} {ticks : Nat}
    (hreset : ∀ command ∈ commands, ∀ setup, command ≠ .reset setup)
    (hgiven : m.DelayGiven commands value ticks) :
    (m.performAll commands).delay = countDown^[ticks] value := by
  cases hgiven with
  | initially hkept => exact m.performAll_delay hreset hkept
  | @executed before since e x hexecution hset hkept =>
      obtain ⟨_, hbefore, hperform⟩ := perform_of_execution? hexecution
      have hafter : e.after.delay = e.before.register x := by
        have hexecute := e.execute_eq
        rw [hset] at hexecute
        rw [← Except.ok.inj hexecute]
      rw [performAll_append, performAll_cons, hperform, ← hafter]
      exact e.after.performAll_delay (fun other hother => hreset other (by simp [hother])) hkept

theorem exists_delayGiven (m : Machine) (commands : List Command) :
    ∃ value ticks, m.DelayGiven commands value ticks := by
  rcases List.eq_nil_or_concat (m.executionsOf .setDelay commands) with hnone | ⟨earlier, e, hlast⟩
  · exact ⟨_, _, .initially hnone⟩
  · rw [List.concat_eq_append] at hlast
    obtain ⟨hform, before, since, rfl, hstep, _, hsince⟩ := exists_step_of_executionsOf hlast
    obtain ⟨x, hset⟩ := Instruction.eq_setDelay_of_form hform
    exact ⟨_, _, .executed hstep hset hsince⟩

theorem perform_speaker (m : Machine) {command : Command}
    (hreset : ∀ setup, command ≠ .reset setup) : (m.perform command).2.speaker = m.speaker := by
  cases hexecution : m.execution? command with
  | none => exact (perform_idle hreset hexecution).speaker
  | some e =>
      obtain ⟨rfl, rfl, hperform⟩ := perform_of_execution? hexecution
      rw [hperform]
      exact e.frame.speaker

/-- A machine with a speaker beeps once for each sound instruction it executes. -/
theorem count_beep_emissions (m : Machine) (logger : Logger) {commands : List Command}
    (hreset : ∀ command ∈ commands, ∀ setup, command ≠ .reset setup) :
    (m.emissions logger commands).count .beep =
      if m.speaker then (m.executionsOf .sound commands).length else 0 := by
  induction commands generalizing m with
  | nil => simp [emissions, executionsOf, executions]
  | cons command rest ih =>
      obtain ⟨hfirst, hrest⟩ := List.forall_mem_cons.mp hreset
      rw [emissions, List.count_append, ih _ hrest, m.perform_speaker hfirst]
      cases hexecution : m.execution? command with
      | none =>
          rw [executionsOf_cons_of_none hexecution,
            List.count_eq_zero_of_not_mem (beep_notMem_emits hexecution logger), Nat.zero_add]
      | some e =>
          obtain ⟨rfl, rfl, hperform⟩ := perform_of_execution? hexecution
          have hquiet := List.count_eq_zero_of_not_mem
            (logger.beep_notMem_signals .debug (traceText e.before.pc e.decoded))
          rw [emits_of_execution? hexecution, List.count_append, hquiet, hperform,
            executionsOf_cons_of_some hexecution, beep]
          by_cases hform : e.form = .sound
          · by_cases hspeaker : e.before.speaker
            · simp [hform, hspeaker, Nat.add_comm]
            · simp [hspeaker]
          · simp [hform]

end Machine

namespace Processor

/-- Each timer is what it was last set to, less the ticks since then, and never below
zero. The setup sets both; after that no instruction sets the sound timer, and the
beeps are those of the sound instructions that have been executed. -/
theorem timers_count_down_from_last_setting {setup : Setup} {logger : Logger} {p : Processor}
    (hcreate : create setup logger = .ok p) (commands : List Command)
    (hreset : ∀ command ∈ commands, ∀ setup, command ≠ .reset setup) :
    let after := p.performAll commands
    (after.machine.sound.toNat : Int) = max (setup.sound.getD 0 - ticksIn commands) 0 ∧
    (∀ (m : Machine) decoded next, m.step = .ok (decoded, next) → next.sound = m.sound) ∧
    (p.machine.delay.toNat : Int) = setup.delay.getD 0 ∧
    (∃ value ticks, p.machine.DelayGiven commands value ticks) ∧
    (∀ value ticks, p.machine.DelayGiven commands value ticks →
      (after.machine.delay.toNat : Int) = max ((value.toNat : Int) - ticks) 0) ∧
    after.signals.toList.count .beep =
      if setup.speaker then (p.machine.executionsOf .sound commands).length else 0 := by
  intro after
  obtain ⟨hmakes, hp⟩ := (create_eq_ok_iff setup logger p).mp hcreate
  have hafter : after.machine = p.machine.performAll commands := p.performAll_machine commands
  refine ⟨?_, ?_, Setup.toNat_given_byte hmakes.delay, ?_, ?_, ?_⟩
  · have hsound := Setup.toNat_given_byte hmakes.sound
    rw [hafter, p.machine.performAll_sound hreset, Machine.toNat_iterate_countDown]
    omega
  · intro m decoded next hstep
    exact (Execution.mk m decoded next hstep).frame.sound
  · exact p.machine.exists_delayGiven commands
  · intro value ticks hgiven
    rw [hafter, Machine.delay_of_given hreset hgiven, Machine.toNat_iterate_countDown]
    omega
  · obtain ⟨_, hsignals⟩ := p.adds_performAll commands
    have hempty : p.signals.toList = [] := by rw [hp]; rfl
    rw [hsignals, hempty, List.nil_append, p.machine.count_beep_emissions p.logger hreset,
      hmakes.speaker]

/-- A program that sets the delay timer between two ticks, beeps, and reads the
timer while it runs. -/
theorem delay_set_while_ticking :
    let setup : Setup := { delay := some 200, sound := some 2 }
    let program : List UInt8 := [0x60, 0x05, 0xF0, 0x15, 0xF0, 0x18, 0xF1, 0x07]
    let before : List Command := [.tick, .load program 0x200, .step]
    let since : List Command := [.tick, .step, .tick, .step, .tick]
    ∃ p, create setup {} = .ok p ∧ p.machine.DelayGiven (before ++ .step :: since) 5 3 ∧
      let after := p.performAll (before ++ .step :: since)
      (after.machine.sound.toNat : Int) = 0 ∧ (after.machine.delay.toNat : Int) = 2 ∧
      after.signals.toList.count .beep = 1 := by
  intro setup program before since
  obtain ⟨p, hcreate, hdecode, hvalue, hsince, hsounds⟩ : ∃ p, create setup {} = .ok p ∧
      let m := p.machine.performAll before
      decode m.fetch = .ok ⟨0xF015, .setDelay 0⟩ ∧ m.register 0 = 5 ∧
      ({ m.next with delay := m.register 0 }.executionsOf .setDelay since).isEmpty ∧
      (p.machine.executionsOf .sound (before ++ .step :: since)).length = 1 :=
    ⟨_, rfl, by decide +kernel⟩
  have hstep := ((p.machine.performAll before).step_eq_ok_iff _ _).mpr ⟨hdecode, rfl⟩
  have hgiven : p.machine.DelayGiven (before ++ .step :: since) 5 3 := by
    rw [← hvalue]
    exact .executed (Machine.execution?_of_step hstep) rfl (List.isEmpty_iff.mp hsince)
  obtain ⟨hsound, _, _, _, hdelay, hbeeps⟩ :=
    timers_count_down_from_last_setting hcreate (before ++ .step :: since)
      (by simp [before, since])
  exact ⟨p, hcreate, hgiven, hsound, hdelay 5 3 hgiven, hbeeps.trans hsounds⟩

end Processor

end Chip8VM
