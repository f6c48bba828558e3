import Chip8VM.Proofs.Machine.Halting
import Chip8VM.Proofs.Processor.Command
import Mathlib.Logic.Function.Iterate

/-!
Operations that fail. None of them changes the machine; a step fails exactly
when the machine halts, and from then on every step fails in the same way,
however often the timers tick in between.
-/

namespace Chip8VM

open Processor (Answer Command)

namespace Machine

/-- A command that fails, for whatever reason, leaves the machine as it is. -/
theorem perform_of_fault {m : Machine} {command : Command} {fault : Fault}
    (hfault : (m.perform command).1 = .error fault) : (m.perform command).2 = m := by
  have heffect := m.perform_effect command
  rw [hfault] at heffect
  generalize (m.perform command).2 = after at heffect ⊢
  cases heffect with
  | halted _ => rfl
  | refused _ => rfl

theorem perform_step_of_halts {m : Machine} {cause : Halt} (hhalts : m.HaltsWith cause) :
    m.perform .step = (.error (.halt cause), m) := by
  have hstep := (m.step_eq_error_iff cause).mpr hhalts
  simp only [perform, hstep]

theorem step_fault_iff (m : Machine) (fault : Fault) :
    (m.perform .step).1 = .error fault ↔
      ∃ cause, fault = .halt cause ∧ m.HaltsWith cause := by
  constructor
  · intro hfault
    have heffect := m.perform_effect .step
    rw [hfault] at heffect
    generalize (m.perform .step).2 = after at heffect
    cases heffect with
    | @halted cause hstep => exact ⟨cause, rfl, (m.step_eq_error_iff cause).mp hstep⟩
    | refused hother => exact absurd rfl hother
  · rintro ⟨cause, rfl, hhalts⟩
    rw [perform_step_of_halts hhalts]

theorem iterate_tick (m : Machine) (ticks : Nat) :
    tick^[ticks] m =
      { m with delay := countDown^[ticks] m.delay, sound := countDown^[ticks] m.sound } := by
  induction ticks generalizing m with
  | zero => rfl
  | succ ticks ih =>
      rw [Function.iterate_succ_apply, ih]
      rfl

/-- How a halted machine answers: to each step with the same fault, and to a
tick as always. -/
def haltedAnswer (fault : Fault) : Beat → Except Fault Answer
  | .instruction => .error fault
  | .tick => .ok .done

/-- The invariant is that the machine halts: a step that fails leaves it as it
is, and a tick keeps it halted. -/
theorem beats_of_halts {m : Machine} {cause : Halt} (hhalts : m.HaltsWith cause)
    (beats : List Beat) :
    m.answers (beats.map Beat.command) = beats.map (haltedAnswer (.halt cause)) ∧
    m.performAll (beats.map Beat.command) = tick^[beats.count .tick] m := by
  induction beats generalizing m with
  | nil => exact ⟨rfl, rfl⟩
  | cons beat rest ih =>
      cases beat with
      | instruction =>
          obtain ⟨hanswers, hafter⟩ := ih hhalts
          have hstep := perform_step_of_halts hhalts
          simp only [List.map_cons, Beat.command, answers, performAll_cons, hstep]
          exact ⟨by rw [hanswers]; rfl, by simpa using hafter⟩
      | tick =>
          obtain ⟨hanswers, hafter⟩ := ih ((m.haltsWith_tick cause).mpr hhalts)
          simp only [List.map_cons, Beat.command, answers, performAll_cons, perform]
          exact ⟨by rw [hanswers]; rfl, by simpa using hafter⟩

end Machine

namespace Processor

theorem perform_of_fault {p : Processor} {command : Command} {fault : Fault}
    (hfault : (p.perform command).1 = .error fault) :
    (p.perform command).2.machine = p.machine := by
  obtain ⟨hanswer, hmachine⟩ := p.perform_machine command
  rw [hmachine]
  exact Machine.perform_of_fault (hanswer.symm.trans hfault)

/-- Whatever fails has no effect on the machine. A step fails if the machine
halts, with the cause of that, and otherwise it leaves behind what the machine
itself makes of the instruction, taken with as many operands as it needs. Once
a step has failed, all later ones fail like it, and nothing but the timers can
change. -/
theorem failures_are_exact_and_lasting (p : Processor) :
    (∀ command fault, (p.perform command).1 = .error fault →
      (p.perform command).2.machine = p.machine) ∧
    (∀ fault, (p.perform .step).1 = .error fault ↔
      ∃ cause, fault = .halt cause ∧ p.machine.HaltsWith cause) ∧
    ((∀ cause, ¬ p.machine.HaltsWith cause) →
      ∃ decoded after, decode p.machine.fetch = .ok decoded ∧
        p.machine.executeStatement decoded.instruction.statement = .ok after ∧
        p.machine.step = .ok (decoded, after) ∧
        (p.perform .step).1 = .ok (.executed decoded) ∧
        (p.perform .step).2.machine = after) ∧
    (∀ fault, (p.perform .step).1 = .error fault → ∀ beats : List Beat,
      let halted := (p.perform .step).2
      halted.answers (beats.map Beat.command) = beats.map (Machine.haltedAnswer fault) ∧
      (halted.performAll (beats.map Beat.command)).machine =
        { p.machine with
          delay := Machine.countDown^[beats.count .tick] p.machine.delay
          sound := Machine.countDown^[beats.count .tick] p.machine.sound }) := by
  refine ⟨?_, ?_, ?_, ?_⟩
  · intro command fault hfault
    rw [(p.perform_machine command).1] at hfault
    rw [(p.perform_machine command).2, Machine.perform_of_fault hfault]
  · intro fault
    rw [(p.perform_machine .step).1]
    exact p.machine.step_fault_iff fault
  · intro hruns
    obtain ⟨decoded, after, hstep⟩ := p.machine.step_of_not_halts hruns
    obtain ⟨hdecode, hexecute⟩ := (p.machine.step_eq_ok_iff decoded after).mp hstep
    have hperform : p.machine.perform .step = (.ok (.executed decoded), after) := by
      simp only [Machine.perform, hstep]
    refine ⟨decoded, after, hdecode, ?_, hstep, ?_, ?_⟩
    · rw [Machine.executeStatement_statement, hexecute]
      rfl
    · rw [(p.perform_machine .step).1, hperform]
    · rw [(p.perform_machine .step).2, hperform]
  · intro fault hfault beats halted
    rw [(p.perform_machine .step).1] at hfault
    have hmachine : halted.machine = p.machine := by
      rw [(p.perform_machine .step).2, Machine.perform_of_fault hfault]
    obtain ⟨cause, rfl, hhalts⟩ := (p.machine.step_fault_iff fault).mp hfault
    obtain ⟨hanswers, hafter⟩ := Machine.beats_of_halts hhalts beats
    constructor
    · rw [answers_machine, hmachine, hanswers]
    · rw [performAll_machine, hmachine, hafter, Machine.iterate_tick]

/-- A program that consists of a return alone. -/
theorem lone_return_fails_for_ever :
    let p := ofMachine (Machine.holding [0x00, 0xEE]) {}
    let underflow : Fault := .halt (.stackUnderflow 0x200)
    (p.perform .step).1 = .error underflow ∧
    (p.perform .step).2.answers [.tick, .step, .tick, .step] =
      [.ok .done, .error underflow, .ok .done, .error underflow] := by
  intro p underflow
  have hfetch : p.machine.fetch = 0x00EE := by decide +kernel
  have hdecode : decode p.machine.fetch = .ok ⟨0x00EE, .ret⟩ := by
    rw [hfetch]
    rfl
  have hhalts : p.machine.HaltsWith (.stackUnderflow 0x200) :=
    .inr ⟨rfl, CallStack.toList_empty, _, hdecode, rfl⟩
  obtain ⟨_, hfault, _, hlasting⟩ := failures_are_exact_and_lasting p
  have hunderflow := (hfault underflow).mpr ⟨_, rfl, hhalts⟩
  exact ⟨hunderflow, (hlasting _ hunderflow [.tick, .instruction, .tick, .instruction]).1⟩

end Processor

end Chip8VM
