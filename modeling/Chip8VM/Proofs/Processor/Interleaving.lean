import Chip8VM.Proofs.Machine.Halting
import Chip8VM.Proofs.Processor.Command
import Mathlib.Control.Monad.Basic

/-!
Ticks between instructions. Only two instructions look at the delay timer, one
that reads it and one that sets it, and none looks at the other timer. A tick can
be moved across any other instruction, and across a step that fails; so in a run
without those two it does not matter when the ticks come.
-/

namespace Chip8VM

/-- Whether an instruction reads or sets the delay timer. -/
def Instruction.usesDelay : Instruction → Bool
  | .readDelay _ => true
  | .setDelay _ => true
  | _ => false

namespace Machine

theorem execute_of_usesDelay (m : Machine) {instruction : Instruction}
    (huses : instruction.usesDelay = true) :
    ∃ after, m.execute instruction = .ok after := by
  cases instruction with
  | readDelay x => exact ⟨_, rfl⟩
  | setDelay x => exact ⟨_, rfl⟩
  | _ => cases huses

private theorem ret_tick (m : Machine) : m.tick.ret = m.ret.map tick := by
  have hstack : m.tick.stack = m.stack := rfl
  unfold ret
  rw [hstack]
  cases m.stack.pop? with
  | none => rfl
  | some popped => rfl

private theorem awaitKey_tick (m : Machine) (x : Register) :
    m.tick.awaitKey x = (m.awaitKey x).tick := by
  have hkeypad : m.tick.keypad = m.keypad := rfl
  unfold awaitKey
  rw [hkeypad]
  cases m.keypad.lowest? with
  | none => rfl
  | some key => rfl

private theorem next_tick (m : Machine) : m.tick.next = m.next.tick := rfl

private theorem loadRegisters_tick (m : Machine) (x : Register) :
    m.tick.loadRegisters x = (m.loadRegisters x).tick := by
  simp only [loadRegisters, tick, register]

/-- An instruction that leaves the delay timer alone has the same effect before a
tick and after it. -/
theorem execute_tick (m : Machine) {instruction : Instruction}
    (hspares : instruction.usesDelay = false) :
    m.tick.execute instruction = (m.execute instruction).map tick := by
  -- A return and a wait branch on what a tick leaves alone; a load builds all registers anew.
  cases instruction with
  | ret => exact m.ret_tick
  | waitKey x => exact congrArg Except.ok (m.awaitKey_tick x)
  | load x => simp only [execute, loadRegisters_tick, next_tick, Except.map]
  | readDelay x => cases hspares
  | setDelay x => cases hspares
  | _ => rfl

/-- The instruction that comes next leaves the delay timer alone, if there is one. -/
def SparesDelay (m : Machine) : Prop :=
  ∀ decoded, decode m.fetch = .ok decoded → decoded.instruction.usesDelay = false

theorem step_tick {m : Machine} (hspares : m.SparesDelay) :
    m.tick.step = m.step.map fun result => (result.1, result.2.tick) := by
  have hfetch : m.tick.fetch = m.fetch := rfl
  unfold step
  rw [hfetch]
  cases hdecode : decode m.fetch with
  | error cause => rfl
  | ok decoded =>
      simp only [bind, Except.bind, m.execute_tick (hspares decoded hdecode)]
      cases m.execute decoded.instruction with
      | error cause => rfl
      | ok after => rfl

end Machine

namespace Processor

theorem report_tick (p : Processor) (logger : Logger) (level : Level) (message : String) :
    p.tick.report logger level message = (p.report logger level message).tick := by
  unfold report
  cases logger.record? level message with
  | some record => rfl
  | none => rfl

theorem beepFor_tick (p : Processor) (form : Form) :
    p.tick.beepFor form = (p.beepFor form).tick := by
  have hspeaker : p.tick.machine.speaker = p.machine.speaker := rfl
  unfold beepFor
  rw [hspeaker]
  split <;> rfl

/-- A tick before a step is as good as one behind it. -/
theorem step_tick {p : Processor} (hspares : p.machine.SparesDelay) :
    p.tick.step = (p.step.1, p.step.2.tick) := by
  have hmachine : p.tick.machine.step =
      p.machine.step.map fun result => (result.1, result.2.tick) := Machine.step_tick hspares
  unfold step
  rw [hmachine]
  cases p.machine.step with
  | error cause =>
      simp only [Except.map, report_tick]
      rfl
  | ok result =>
      let executed := { p.beepFor result.1.instruction.form with machine := result.2 }
      have hreport := executed.report_tick p.logger .debug (traceText p.machine.pc result.1)
      simp only [Except.map, beepFor_tick]
      exact congrArg (Prod.mk _) hreport

/-- What each step of a run has executed, or why it has failed. -/
def executions (p : Processor) : List Beat → List (Except Halt Decoded)
  | [] => []
  | .instruction :: rest => p.step.1 :: p.step.2.executions rest
  | .tick :: rest => p.tick.executions rest

/-- A run executes no instruction that uses the delay timer. -/
def SparesDelay (p : Processor) (beats : List Beat) : Prop :=
  ∀ decoded, .ok decoded ∈ p.executions beats → decoded.instruction.usesDelay = false

theorem perform_step_eq (p : Processor) : (p.perform .step).2 = p.step.2 := by
  unfold perform
  rcases p.step with ⟨⟨cause⟩ | ⟨decoded⟩, after⟩ <;> rfl

theorem machine_sparesDelay {p : Processor} {rest : List Beat}
    (hspares : p.SparesDelay (.instruction :: rest)) : p.machine.SparesDelay := by
  intro decoded hdecode
  cases huses : decoded.instruction.usesDelay with
  | false => rfl
  | true =>
      obtain ⟨after, hexecute⟩ := p.machine.execute_of_usesDelay huses
      have hstep := (p.machine.step_eq_ok_iff decoded after).mpr ⟨hdecode, hexecute⟩
      have hanswer : p.step.1 = .ok decoded := by simp only [step, hstep]
      have hmem : .ok decoded ∈ p.executions (.instruction :: rest) := by
        rw [executions, hanswer]
        exact List.mem_cons_self
      exact huses.symm.trans (hspares decoded hmem)

theorem executions_exchange {p : Processor} (hspares : p.machine.SparesDelay)
    (rest : List Beat) :
    p.executions (.tick :: .instruction :: rest) =
      p.executions (.instruction :: .tick :: rest) ∧
    p.performAll ((Beat.tick :: .instruction :: rest).map Beat.command) =
      p.performAll ((Beat.instruction :: .tick :: rest).map Beat.command) := by
  have hstep := step_tick hspares
  have hafter : (p.tick.perform .step).2 = ((p.perform .step).2.perform .tick).2 := by
    rw [perform_step_eq, perform_step_eq, hstep]
    rfl
  constructor
  · simp only [executions, hstep]
  · exact congrArg (fun q : Processor => q.performAll (rest.map Beat.command)) hafter

/-- A run that leaves the delay timer alone is not changed by another order of its
beats. Two of them that are next to each other are exchanged at a time. -/
theorem executions_of_perm {first second : List Beat} (hperm : first.Perm second)
    {p : Processor} (hspares : p.SparesDelay first) :
    p.executions first = p.executions second ∧
    p.performAll (first.map Beat.command) = p.performAll (second.map Beat.command) := by
  induction hperm generalizing p with
  | nil => exact ⟨rfl, rfl⟩
  | @cons beat first second _ ih =>
      cases beat with
      | tick => exact ih (p := p.tick) hspares
      | instruction =>
          have hrest : p.step.2.SparesDelay first := fun decoded hmem =>
            hspares decoded (List.mem_cons_of_mem _ hmem)
          obtain ⟨hexecutions, hafter⟩ := ih hrest
          rw [← perform_step_eq] at hafter
          exact ⟨congrArg (p.step.1 :: ·) hexecutions, hafter⟩
  | swap one other rest =>
      cases one with
      | instruction =>
          cases other with
          | instruction => exact ⟨rfl, rfl⟩
          | tick =>
              have htick : p.tick.SparesDelay (.instruction :: rest) := hspares
              have hnext : p.tick.machine.SparesDelay := machine_sparesDelay htick
              exact executions_exchange (p := p) hnext rest
      | tick =>
          cases other with
          | instruction =>
              obtain ⟨hexecutions, hafter⟩ :=
                executions_exchange (machine_sparesDelay hspares) rest
              exact ⟨hexecutions.symm, hafter.symm⟩
          | tick => exact ⟨rfl, rfl⟩
  | trans _ _ ih ih' =>
      obtain ⟨hexecutions, hafter⟩ := ih hspares
      have hmiddle : p.SparesDelay _ := fun decoded hmem => hspares decoded (hexecutions ▸ hmem)
      obtain ⟨hexecutions', hafter'⟩ := ih' hmiddle
      exact ⟨hexecutions.trans hexecutions', hafter.trans hafter'⟩

/-- Ticks commute with all steps but those that use the delay timer, with those
that fail too: the answer is the same, and so is all that is left behind. Hence a
run of so many steps and so many ticks, in which the delay timer is not used, ends
in the same state and executes the same instructions, whatever the order in which
they come. -/
theorem ticks_commute_with_steps (p : Processor) :
    (p.machine.SparesDelay → p.tick.step = (p.step.1, p.step.2.tick)) ∧
    ∀ first second : List Beat,
      first.count .instruction = second.count .instruction →
      first.count .tick = second.count .tick →
      p.SparesDelay first →
      p.SparesDelay second ∧
      p.executions first = p.executions second ∧
      p.performAll (first.map Beat.command) = p.performAll (second.map Beat.command) := by
  constructor
  · exact step_tick
  · intro first second hinstructions hticks hspares
    have hperm : first.Perm second := by
      rw [List.perm_iff_count]
      intro beat
      cases beat with
      | instruction => exact hinstructions
      | tick => exact hticks
    obtain ⟨hexecutions, hafter⟩ := executions_of_perm hperm hspares
    have hsecond : p.SparesDelay second := fun decoded hmem =>
      hspares decoded (hexecutions ▸ hmem)
    exact ⟨hsecond, hexecutions, hafter⟩

/-- A program that sets a register, adds to it and then returns from nowhere, while
both timers run. -/
def timed : Processor :=
  ofMachine { Machine.holding [0x60, 0x05, 0x70, 0x01, 0x00, 0xEE] with delay := 3, sound := 1 } {}

/-- The step that fails commutes with the ticks like the others. -/
theorem ticks_commute_with_failing_step :
    let first := [.tick, .instruction, .instruction, .tick, .instruction]
    let second := [.instruction, .instruction, .instruction, .tick, .tick]
    timed.tick.step = (timed.step.1, timed.step.2.tick) ∧
    timed.executions second =
      [.ok ⟨0x6005, .loadByte 0 5⟩, .ok ⟨0x7001, .addByte 0 1⟩,
        .error (.stackUnderflow 0x204)] ∧
    timed.executions first = timed.executions second ∧
    timed.performAll (first.map Beat.command) = timed.performAll (second.map Beat.command) := by
  intro first second
  have hdecode : decode timed.machine.fetch = .ok ⟨0x6005, .loadByte 0 5⟩ := by decide +kernel
  have hexecutions : timed.executions first =
      [.ok ⟨0x6005, .loadByte 0 5⟩, .ok ⟨0x7001, .addByte 0 1⟩,
        .error (.stackUnderflow 0x204)] := by
    decide +kernel
  have hnext : timed.machine.SparesDelay := by
    intro decoded hdecoded
    cases hdecode.symm.trans hdecoded
    rfl
  have hspares : timed.SparesDelay first := by
    intro decoded hmem
    rw [hexecutions] at hmem
    simp only [List.mem_cons, Except.ok.injEq, reduceCtorEq, List.not_mem_nil, or_false] at hmem
    rcases hmem with rfl | rfl <;> rfl
  obtain ⟨hstep, hruns⟩ := ticks_commute_with_steps timed
  obtain ⟨-, hsame, hafter⟩ := hruns first second rfl rfl hspares
  exact ⟨hstep hnext, hsame ▸ hexecutions, hsame, hafter⟩

end Processor

end Chip8VM
