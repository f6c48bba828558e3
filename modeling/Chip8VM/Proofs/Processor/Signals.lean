import Chip8VM.Proofs.Processor.Executions

/-!
What a processor signals. A command adds to the signals, never takes one back, and
what it adds depends on nothing but the machine and the logger: `Machine.emits` for
one command, `Machine.emissions` for several. A step beeps before it is logged.
-/

namespace Chip8VM

open Processor (Command)

/-- The signal that goes with a message, unless the logger filters it. -/
def Logger.signals (logger : Logger) (level : Level) (message : String) : List Signal :=
  ((logger.record? level message).map Signal.record).toList

theorem Logger.beep_notMem_signals (logger : Logger) (level : Level) (message : String) :
    Signal.beep ∉ logger.signals level message := by
  simp [signals]

namespace Machine

/-- The beep of an instruction, if it beeps and the machine has a speaker. -/
def beep (m : Machine) (form : Form) : List Signal :=
  if form = .sound ∧ m.speaker then [.beep] else []

/-- What a processor signals when its machine is given a command. -/
def emits (m : Machine) (logger : Logger) : Command → List Signal
  | .step =>
      match m.step with
      | .ok (decoded, _) =>
          m.beep decoded.instruction.form ++ logger.signals .debug (traceText m.pc decoded)
      | .error cause => logger.signals .error (haltText m.pc cause)
  | .loadRom path rom =>
      match m.perform (.loadRom path rom) with
      | (.ok _, _) => logger.signals .info ("Loaded ROM " ++ path)
      | (.error _, _) => []
  | .reset setup =>
      match setup.machine with
      | .ok _ => logger.signals .info "Processor reset"
      | .error _ => []
  | _ => []

def emissions (m : Machine) (logger : Logger) : List Command → List Signal
  | [] => []
  | command :: rest => m.emits logger command ++ (m.perform command).2.emissions logger rest

theorem emits_of_execution? {m : Machine} {command : Command} {e : Execution}
    (hexecution : m.execution? command = some e) (logger : Logger) :
    m.emits logger command =
      m.beep e.form ++ logger.signals .debug (traceText m.pc e.decoded) := by
  obtain ⟨rfl, rfl, _⟩ := perform_of_execution? hexecution
  simp only [emits, e.step_eq]
  rfl

theorem beep_notMem_emits {m : Machine} {command : Command}
    (hnone : m.execution? command = none) (logger : Logger) :
    Signal.beep ∉ m.emits logger command := by
  cases command with
  | step =>
      simp only [emits]
      split
      next hstep => cases hnone.symm.trans (execution?_of_step hstep)
      next => exact logger.beep_notMem_signals _ _
  | loadRom path rom =>
      simp only [emits]
      split
      next => exact logger.beep_notMem_signals _ _
      next => exact List.not_mem_nil
  | reset setup =>
      simp only [emits]
      split
      next => exact logger.beep_notMem_signals _ _
      next => exact List.not_mem_nil
  | _ => exact List.not_mem_nil

end Machine

namespace Processor

/-- A processor has signalled some more, and has not changed its logger. -/
def Adds (p after : Processor) (signals : List Signal) : Prop :=
  after.logger = p.logger ∧ after.signals.toList = p.signals.toList ++ signals

theorem adds_report (p : Processor) (logger : Logger) (level : Level) (message : String) :
    p.Adds (p.report logger level message) (logger.signals level message) := by
  unfold report Logger.signals
  cases logger.record? level message with
  | none => simp [Adds]
  | some record => simp [Adds, emit]

theorem adds_nothing {p after : Processor} (hlogger : after.logger = p.logger)
    (hsignals : after.signals = p.signals) : p.Adds after [] :=
  ⟨hlogger, by rw [hsignals, List.append_nil]⟩

theorem adds_step (p : Processor) : p.Adds (p.perform .step).2 (p.machine.emits p.logger .step) := by
  simp only [perform, step, Machine.emits]
  cases p.machine.step with
  | error cause => exact p.adds_report _ _ _
  | ok result =>
      obtain ⟨decoded, after⟩ := result
      let executed := { p.beepFor decoded.instruction.form with machine := after }
      have hbeep : p.Adds executed (p.machine.beep decoded.instruction.form) := by
        simp only [executed, beepFor, Machine.beep]
        split
        next => simp [Adds, emit]
        next => exact adds_nothing rfl rfl
      obtain ⟨hlogger, hsignals⟩ :=
        executed.adds_report p.logger .debug (traceText p.machine.pc decoded)
      refine ⟨hlogger.trans hbeep.1, ?_⟩
      rw [← List.append_assoc, ← hbeep.2]
      exact hsignals

theorem adds_loadRom (p : Processor) (path : String) (rom : Rom) :
    p.Adds (p.perform (.loadRom path rom)).2 (p.machine.emits p.logger (.loadRom path rom)) := by
  simp only [perform, loadRom, Machine.emits, Machine.perform]
  split
  next => exact adds_nothing rfl rfl
  next =>
    cases rom with
    | error error => exact adds_nothing rfl rfl
    | ok data =>
        simp only [load, Machine.load]
        cases Memory.place? p.machine.memory programStart data with
        | none => exact adds_nothing rfl rfl
        | some memory =>
            let loaded := { p with machine := { p.machine with memory } }
            exact loaded.adds_report p.logger .info ("Loaded ROM " ++ path)

theorem adds_perform (p : Processor) (command : Command) :
    p.Adds (p.perform command).2 (p.machine.emits p.logger command) := by
  cases command with
  | step => exact p.adds_step
  | tick => exact adds_nothing rfl rfl
  | press number =>
      simp only [perform, withKey]
      cases Key.ofInt? number with
      | some key => exact adds_nothing rfl rfl
      | none => exact adds_nothing rfl rfl
  | release number =>
      simp only [perform, withKey]
      cases Key.ofInt? number with
      | some key => exact adds_nothing rfl rfl
      | none => exact adds_nothing rfl rfl
  | load data start =>
      simp only [perform, load]
      cases Memory.place? p.machine.memory start data with
      | some memory => exact adds_nothing rfl rfl
      | none => exact adds_nothing rfl rfl
  | loadRom path rom => exact p.adds_loadRom path rom
  | reset setup =>
      simp only [perform, reset, Machine.emits]
      cases setup.machine with
      | ok machine =>
          exact { p with machine := machine }.adds_report p.logger .info "Processor reset"
      | error error => exact adds_nothing rfl rfl

theorem adds_performAll (p : Processor) (commands : List Command) :
    p.Adds (p.performAll commands) (p.machine.emissions p.logger commands) := by
  induction commands generalizing p with
  | nil => exact adds_nothing rfl rfl
  | cons command rest ih =>
      obtain ⟨hlogger, hsignals⟩ := p.adds_perform command
      obtain ⟨hlogger', hsignals'⟩ := ih (p.perform command).2
      refine ⟨hlogger'.trans hlogger, ?_⟩
      rw [Machine.emissions, ← List.append_assoc, ← hsignals, ← (p.perform_machine command).2,
        ← hlogger]
      exact hsignals'

end Processor

end Chip8VM
