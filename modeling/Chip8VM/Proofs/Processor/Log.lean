import Chip8VM.Proofs.Machine.Halting
import Chip8VM.Proofs.Processor.Signals
import Mathlib.Control.Monad.Basic

/-!
The log of a processor. At the lowest threshold it is a trace of the commands: a
line for each step, with the instruction executed or with the reason why there was
none, and a line for each program file and each reset. Any other threshold leaves
out the lines that rank below it, and changes nothing else.
-/

namespace Chip8VM

open Processor (Answer Command)

theorem Level.rankOfText_name (level : Level) : rankOfText level.name = level.rank := by
  cases level <;> decide +kernel

/-- No threshold ranks above the level of what is critical. -/
theorem Level.rankOfText_le (text : String) : rankOfText text ≤ critical.rank := by
  rw [rankOfText]
  cases (ofText? text).getD .info <;> decide

namespace Logger

theorem signals_eq (logger : Logger) (level : Level) (message : String) :
    logger.signals level message =
      if Level.rankOfText logger.threshold ≤ level.rank then
        [.record ⟨logger.name, level, message⟩]
      else [] := by
  simp only [signals, record?, enabled, Level.rankOfText_name, decide_eq_true_eq]
  split <;> rfl

/-- The lowest threshold leaves nothing out. -/
theorem signals_debug (name : String) (level : Level) (message : String) :
    (⟨name, "DEBUG"⟩ : Logger).signals level message = [.record ⟨name, level, message⟩] := by
  have hlowest : Level.rankOfText "DEBUG" = 0 := Level.rankOfText_name .debug
  rw [signals_eq, hlowest, if_pos (Nat.zero_le _)]

/-- No threshold leaves out what is critical. -/
theorem signals_critical (logger : Logger) (message : String) :
    logger.signals .critical message = [.record ⟨logger.name, .critical, message⟩] := by
  rw [signals_eq, if_pos (Level.rankOfText_le _)]

theorem name_of_mem_signals {logger : Logger} {level : Level} {message : String}
    {entry : LogRecord} (hmem : .record entry ∈ logger.signals level message) :
    entry.logger = logger.name := by
  rw [signals_eq] at hmem
  split at hmem
  · cases List.mem_singleton.mp hmem
    rfl
  · cases hmem

end Logger

namespace Signal

/-- Whether a threshold lets a signal through; a beep is no line of the log. -/
def passes (threshold : String) : Signal → Bool
  | .beep => true
  | .record entry => decide (Level.rankOfText threshold ≤ entry.level.rank)

def record? : Signal → Option LogRecord
  | .beep => none
  | .record entry => some entry

/-- To filter signals is to filter their records. -/
theorem filterMap_record?_filter_passes (threshold : String) (signals : List Signal) :
    (signals.filter (passes threshold)).filterMap record? =
      (signals.filterMap record?).filter
        fun entry => Level.rankOfText threshold ≤ entry.level.rank := by
  induction signals with
  | nil => rfl
  | cons signal rest ih =>
      cases signal with
      | beep => exact ih
      | record entry =>
          by_cases hranks : Level.rankOfText threshold ≤ entry.level.rank
          · simp [passes, record?, hranks, ih]
          · simp [passes, record?, hranks, ih]

end Signal

theorem Logger.signals_filter (name threshold : String) (level : Level) (message : String) :
    (⟨name, threshold⟩ : Logger).signals level message =
      ((⟨name, "DEBUG"⟩ : Logger).signals level message).filter (Signal.passes threshold) := by
  rw [signals_debug, signals_eq]
  by_cases hranks : Level.rankOfText threshold ≤ level.rank
  · simp [Signal.passes, hranks]
  · simp [Signal.passes, hranks]

namespace Machine

theorem beep_filter (m : Machine) (form : Form) (threshold : String) :
    (m.beep form).filter (Signal.passes threshold) = m.beep form := by
  unfold beep
  split
  next => simp [Signal.passes]
  next => rfl

theorem emits_filter (m : Machine) (name threshold : String) (command : Command) :
    m.emits ⟨name, threshold⟩ command =
      (m.emits ⟨name, "DEBUG"⟩ command).filter (Signal.passes threshold) := by
  cases command with
  | step =>
      simp only [emits]
      split
      next => rw [List.filter_append, beep_filter, Logger.signals_filter]
      next => exact Logger.signals_filter _ _ _ _
  | loadRom path rom =>
      simp only [emits]
      split
      next => exact Logger.signals_filter _ _ _ _
      next => rfl
  | reset setup =>
      simp only [emits]
      split
      next => exact Logger.signals_filter _ _ _ _
      next => rfl
  | _ => rfl

theorem emissions_filter (m : Machine) (name threshold : String) (commands : List Command) :
    m.emissions ⟨name, threshold⟩ commands =
      (m.emissions ⟨name, "DEBUG"⟩ commands).filter (Signal.passes threshold) := by
  induction commands generalizing m with
  | nil => rfl
  | cons command rest ih => rw [emissions, emissions, List.filter_append, emits_filter, ih]

/-- A processor puts the name of its logger to whatever it logs. -/
theorem name_of_mem_emits {m : Machine} {logger : Logger} {command : Command} {entry : LogRecord}
    (hmem : .record entry ∈ m.emits logger command) : entry.logger = logger.name := by
  cases command with
  | step =>
      simp only [emits] at hmem
      split at hmem
      next =>
        rcases List.mem_append.mp hmem with hbeep | hrecord
        · unfold beep at hbeep
          split at hbeep <;> simp at hbeep
        · exact Logger.name_of_mem_signals hrecord
      next => exact Logger.name_of_mem_signals hmem
  | loadRom path rom =>
      simp only [emits] at hmem
      split at hmem
      next => exact Logger.name_of_mem_signals hmem
      next => cases hmem
  | reset setup =>
      simp only [emits] at hmem
      split at hmem
      next => exact Logger.name_of_mem_signals hmem
      next => cases hmem
  | _ => cases hmem

theorem name_of_mem_emissions {m : Machine} {logger : Logger} {commands : List Command}
    {entry : LogRecord} (hmem : .record entry ∈ m.emissions logger commands) :
    entry.logger = logger.name := by
  induction commands generalizing m with
  | nil => cases hmem
  | cons command rest ih =>
      rcases List.mem_append.mp hmem with hfirst | hrest
      · exact name_of_mem_emits hfirst
      · exact ih hrest

/-- What a log that leaves nothing out says of a command. -/
def remarks (m : Machine) (logger : String) (command : Command) : List LogRecord :=
  match command, (m.perform command).1 with
  | .step, .ok (.executed decoded) =>
      let text := Text.hexInt 4 m.fetch ++ " " ++ decoded.instruction.mnemonic
      [⟨logger, .debug, addressText m.pc ++ ": " ++ text⟩]
  | .step, .error (.halt cause) => [⟨logger, .error, addressText m.pc ++ ": " ++ cause.message⟩]
  | .loadRom path _, .ok _ => [⟨logger, .info, "Loaded ROM " ++ path⟩]
  | .reset _, .ok _ => [⟨logger, .info, "Processor reset"⟩]
  | _, _ => []

theorem records_step (m : Machine) (name : String) :
    (m.emits ⟨name, "DEBUG"⟩ .step).filterMap Signal.record? = m.remarks name .step := by
  simp only [emits, remarks, perform]
  cases hstep : m.step with
  | error cause => simp [Logger.signals_debug, Signal.record?, haltText]
  | ok result =>
      obtain ⟨decoded, after⟩ := result
      have hopcode : decoded.opcode = m.fetch :=
        opcode_of_decode ((m.step_eq_ok_iff decoded after).mp hstep).1
      have hbeep : (m.beep decoded.instruction.form).filterMap Signal.record? = [] := by
        unfold beep
        split <;> rfl
      simp [Logger.signals_debug, Signal.record?, traceText, hopcode, hbeep, String.append_assoc]

theorem step_of_perform {m : Machine} {decoded : Decoded}
    (hanswer : (m.perform .step).1 = .ok (.executed decoded)) :
    m.step = .ok (decoded, (m.perform .step).2) := by
  have heffect := m.perform_effect .step
  rw [hanswer] at heffect
  generalize (m.perform .step).2 = after at heffect ⊢
  cases heffect with
  | executed hstep => exact hstep

theorem records_emits (m : Machine) (name : String) (command : Command) :
    (m.emits ⟨name, "DEBUG"⟩ command).filterMap Signal.record? = m.remarks name command := by
  cases command with
  | step => exact m.records_step name
  | loadRom path rom =>
      simp only [emits, remarks]
      rcases m.perform (.loadRom path rom) with ⟨⟨fault⟩ | ⟨answer⟩, after⟩
      · rfl
      · simp [Logger.signals_debug, Signal.record?]
  | reset setup =>
      simp only [emits, remarks, perform]
      cases setup.machine with
      | error error => rfl
      | ok after => simp [Logger.signals_debug, Signal.record?]
  | _ => rfl

end Machine

namespace Processor

/-- The records of a processor's log, oldest first. -/
def records (p : Processor) : List LogRecord := p.signals.toList.filterMap Signal.record?

/-- The lines of a processor's log, if they do not show the time. -/
def printed (p : Processor) (colours : Bool) : List String :=
  p.records.map (·.line ⟨colours, false⟩ .nan)

theorem records_performAll (machine : Machine) (logger : Logger) (commands : List Command) :
    ((ofMachine machine logger).performAll commands).records =
      (machine.emissions logger commands).filterMap Signal.record? := by
  obtain ⟨-, hsignals⟩ := (ofMachine machine logger).adds_performAll commands
  rw [records, hsignals]
  rfl

/-- The log depends on the threshold, and nothing else does. What is printed at some
threshold is what is printed at the lowest one, without the lines that rank below
the threshold. At the lowest, a step prints one line and no more: where it was
executed, the opcode found there and the instruction that was executed, or why it
failed; a program file and a reset print one if they succeed, and no other command
prints anything. -/
theorem log_is_filtered_trace (machine : Machine) (name threshold other : String)
    (colours : Bool) (commands : List Command) :
    let p := ofMachine machine ⟨name, threshold⟩
    let q := ofMachine machine ⟨name, other⟩
    let full := ofMachine machine ⟨name, "DEBUG"⟩
    let reached := full.performAll commands
    p.answers commands = q.answers commands ∧
    (p.performAll commands).machine = (q.performAll commands).machine ∧
    (p.performAll commands).printed colours =
      (reached.records.filter fun entry => Level.rankOfText threshold ≤ entry.level.rank).map
        (·.line ⟨colours, false⟩ .nan) ∧
    (∀ command, (reached.perform command).2.records =
      reached.records ++ reached.machine.remarks name command) ∧
    ∀ decoded, (reached.perform .step).1 = .ok (.executed decoded) →
      decode reached.machine.fetch = .ok decoded ∧
      reached.machine.execute decoded.instruction = .ok (reached.perform .step).2.machine := by
  intro p q full reached
  refine ⟨?_, ?_, ?_, ?_, ?_⟩
  · rw [p.answers_machine, q.answers_machine]
    rfl
  · rw [p.performAll_machine, q.performAll_machine]
    rfl
  · rw [printed, records_performAll, records_performAll, Machine.emissions_filter,
      Signal.filterMap_record?_filter_passes]
  · intro command
    obtain ⟨hlogger, -⟩ := full.adds_performAll commands
    obtain ⟨-, hsignals⟩ := reached.adds_perform command
    have hfull : reached.logger = ⟨name, "DEBUG"⟩ := hlogger
    rw [records, hsignals, List.filterMap_append, hfull, Machine.records_emits]
    rfl
  · intro decoded hanswer
    obtain ⟨hsame, hmachine⟩ := reached.perform_machine .step
    rw [hmachine]
    exact (reached.machine.step_eq_ok_iff _ _).mp
      (Machine.step_of_perform (hsame.symm.trans hanswer))

/-- A program that overwrites the instruction it executes is logged with what was
executed. At a threshold above, only its failure is printed. -/
theorem overwritten_instruction_is_logged :
    let machine := Machine.holding [0xA2, 0x02, 0xF0, 0x55]
    let reached := (ofMachine machine ⟨"cpu", "DEBUG"⟩).performAll [.step]
    let quiet := ofMachine machine ⟨"cpu", "warning"⟩
    (reached.perform .step).1 = .ok (.executed ⟨0xF055, .store 0⟩) ∧
    decode reached.machine.fetch = .ok ⟨0xF055, .store 0⟩ ∧
    (reached.perform .step).2.machine.memory.read 0x202 = 0 ∧
    (reached.perform .step).2.records =
      [⟨"cpu", .debug, "0x200: A202 LD I, 202"⟩, ⟨"cpu", .debug, "0x202: F055 LD [I], V0"⟩] ∧
    (quiet.performAll [.step, .step, .step]).printed false =
      ["[   ERROR][cpu] 0x204: Unrecognized opcode: 0x0000"] := by
  intro machine reached quiet
  have hanswer : (reached.perform .step).1 = .ok (.executed ⟨0xF055, .store 0⟩) := by
    decide +kernel
  obtain ⟨-, -, -, hremarks, hexecuted⟩ :=
    log_is_filtered_trace machine "cpu" "warning" "DEBUG" false [.step]
  obtain ⟨-, -, hprinted, -, -⟩ :=
    log_is_filtered_trace machine "cpu" "warning" "DEBUG" false [.step, .step, .step]
  refine ⟨hanswer, (hexecuted _ hanswer).1, by decide +kernel, ?_, ?_⟩
  · rw [hremarks .step]
    decide +kernel
  · rw [hprinted]
    decide +kernel

end Processor

end Chip8VM
