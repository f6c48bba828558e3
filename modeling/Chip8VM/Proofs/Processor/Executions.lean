import Chip8VM.Proofs.Machine.Frame
import Chip8VM.Proofs.Processor.Command
import Mathlib.Logic.Function.Iterate

/-!
The instructions that a run executes, each with the machine before and after it.
Between two of them only the timers count down, keys come and go, and blocks of
bytes are loaded; so what becomes of any other part of the machine can be read off
the list.
-/

namespace Chip8VM

open Processor (Command)

/-- A step that has succeeded. -/
structure Execution where
  before : Machine
  decoded : Decoded
  after : Machine
  step_eq : before.step = .ok (decoded, after)

namespace Execution

def form (e : Execution) : Form := e.decoded.instruction.form

theorem execute_eq (e : Execution) : e.before.execute e.decoded.instruction = .ok e.after :=
  ((e.before.step_eq_ok_iff e.decoded e.after).mp e.step_eq).2

theorem frame (e : Execution) : e.before.Frame e.decoded.instruction e.after :=
  Machine.execute_frame e.execute_eq

end Execution

/-- Whether a command is a tick of the timers. -/
def Processor.Command.isTick : Command → Bool
  | .tick => true
  | _ => false

/-- The number of ticks among some commands. -/
def ticksIn (commands : List Command) : Nat := commands.countP Command.isTick

theorem ticksIn_cons (command : Command) (rest : List Command) :
    ticksIn (command :: rest) = ticksIn rest + ticksIn [command] := by
  simp only [ticksIn, List.countP_cons, List.countP_nil, Nat.zero_add]

namespace Machine

/-- What a command executes, if it is a step and the step succeeds. -/
def execution? (m : Machine) : Command → Option Execution
  | .step =>
      match h : m.step with
      | .ok (decoded, after) => some ⟨m, decoded, after, h⟩
      | .error _ => none
  | _ => none

/-- What several commands execute, one after the other. -/
def executions (m : Machine) : List Command → List Execution
  | [] => []
  | command :: rest => (m.execution? command).toList ++ (m.perform command).2.executions rest

/-- What several commands execute that has a certain form. -/
def executionsOf (m : Machine) (form : Form) (commands : List Command) : List Execution :=
  (m.executions commands).filter (·.form = form)

theorem execution?_of_step {m after : Machine} {decoded : Decoded}
    (hstep : m.step = .ok (decoded, after)) :
    m.execution? .step = some ⟨m, decoded, after, hstep⟩ := by
  simp only [execution?]
  split
  next hother =>
    cases hother.symm.trans hstep
    rfl
  next hother => cases hother.symm.trans hstep

theorem perform_of_execution? {m : Machine} {command : Command} {e : Execution}
    (hexecution : m.execution? command = some e) :
    command = .step ∧ e.before = m ∧ m.perform command = (.ok (.executed e.decoded), e.after) := by
  cases command with
  | step =>
      simp only [execution?] at hexecution
      split at hexecution
      next hstep =>
        obtain rfl := Option.some.inj hexecution
        simp only [perform, hstep, and_self]
      next => cases hexecution
  | _ => cases hexecution

theorem executionsOf_cons_of_none {m : Machine} {command : Command}
    (hnone : m.execution? command = none) (form : Form) (rest : List Command) :
    m.executionsOf form (command :: rest) = (m.perform command).2.executionsOf form rest := by
  simp only [executionsOf, executions, hnone, Option.toList_none, List.nil_append]

theorem executionsOf_cons_of_some {m : Machine} {command : Command} {e : Execution}
    (hexecution : m.execution? command = some e) (form : Form) (rest : List Command) :
    m.executionsOf form (command :: rest) =
      if e.form = form then e :: e.after.executionsOf form rest
      else e.after.executionsOf form rest := by
  obtain ⟨_, _, hperform⟩ := perform_of_execution? hexecution
  simp only [executionsOf, executions, hexecution, hperform, Option.toList_some,
    List.singleton_append, List.filter_cons, decide_eq_true_eq]

theorem executionsOf_cons (m : Machine) (form : Form) (command : Command) (rest : List Command) :
    m.executionsOf form (command :: rest) =
      m.executionsOf form [command] ++ (m.perform command).2.executionsOf form rest := by
  simp only [executionsOf, executions, List.filter_append, List.append_nil]

/-- An execution cuts the run that it comes from in two, as it cuts the list. -/
theorem exists_step_of_executions {m : Machine} {commands : List Command} {e : Execution}
    {earlier later : List Execution} (hlist : m.executions commands = earlier ++ e :: later) :
    ∃ before since, commands = before ++ .step :: since ∧
      (m.performAll before).execution? .step = some e ∧
      m.executions before = earlier ∧ e.after.executions since = later := by
  induction commands generalizing m earlier with
  | nil => simp [executions] at hlist
  | cons command rest ih =>
      rw [executions] at hlist
      cases hcommand : m.execution? command with
      | none =>
          rw [hcommand, Option.toList_none, List.nil_append] at hlist
          obtain ⟨before, since, rfl, hstep, hbefore, hsince⟩ := ih hlist
          refine ⟨command :: before, since, rfl, hstep, ?_, hsince⟩
          rw [executions, hcommand, hbefore, Option.toList_none, List.nil_append]
      | some first =>
          rw [hcommand, Option.toList_some, List.singleton_append] at hlist
          obtain ⟨rfl, _, hperform⟩ := perform_of_execution? hcommand
          cases earlier with
          | nil =>
              obtain ⟨rfl, hrest⟩ := List.cons.inj hlist
              rw [hperform] at hrest
              exact ⟨[], rest, rfl, hcommand, rfl, hrest⟩
          | cons head earlier =>
              obtain ⟨rfl, hrest⟩ := List.cons.inj hlist
              obtain ⟨before, since, rfl, hstep, hbefore, hsince⟩ := ih hrest
              refine ⟨.step :: before, since, rfl, hstep, ?_, hsince⟩
              rw [executions, hcommand, hbefore, Option.toList_some, List.singleton_append]

/-- The same for the executions of one form: before the cut and after it the list
keeps what was filtered out of the whole list on either side. -/
theorem exists_step_of_executionsOf {m : Machine} {form : Form} {commands : List Command}
    {e : Execution} {earlier later : List Execution}
    (hlist : m.executionsOf form commands = earlier ++ e :: later) :
    e.form = form ∧ ∃ before since, commands = before ++ .step :: since ∧
      (m.performAll before).execution? .step = some e ∧
      m.executionsOf form before = earlier ∧ e.after.executionsOf form since = later := by
  obtain ⟨first, second, hall, hfirst, hsecond⟩ := List.filter_eq_append_iff.mp hlist
  obtain ⟨skipped, others, rfl, hskipped, hform, hothers⟩ := List.filter_eq_cons_iff.mp hsecond
  rw [← List.append_assoc] at hall
  obtain ⟨before, since, rfl, hstep, hbefore, hsince⟩ := exists_step_of_executions hall
  refine ⟨of_decide_eq_true hform, before, since, rfl, hstep, ?_, ?_⟩
  · rw [executionsOf, hbefore, List.filter_append, hfirst,
      List.filter_eq_nil_iff.mpr hskipped, List.append_nil]
  · rw [executionsOf, hsince, hothers]

/-- The parts of a machine that a command leaves alone, or only lets count down,
if it executes nothing. -/
structure Idle (m : Machine) (command : Command) (after : Machine) : Prop where
  sound : after.sound = countDown^[ticksIn [command]] m.sound
  delay : after.delay = countDown^[ticksIn [command]] m.delay
  random : after.random = m.random
  screen : after.screen = m.screen
  speaker : after.speaker = m.speaker

theorem perform_idle {m : Machine} {command : Command}
    (hreset : ∀ setup, command ≠ .reset setup) (hnone : m.execution? command = none) :
    m.Idle command (m.perform command).2 := by
  have heffect := m.perform_effect command
  generalize hanswer : (m.perform command).1 = answer at heffect
  generalize (m.perform command).2 = after at heffect ⊢
  cases heffect with
  | executed hstep => cases hnone.symm.trans (execution?_of_step hstep)
  | halted _ => exact ⟨rfl, rfl, rfl, rfl, rfl⟩
  | ticked => exact ⟨rfl, rfl, rfl, rfl, rfl⟩
  | reset _ => exact absurd rfl (hreset _)
  | refused _ =>
      have hticks : ticksIn [command] = 0 := by
        cases command with
        | tick => cases hanswer
        | _ => rfl
      exact ⟨by rw [hticks]; rfl, by rw [hticks]; rfl, rfl, rfl, rfl⟩
  | _ => exact ⟨rfl, rfl, rfl, rfl, rfl⟩

end Machine

end Chip8VM
