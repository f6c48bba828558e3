import Chip8VM.Pacing.Agenda
import Chip8VM.Processor
import Chip8VM.Proofs.Machine.Setup

/-!
What commands do to the machine of a processor. The machine can be given
commands on its own: it answers them as its processor does and becomes what it
becomes there, so the log and the beeps never reach it. `Effect` lists what a
command can do, with the answer that goes with each case.
-/

namespace Chip8VM

open Processor (Answer Command)

/-- What a beat of a host asks of the processor. -/
def Beat.command : Beat → Command
  | .instruction => .step
  | .tick => .tick

namespace Machine

/-- A machine that has just been turned on, with a program where programs
start. -/
def holding (program : List UInt8) : Machine where
  memory := Memory.zeroed.writeBlock programStart program
  registers := Vector.replicate 16 0
  index := 0
  pc := UInt16.ofNat programStart
  stack := CallStack.empty
  delay := 0
  sound := 0
  keypad := Keypad.released
  screen := Screen.blank
  random := RandomKey.ofSeed 0
  speaker := true

/-- Places bytes in memory, if they fit. -/
def load (m : Machine) (data : List UInt8) (start : Int) : Except Fault Answer × Machine :=
  match Memory.place? m.memory start data with
  | some memory => (.ok .done, { m with memory })
  | none => (.error .blockDoesNotFit, m)

/-- A command, given to a machine alone: its answer and the machine that it
leaves behind. -/
def perform (m : Machine) : Command → Except Fault Answer × Machine
  | .step =>
      match m.step with
      | .ok (decoded, after) => (.ok (.executed decoded), after)
      | .error cause => (.error (.halt cause), m)
  | .tick => (.ok .done, m.tick)
  | .press number =>
      match Key.ofInt? number with
      | some key => (.ok .done, m.press key)
      | none => (.error (.invalidKey number), m)
  | .release number =>
      match Key.ofInt? number with
      | some key => (.ok .done, m.release key)
      | none => (.error (.invalidKey number), m)
  | .load data start => m.load data start
  | .loadRom path rom =>
      if '\x00' ∈ path.toList then (.error (.malformedPath path), m)
      else
        match rom with
        | .ok data => m.load data programStart
        | .error error => (.error (.rom error), m)
  | .reset setup =>
      match setup.machine with
      | .ok after => (.ok .done, after)
      | .error error => (.error (.setup error), m)

def performAll (m : Machine) (commands : List Command) : Machine :=
  commands.foldl (fun n command => (n.perform command).2) m

/-- The answers to several commands, one for each of them. -/
def answers (m : Machine) : List Command → List (Except Fault Answer)
  | [] => []
  | command :: rest => (m.perform command).1 :: (m.perform command).2.answers rest

/-- A command is answered and leaves a machine behind. Only a step can fail
because of the program; any other command is refused because of what it brings
with it. -/
inductive Effect (m : Machine) : Command → Except Fault Answer → Machine → Prop where
  | executed {decoded : Decoded} {after : Machine} :
      m.step = .ok (decoded, after) → Effect m .step (.ok (.executed decoded)) after
  | halted {cause : Halt} : m.step = .error cause → Effect m .step (.error (.halt cause)) m
  | ticked : Effect m .tick (.ok .done) m.tick
  | pressed {number : Int} {key : Key} :
      Key.ofInt? number = some key → Effect m (.press number) (.ok .done) (m.press key)
  | released {number : Int} {key : Key} :
      Key.ofInt? number = some key → Effect m (.release number) (.ok .done) (m.release key)
  | loaded {data : List UInt8} {start : Int} {memory : Memory} :
      Memory.place? m.memory start data = some memory →
      Effect m (.load data start) (.ok .done) { m with memory }
  | loadedRom {path : String} {data : List UInt8} {memory : Memory} :
      Memory.place? m.memory programStart data = some memory →
      Effect m (.loadRom path (.ok data)) (.ok .done) { m with memory }
  | reset {setup : Setup} {after : Machine} :
      setup.machine = .ok after → Effect m (.reset setup) (.ok .done) after
  | refused {command : Command} {fault : Fault} :
      command ≠ .step → Effect m command (.error fault) m

theorem perform_effect (m : Machine) (command : Command) :
    m.Effect command (m.perform command).1 (m.perform command).2 := by
  cases command with
  | step =>
      simp only [perform]
      split
      next hstep => exact .executed hstep
      next hstep => exact .halted hstep
  | tick => exact .ticked
  | press number =>
      simp only [perform]
      split
      next hkey => exact .pressed hkey
      next => exact .refused (by simp)
  | release number =>
      simp only [perform]
      split
      next hkey => exact .released hkey
      next => exact .refused (by simp)
  | load data start =>
      simp only [perform, load]
      split
      next hplace => exact .loaded hplace
      next => exact .refused (by simp)
  | loadRom path rom =>
      simp only [perform, load]
      split
      next => exact .refused (by simp)
      next =>
        cases rom with
        | error error => exact .refused (by simp)
        | ok data =>
            dsimp only
            split
            next hplace => exact .loadedRom hplace
            next => exact .refused (by simp)
  | reset setup =>
      simp only [perform]
      split
      next hsetup => exact .reset hsetup
      next => exact .refused (by simp)

theorem performAll_cons (m : Machine) (command : Command) (rest : List Command) :
    m.performAll (command :: rest) = (m.perform command).2.performAll rest := rfl

theorem performAll_append (m : Machine) (first second : List Command) :
    m.performAll (first ++ second) = (m.performAll first).performAll second :=
  List.foldl_append

end Machine

namespace Processor

theorem create_eq_ok_iff (setup : Setup) (logger : Logger) (p : Processor) :
    create setup logger = .ok p ↔ setup.Makes p.machine ∧ p = ofMachine p.machine logger := by
  rw [create, Machine.bind_ok_iff]
  simp only [Setup.machine_eq_ok_iff]
  constructor
  · rintro ⟨machine, hmakes, hp⟩
    obtain rfl := Except.ok.inj hp
    exact ⟨hmakes, rfl⟩
  · rintro ⟨hmakes, hp⟩
    exact ⟨p.machine, hmakes, congrArg Except.ok hp.symm⟩

@[simp]
theorem report_machine (p : Processor) (logger : Logger) (level : Level) (message : String) :
    (p.report logger level message).machine = p.machine := by
  unfold report
  split <;> rfl

private theorem perform_load (p : Processor) (data : List UInt8) (start : Int) :
    (p.answered (p.load data start)).1 = (p.machine.load data start).1 ∧
    (p.answered (p.load data start)).2.machine = (p.machine.load data start).2 := by
  unfold load Machine.load
  cases Memory.place? p.machine.memory start data with
  | some memory => exact ⟨rfl, rfl⟩
  | none => exact ⟨rfl, rfl⟩

/-- A processor answers a command as its machine does, and its machine becomes
what it becomes on its own. -/
theorem perform_machine (p : Processor) (command : Command) :
    (p.perform command).1 = (p.machine.perform command).1 ∧
    (p.perform command).2.machine = (p.machine.perform command).2 := by
  cases command with
  | step =>
      simp only [perform, step, Machine.perform]
      cases p.machine.step with
      | ok result => simp
      | error cause => simp
  | tick => exact ⟨rfl, rfl⟩
  | press number =>
      simp only [perform, withKey, Machine.perform]
      cases Key.ofInt? number with
      | some key => exact ⟨rfl, rfl⟩
      | none => exact ⟨rfl, rfl⟩
  | release number =>
      simp only [perform, withKey, Machine.perform]
      cases Key.ofInt? number with
      | some key => exact ⟨rfl, rfl⟩
      | none => exact ⟨rfl, rfl⟩
  | load data start => exact p.perform_load data start
  | loadRom path rom =>
      simp only [perform, loadRom, Machine.perform]
      split
      next => exact ⟨rfl, rfl⟩
      next =>
        cases rom with
        | error error => exact ⟨rfl, rfl⟩
        | ok data =>
            have hload := p.perform_load data programStart
            -- The record of a loaded file is put behind the load.
            cases hresult : p.load data programStart with
            | ok loaded => simpa [hresult, answered, bind, Except.bind, pure, Except.pure] using hload
            | error fault => simpa [hresult, answered, bind, Except.bind] using hload
  | reset setup =>
      simp only [perform, reset, Machine.perform]
      cases setup.machine with
      | ok machine => simp [answered]
      | error error => exact ⟨rfl, rfl⟩

theorem performAll_append (p : Processor) (first second : List Command) :
    p.performAll (first ++ second) = (p.performAll first).performAll second :=
  List.foldl_append

theorem performAll_machine (p : Processor) (commands : List Command) :
    (p.performAll commands).machine = p.machine.performAll commands := by
  induction commands generalizing p with
  | nil => rfl
  | cons command rest ih =>
      rw [Machine.performAll_cons, ← (p.perform_machine command).2]
      exact ih (p.perform command).2

/-- The answers to several commands, one for each of them. -/
def answers (p : Processor) : List Command → List (Except Fault Answer)
  | [] => []
  | command :: rest => (p.perform command).1 :: (p.perform command).2.answers rest

theorem answers_machine (p : Processor) (commands : List Command) :
    p.answers commands = p.machine.answers commands := by
  induction commands generalizing p with
  | nil => rfl
  | cons command rest ih =>
      obtain ⟨hanswer, hmachine⟩ := p.perform_machine command
      rw [answers, Machine.answers, ih, hanswer, hmachine]

end Processor

end Chip8VM
