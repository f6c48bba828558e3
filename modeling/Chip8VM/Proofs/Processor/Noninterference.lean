import Chip8VM.Proofs.Machine.Halting
import Chip8VM.Proofs.Processor.Command
import Mathlib.Control.Monad.Basic

/-!
Parts of a machine that do not interfere with the rest of it. Each of them has its
readers, the few instructions that look at it. To hide a part is to put a fixed value
in its place; every other instruction, and so every command that does not try to
execute a reader, does the same with the part hidden as with the part shown. Two runs
that start with the same machine but for that part hence go the same way for as long
as the first of them comes to none of its readers.
-/

namespace Chip8VM

open Processor (Answer Command)

/-- A part of the machine that most instructions never read. -/
inductive Component where
  | screen | keypad | delay | sound | random | stack
deriving DecidableEq, Repr

/-- Whether an instruction looks at a component. Nothing looks at the sound timer. -/
def Component.readBy : Component → Instruction → Bool
  | .screen, .draw _ _ _ => true
  | .keypad, .skipKey _ _ => true
  | .keypad, .waitKey _ => true
  | .delay, .readDelay _ => true
  | .random, .random _ _ => true
  | .stack, .ret => true
  | _, _ => false

namespace Machine

/-- The machine with a fixed value in the place of a component. -/
def hide (m : Machine) : Component → Machine
  | .screen => { m with screen := Screen.blank }
  | .keypad => { m with keypad := Keypad.released }
  | .delay => { m with delay := 0 }
  | .sound => { m with sound := 0 }
  | .random => { m with random := ⟨0, 0⟩ }
  | .stack => { m with stack := CallStack.empty }

/-- Two machines that differ in nothing but a component. -/
structure AgreeBeside (component : Component) (m n : Machine) : Prop where
  memory : m.memory = n.memory
  registers : m.registers = n.registers
  index : m.index = n.index
  pc : m.pc = n.pc
  speaker : m.speaker = n.speaker
  screen : component ≠ .screen → m.screen = n.screen
  keypad : component ≠ .keypad → m.keypad = n.keypad
  delay : component ≠ .delay → m.delay = n.delay
  sound : component ≠ .sound → m.sound = n.sound
  random : component ≠ .random → m.random = n.random
  stack : component ≠ .stack → m.stack = n.stack

theorem hide_hide (m : Machine) (component : Component) :
    (m.hide component).hide component = m.hide component := by
  cases component <;> rfl

theorem agreeBeside_hide (m : Machine) (component : Component) :
    AgreeBeside component (m.hide component) m := by
  cases component <;> constructor <;> simp [hide]

theorem agreeBeside_iff (component : Component) (m n : Machine) :
    AgreeBeside component m n ↔ m.hide component = n.hide component := by
  constructor
  · rintro ⟨hmemory, hregisters, hindex, hpc, hspeaker, hscreen, hkeypad, hdelay, hsound, hrandom,
      hstack⟩
    cases component <;> simp_all [hide]
  · intro heq
    cases component <;> simp only [hide, mk.injEq] at heq <;> constructor <;> simp [heq]

theorem ret_hide (m : Machine) {component : Component}
    (hspares : component.readBy .ret = false) :
    (m.hide component).ret.map (·.hide component) = m.ret.map (·.hide component) := by
  have hstack : (m.hide component).stack = m.stack :=
    (m.agreeBeside_hide component).stack (by rintro rfl; cases hspares)
  unfold ret
  rw [hstack]
  cases m.stack.pop? with
  | none => cases component <;> rfl
  | some popped => cases component <;> rfl

theorem awaitKey_hide (m : Machine) {component : Component} {x : Register}
    (hspares : component.readBy (.waitKey x) = false) :
    ((m.hide component).awaitKey x).hide component = (m.awaitKey x).hide component := by
  have hkeypad : (m.hide component).keypad = m.keypad :=
    (m.agreeBeside_hide component).keypad (by rintro rfl; cases hspares)
  unfold awaitKey
  rw [hkeypad]
  cases m.keypad.lowest? with
  | none => cases component <;> rfl
  | some key => cases component <;> rfl

theorem loadRegisters_hide (m : Machine) (component : Component) (x : Register) :
    (m.hide component).loadRegisters x = (m.loadRegisters x).hide component := by
  cases component <;> simp only [loadRegisters, hide, register]

/-- What an instruction leaves behind beside a component does not depend on it. -/
theorem execute_hide (m : Machine) (component : Component) {instruction : Instruction}
    (hspares : component.readBy instruction = false) :
    ((m.hide component).execute instruction).map (·.hide component) =
      (m.execute instruction).map (·.hide component) := by
  -- A return and a wait branch on what they read, and a load builds all registers anew. Of the
  -- others, a reader has to be told apart from the component it reads; the rest never look.
  cases instruction with
  | ret => exact m.ret_hide hspares
  | waitKey x => exact congrArg Except.ok (m.awaitKey_hide hspares)
  | load x =>
      simp only [execute, loadRegisters_hide, Except.map]
      generalize m.loadRegisters x = loaded
      cases component <;> rfl
  | draw x y rows =>
      cases component with
      | screen => cases hspares
      | _ => rfl
  | skipKey sense x =>
      cases component with
      | keypad => cases hspares
      | _ => rfl
  | random x mask =>
      cases component with
      | random => cases hspares
      | _ => rfl
  | readDelay x =>
      cases component with
      | delay => cases hspares
      | _ => rfl
  | _ => cases component <;> rfl

theorem fetch_hide (m : Machine) (component : Component) :
    (m.hide component).fetch = m.fetch := by
  cases component <;> rfl

/-- The instruction that a command tries to execute, if it is a step and finds one. -/
def attempt? (m : Machine) : Command → Option Instruction
  | .step => (decode m.fetch).toOption.map (·.instruction)
  | _ => none

/-- The instructions that several commands try to execute, one after the other. -/
def attempted (m : Machine) : List Command → List Instruction
  | [] => []
  | command :: rest => (m.attempt? command).toList ++ (m.perform command).2.attempted rest

/-- Two commands are answered alike, and leave machines behind that agree beside a
component. -/
def Alike (component : Component) (first second : Except Fault Answer × Machine) : Prop :=
  first.1 = second.1 ∧ first.2.hide component = second.2.hide component

theorem alike_of_kept (m : Machine) (component : Component) (answer : Except Fault Answer) :
    Alike component (answer, m.hide component) (answer, m) :=
  ⟨rfl, m.hide_hide component⟩

theorem perform_step_hide (m : Machine) {component : Component}
    (hspares : ∀ instruction ∈ m.attempt? .step, component.readBy instruction = false) :
    Alike component ((m.hide component).perform .step) (m.perform .step) := by
  simp only [perform, step, fetch_hide]
  cases hdecode : decode m.fetch with
  | error cause => exact m.alike_of_kept component _
  | ok decoded =>
      have hexecute := m.execute_hide component
        (hspares decoded.instruction (by simp [attempt?, hdecode, Except.toOption]))
      simp only [bind, Except.bind]
      generalize (m.hide component).execute decoded.instruction = hidden at hexecute ⊢
      generalize m.execute decoded.instruction = shown at hexecute ⊢
      cases hidden with
      | error cause =>
          cases shown with
          | error other =>
              obtain rfl := Except.error.inj hexecute
              exact m.alike_of_kept component _
          | ok after => cases hexecute
      | ok after =>
          cases shown with
          | error other => cases hexecute
          | ok other => exact ⟨rfl, Except.ok.inj hexecute⟩

theorem load_hide (m : Machine) (component : Component) (data : List UInt8) (start : Int) :
    Alike component ((m.hide component).load data start) (m.load data start) := by
  have hmemory : (m.hide component).memory = m.memory := (m.agreeBeside_hide component).memory
  unfold load
  rw [hmemory]
  cases Memory.place? m.memory start data with
  | some memory => exact ⟨rfl, by cases component <;> rfl⟩
  | none => exact m.alike_of_kept component _

/-- A command that does not try to execute a reader of a component is answered as
if the component were hidden. -/
theorem perform_hide (m : Machine) {component : Component} {command : Command}
    (hspares : ∀ instruction ∈ m.attempt? command, component.readBy instruction = false) :
    Alike component ((m.hide component).perform command) (m.perform command) := by
  cases command with
  | step => exact m.perform_step_hide hspares
  | tick => exact ⟨rfl, by cases component <;> rfl⟩
  | press number =>
      simp only [perform]
      cases Key.ofInt? number with
      | some key => exact ⟨rfl, by cases component <;> rfl⟩
      | none => exact m.alike_of_kept component _
  | release number =>
      simp only [perform]
      cases Key.ofInt? number with
      | some key => exact ⟨rfl, by cases component <;> rfl⟩
      | none => exact m.alike_of_kept component _
  | load data start => exact m.load_hide component data start
  | loadRom path rom =>
      simp only [perform]
      split
      next => exact m.alike_of_kept component _
      next =>
        cases rom with
        | ok data => exact m.load_hide component data programStart
        | error error => exact m.alike_of_kept component _
  | reset setup =>
      simp only [perform]
      cases setup.machine with
      | ok after => exact ⟨rfl, rfl⟩
      | error error => exact m.alike_of_kept component _

theorem perform_of_agree {component : Component} {m n : Machine} {command : Command}
    (hagree : AgreeBeside component m n)
    (hspares : ∀ instruction ∈ m.attempt? command, component.readBy instruction = false) :
    (m.perform command).1 = (n.perform command).1 ∧
    AgreeBeside component (m.perform command).2 (n.perform command).2 := by
  have hhide := (agreeBeside_iff component m n).mp hagree
  have hattempt : n.attempt? command = m.attempt? command := by
    cases command with
    | step => rw [attempt?, attempt?, fetch, fetch, hagree.memory, hagree.pc]
    | _ => rfl
  have hspares' : ∀ instruction ∈ n.attempt? command, component.readBy instruction = false := by
    rw [hattempt]
    exact hspares
  obtain ⟨hanswer, hafter⟩ := m.perform_hide hspares
  obtain ⟨hanswer', hafter'⟩ := n.perform_hide hspares'
  rw [hhide] at hanswer hafter
  exact ⟨hanswer.symm.trans hanswer', (agreeBeside_iff _ _ _).mpr (hafter.symm.trans hafter')⟩

theorem performAll_of_agree {component : Component} {m n : Machine} {commands : List Command}
    (hagree : AgreeBeside component m n)
    (hspares : ∀ instruction ∈ m.attempted commands, component.readBy instruction = false) :
    m.answers commands = n.answers commands ∧
    ∀ count, AgreeBeside component (m.performAll (commands.take count))
      (n.performAll (commands.take count)) := by
  induction commands generalizing m n with
  | nil =>
      refine ⟨rfl, ?_⟩
      intro count
      rw [List.take_nil]
      exact hagree
  | cons command rest ih =>
      rw [attempted, List.forall_mem_append] at hspares
      obtain ⟨hfirst, hrest⟩ := hspares
      obtain ⟨hanswer, hafter⟩ := perform_of_agree hagree (by simpa using hfirst)
      obtain ⟨hanswers, hprefixes⟩ := ih hafter hrest
      refine ⟨by rw [answers, answers, hanswer, hanswers], ?_⟩
      intro count
      cases count with
      | zero => exact hagree
      | succ count => exact hprefixes count

end Machine

namespace Processor

/-- Two runs of the same commands, from machines that agree beside a component, answer
alike and agree beside it after each command, if the first of them never tries to
execute an instruction that reads the component. -/
theorem components_do_not_interfere (component : Component) {p q : Processor}
    (hagree : Machine.AgreeBeside component p.machine q.machine) (commands : List Command)
    (hspares : ∀ instruction ∈ p.machine.attempted commands,
      component.readBy instruction = false) :
    p.answers commands = q.answers commands ∧
    ∀ count, Machine.AgreeBeside component (p.performAll (commands.take count)).machine
      (q.performAll (commands.take count)).machine := by
  obtain ⟨hanswers, hprefixes⟩ := Machine.performAll_of_agree hagree hspares
  constructor
  · rw [p.answers_machine, q.answers_machine, hanswers]
  · intro count
    rw [p.performAll_machine, q.performAll_machine]
    exact hprefixes count

/-- A program that calls, draws a random byte and runs into an opcode that stands
for nothing, above an empty stack and above one of two addresses. -/
theorem stack_does_not_interfere :
    let m := Machine.holding [0x22, 0x04, 0x00, 0x00, 0xC0, 0xFF]
    let p := ofMachine m {}
    let q := ofMachine { m with stack := CallStack.ofList [0x300, 0x400] } {}
    let commands : List Command := [.step, .tick, .press 7, .step, .step, .press 16]
    p.answers commands = q.answers commands ∧
    (p.performAll commands).machine.pc = (q.performAll commands).machine.pc := by
  intro m p q commands
  have hagree : Machine.AgreeBeside .stack p.machine q.machine :=
    ⟨rfl, rfl, rfl, rfl, rfl, fun _ => rfl, fun _ => rfl, fun _ => rfl, fun _ => rfl,
      fun _ => rfl, fun h => absurd rfl h⟩
  have hspares : ∀ instruction ∈ p.machine.attempted commands,
      Component.readBy .stack instruction = false := by
    decide +kernel
  obtain ⟨hanswers, hprefixes⟩ := components_do_not_interfere .stack hagree commands hspares
  exact ⟨hanswers, (hprefixes 6).pc⟩

end Processor

end Chip8VM
