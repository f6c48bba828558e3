import Chip8VM.Instruction.Basic
import Chip8VM.Instruction.Word
import Chip8VM.Machine.CallStack
import Chip8VM.Machine.Keypad
import Chip8VM.Machine.Memory
import Chip8VM.Machine.Random
import Chip8VM.Machine.Screen

/-!
The state of the machine, what its surroundings do to it (timers, keys), and how it reads its next
instruction. Addresses in the program counter and in I have sixteen bits and wrap, although the
memory is smaller.
-/

namespace Chip8VM

structure Machine where
  memory : Memory
  registers : Vector UInt8 16
  index : UInt16
  pc : UInt16
  stack : CallStack
  delay : UInt8
  sound : UInt8
  keypad : Keypad
  screen : Screen
  random : RandomKey
  /-- Whether a speaker is connected, so that beeps can be heard. -/
  speaker : Bool

namespace Machine

def advance (m : Machine) (distance : UInt16) : Machine :=
  { m with pc := m.pc + distance }

def next (m : Machine) : Machine := m.advance 2

/-- Goes on to the next instruction, or past it. -/
def skipIf (m : Machine) (condition : Bool) : Machine :=
  m.advance (if condition then 4 else 2)

def jump (m : Machine) (target : Address) : Machine :=
  { m with pc := target }

def register (m : Machine) (x : Register) : UInt8 := m.registers[x]

def setRegister (m : Machine) (x : Register) (value : UInt8) : Machine :=
  { m with registers := m.registers.set x value }

/-- Writes the flag register and then a register: if they are the same, the flag is lost. -/
def setWithFlag (m : Machine) (x : Register) (value flag : UInt8) : Machine :=
  (m.setRegister flagRegister flag).setRegister x value

def fetch (m : Machine) : Nat := m.memory.readWord m.pc.toNat

def countDown (timer : UInt8) : UInt8 := if timer = 0 then 0 else timer - 1

/-- One tick of the clock of the timers, which stop at zero. -/
def tick (m : Machine) : Machine :=
  { m with delay := countDown m.delay, sound := countDown m.sound }

def press (m : Machine) (key : Key) : Machine :=
  { m with keypad := m.keypad.press key }

def release (m : Machine) (key : Key) : Machine :=
  { m with keypad := m.keypad.release key }

/-- Whether the machine stands at an instruction that waits for a key, and no key is held. -/
def waitsForKey (m : Machine) : Bool :=
  decide (m.fetch % 0x100 = 0x0A ∧ m.fetch / 0x1000 = 0xF) && m.keypad.held.isEmpty

end Machine

end Chip8VM
