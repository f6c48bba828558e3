import Chip8VM.Machine.Basic
import Chip8VM.Text.Decimal

/-!
The initial state of a machine. A setup overrides any of its parts with numbers, which are
checked in a fixed order: the first part that cannot hold its number decides the error. The font
is written last, over whatever the memory held.
-/

namespace Chip8VM

/-- A part of the machine that a setup may override with numbers of a limited range. -/
inductive Part where
  | seed | memory | registers | screen | pc | index | stack | delay | sound
deriving DecidableEq, Repr

def Part.name : Part → String
  | seed => "seed"
  | memory => "memory"
  | registers => "registers"
  | screen => "frame_buffer"
  | pc => "program_counter"
  | index => "index_register"
  | stack => "stack"
  | delay => "delay_timer"
  | sound => "sound_timer"

inductive SetupError where
  /-- A number does not fit into the cell it is meant for. -/
  | outOfRange (part : Part)
  | wrongLength (part : Part) (expected got : Nat)
  | invalidKey (number : Int)
deriving DecidableEq, Repr

def invalidKeyMessage (number : Int) : String := "Invalid key: " ++ Text.decimal number

def SetupError.message : SetupError → String
  | outOfRange part => part.name ++ " is out of range"
  | wrongLength part expected got =>
      part.name ++ " must hold " ++ Text.decimal expected ++ " values, got " ++ Text.decimal got
  | invalidKey number => invalidKeyMessage number

structure Setup where
  memory : Option (List Int) := none
  registers : Option (List Int) := none
  screen : Option (List Int) := none
  pc : Option Int := none
  index : Option Int := none
  /-- Return addresses, oldest first. -/
  stack : Option (List Int) := none
  delay : Option Int := none
  sound : Option Int := none
  heldKeys : Option (List Int) := none
  seed : Int := 0
  speaker : Bool := true
deriving Repr

namespace Setup

def readByte (part : Part) (number : Int) : Except SetupError UInt8 :=
  if 0 ≤ number ∧ number < 0x100 then .ok (UInt8.ofNat number.toNat)
  else .error (.outOfRange part)

def readWord (part : Part) (number : Int) : Except SetupError UInt16 :=
  if 0 ≤ number ∧ number < 0x10000 then .ok (UInt16.ofNat number.toNat)
  else .error (.outOfRange part)

/-- A seed is a signed 64-bit number. -/
def readSeed (number : Int) : Except SetupError RandomKey :=
  if -0x8000000000000000 ≤ number ∧ number < 0x8000000000000000 then .ok (RandomKey.ofSeed number)
  else .error (.outOfRange .seed)

/-- Bytes that must be as many as the cells they fill. The range of each number is looked at
before their count. -/
def readCells (part : Part) (size : Nat) (numbers : List Int) :
    Except SetupError (Vector UInt8 size) := do
  let bytes ← numbers.mapM (readByte part)
  if h : bytes.toArray.size = size then .ok ⟨bytes.toArray, h⟩
  else .error (.wrongLength part size bytes.length)

/-- The keypad on which the keys with these numbers are held. -/
def readKeys (numbers : List Int) : Except SetupError Keypad :=
  numbers.foldlM (fun keypad number =>
    match Key.ofInt? number with
    | some key => .ok (keypad.press key)
    | none => .error (.invalidKey number)) Keypad.released

/-- An overridden part, or what the part holds when the power comes on. -/
def given {α β : Type} (override : Option α) (read : α → Except SetupError β) (initial : β) :
    Except SetupError β :=
  match override with
  | some numbers => read numbers
  | none => .ok initial

def machine (setup : Setup) : Except SetupError Machine := do
  let random ← readSeed setup.seed
  let memory ← given setup.memory (readCells .memory 4096) Memory.zeroed
  let registers ← given setup.registers (readCells .registers 16) (Vector.replicate 16 0)
  let screen ← given setup.screen (readCells .screen 2048) Screen.blank
  let pc ← given setup.pc (readWord .pc) (UInt16.ofNat programStart)
  let index ← given setup.index (readWord .index) 0
  let addresses ← given setup.stack (List.mapM (readWord .stack)) []
  let delay ← given setup.delay (readByte .delay) 0
  let sound ← given setup.sound (readByte .sound) 0
  let keypad ← given setup.heldKeys readKeys Keypad.released
  return {
    memory := Memory.writeBlock memory fontStart font
    registers, index, pc, delay, sound, keypad, screen, random
    stack := CallStack.ofList addresses
    speaker := setup.speaker }

end Setup

end Chip8VM
