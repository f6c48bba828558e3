import Chip8VM.Halt
import Chip8VM.Instruction.Basic

/-!
Instruction words. The upper four bits of a word name its group; the group decides which of the
overlapping fields x, y, n, byte and address hold operands, and which bits select among the
group's instructions. Bits that a group does not look at may hold anything. An opcode may be any
integer: only its lowest sixteen bits, in two's complement, are looked at.
-/

namespace Chip8VM

namespace Word

def group (w : Nat) : Nat := w / 0x1000 % 16

def registerX (w : Nat) : Register := ⟨w / 0x100 % 16, Nat.mod_lt _ (by decide)⟩

def registerY (w : Nat) : Register := ⟨w / 0x10 % 16, Nat.mod_lt _ (by decide)⟩

def nibble (w : Nat) : Nat := w % 0x10

def byte (w : Nat) : UInt8 := UInt8.ofNat w

def address (w : Nat) : Address := UInt16.ofNat (w % 0x1000)

def rows (w : Nat) : Fin 33 := ⟨w % 0x10, by omega⟩

def ofOpcode (opcode : Int) : Nat := (opcode % 0x10000).toNat

end Word

namespace Instruction

open Word

def ofSystemWord? (w : Nat) : Option Instruction :=
  match w % 0x100 with
  | 0xE0 => some .clear
  | 0xEE => some .ret
  | _ => none

def ofRegisterWord? (w : Nat) : Option Instruction :=
  let x := registerX w
  let y := registerY w
  match nibble w with
  | 0x0 => some (.logic .assign x y)
  | 0x1 => some (.logic .or x y)
  | 0x2 => some (.logic .and x y)
  | 0x3 => some (.logic .xor x y)
  | 0x4 => some (.arithmetic .add x y)
  | 0x5 => some (.arithmetic .sub x y)
  | 0x6 => some (.shift .right x)
  | 0x7 => some (.arithmetic .subFrom x y)
  | 0xE => some (.shift .left x)
  | _ => none

def ofKeyWord? (w : Nat) : Option Instruction :=
  match w % 0x100 with
  | 0x9E => some (.skipKey .holds (registerX w))
  | 0xA1 => some (.skipKey .fails (registerX w))
  | _ => none

def ofMiscWord? (w : Nat) : Option Instruction :=
  let x := registerX w
  match w % 0x100 with
  | 0x07 => some (.readDelay x)
  | 0x0A => some (.waitKey x)
  | 0x15 => some (.setDelay x)
  | 0x18 => some (.sound x)
  | 0x1E => some (.addIndex x)
  | 0x29 => some (.glyph x)
  | 0x33 => some (.digits x)
  | 0x55 => some (.store x)
  | 0x65 => some (.load x)
  | _ => none

def ofWord? (w : Nat) : Option Instruction :=
  match group w with
  | 0x0 => ofSystemWord? w
  | 0x1 => some (.jump (address w))
  | 0x2 => some (.call (address w))
  | 0x3 => some (.skipByte .holds (registerX w) (byte w))
  | 0x4 => some (.skipByte .fails (registerX w) (byte w))
  | 0x5 => some (.skipRegister .holds (registerX w) (registerY w))
  | 0x6 => some (.loadByte (registerX w) (byte w))
  | 0x7 => some (.addByte (registerX w) (byte w))
  | 0x8 => ofRegisterWord? w
  | 0x9 => some (.skipRegister .fails (registerX w) (registerY w))
  | 0xA => some (.loadIndex (address w))
  | 0xB => some (.jumpOffset (address w))
  | 0xC => some (.random (registerX w) (byte w))
  | 0xD => some (.draw (registerX w) (registerY w) (rows w))
  | 0xE => ofKeyWord? w
  | 0xF => ofMiscWord? w
  | _ => none

/-- The word of an instruction, with zeros in the bits that its group does not look at. The word
keeps the lowest twelve bits of an address and the lowest four of the height of a sprite. -/
def word : Instruction → Nat
  | clear => 0x00E0
  | ret => 0x00EE
  | jump a => 0x1000 + a.toNat % 0x1000
  | call a => 0x2000 + a.toNat % 0x1000
  | skipByte .holds x b => 0x3000 + 0x100 * x + b.toNat
  | skipByte .fails x b => 0x4000 + 0x100 * x + b.toNat
  | skipRegister .holds x y => 0x5000 + 0x100 * x + 0x10 * y
  | loadByte x b => 0x6000 + 0x100 * x + b.toNat
  | addByte x b => 0x7000 + 0x100 * x + b.toNat
  | logic .assign x y => 0x8000 + 0x100 * x + 0x10 * y
  | logic .or x y => 0x8001 + 0x100 * x + 0x10 * y
  | logic .and x y => 0x8002 + 0x100 * x + 0x10 * y
  | logic .xor x y => 0x8003 + 0x100 * x + 0x10 * y
  | arithmetic .add x y => 0x8004 + 0x100 * x + 0x10 * y
  | arithmetic .sub x y => 0x8005 + 0x100 * x + 0x10 * y
  | shift .right x => 0x8006 + 0x100 * x
  | arithmetic .subFrom x y => 0x8007 + 0x100 * x + 0x10 * y
  | shift .left x => 0x800E + 0x100 * x
  | skipRegister .fails x y => 0x9000 + 0x100 * x + 0x10 * y
  | loadIndex a => 0xA000 + a.toNat % 0x1000
  | jumpOffset a => 0xB000 + a.toNat % 0x1000
  | random x b => 0xC000 + 0x100 * x + b.toNat
  | draw x y rows => 0xD000 + 0x100 * x + 0x10 * y + rows % 0x10
  | skipKey .holds x => 0xE09E + 0x100 * x
  | skipKey .fails x => 0xE0A1 + 0x100 * x
  | readDelay x => 0xF007 + 0x100 * x
  | waitKey x => 0xF00A + 0x100 * x
  | setDelay x => 0xF015 + 0x100 * x
  | sound x => 0xF018 + 0x100 * x
  | addIndex x => 0xF01E + 0x100 * x
  | glyph x => 0xF029 + 0x100 * x
  | digits x => 0xF033 + 0x100 * x
  | store x => 0xF055 + 0x100 * x
  | load x => 0xF065 + 0x100 * x

end Instruction

/-- An instruction together with the opcode that it was read from. -/
structure Decoded where
  opcode : Int
  instruction : Instruction
deriving DecidableEq, Repr

/-- Reads an opcode. The result, and an error too, keeps the opcode as it was given. -/
def decode (opcode : Int) : Except Halt Decoded :=
  match Instruction.ofWord? (Word.ofOpcode opcode) with
  | some instruction => .ok ⟨opcode, instruction⟩
  | none => .error (.unrecognizedOpcode opcode)

end Chip8VM
