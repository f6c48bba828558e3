/-!
The thirty-four instructions of the machine, grouped by what they do. Registers and bytes have the
exact width of their field in the instruction word. The machine can do more than a word can ask for
in two ways: addresses have sixteen bits, of which a word holds twelve, and a sprite may be as high
as the screen, where a word asks for at most fifteen rows.
-/

namespace Chip8VM

/-- One of the registers V0 to VF. -/
abbrev Register := Fin 16

def registerCount : Nat := 16

/-- An address, as wide as the program counter and I. -/
abbrev Address := UInt16

/-- The register that receives carries, borrows, shifted bits and collisions. -/
def flagRegister : Register := ⟨0xF, by decide⟩

/-- The register whose value is added to the target of an offset jump. -/
def offsetRegister : Register := ⟨0x0, by decide⟩

/-- Whether a conditional instruction acts when its test holds or when it fails. -/
inductive Sense where
  | holds
  | fails
deriving DecidableEq, Repr

def Sense.accepts (sense : Sense) (test : Bool) : Bool :=
  match sense with
  | .holds => test
  | .fails => !test

/-- Operations on two registers that leave the flag register alone. -/
inductive LogicOp where
  | assign
  | or
  | and
  | xor
deriving DecidableEq, Repr

/-- Operations on two registers that report a carry or the absence of a borrow. -/
inductive ArithmeticOp where
  | add
  | sub
  | subFrom
deriving DecidableEq, Repr

inductive ShiftDirection where
  | right
  | left
deriving DecidableEq, Repr

inductive Instruction where
  | clear
  | ret
  | jump (target : Address)
  | call (target : Address)
  /-- Jumps to the sum of an address and V0. -/
  | jumpOffset (base : Address)
  /-- Skips the next instruction if Vx equals a byte, or if it does not. -/
  | skipByte (sense : Sense) (x : Register) (value : UInt8)
  | skipRegister (sense : Sense) (x y : Register)
  /-- Skips the next instruction if the key named by Vx is held, or if it is not. -/
  | skipKey (sense : Sense) (x : Register)
  | loadByte (x : Register) (value : UInt8)
  | addByte (x : Register) (value : UInt8)
  | logic (op : LogicOp) (x y : Register)
  | arithmetic (op : ArithmeticOp) (x y : Register)
  | shift (direction : ShiftDirection) (x : Register)
  | loadIndex (target : Address)
  | addIndex (x : Register)
  /-- Points I at the glyph of the digit in Vx. -/
  | glyph (x : Register)
  /-- Puts a random byte, masked by a byte, into Vx. -/
  | random (x : Register) (mask : UInt8)
  /-- Draws the sprite of some rows found at I at column Vx and row Vy. -/
  | draw (x y : Register) (rows : Fin 33)
  | readDelay (x : Register)
  | setDelay (x : Register)
  /-- Waits for a key and puts it into Vx. -/
  | waitKey (x : Register)
  | sound (x : Register)
  /-- Stores the three decimal digits of Vx at I. -/
  | digits (x : Register)
  /-- Stores V0 to Vx at I. -/
  | store (x : Register)
  /-- Loads V0 to Vx from I. -/
  | load (x : Register)
deriving DecidableEq, Repr

end Chip8VM
