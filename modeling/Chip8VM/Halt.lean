import Chip8VM.Text.Hex

/-!
The two ways in which a program can bring the machine to a halt.
-/

namespace Chip8VM

inductive Halt where
  /-- The opcode stands for no instruction. -/
  | unrecognizedOpcode (opcode : Int)
  /-- A subroutine returned, at this address, without having been called. -/
  | stackUnderflow (pc : UInt16)
deriving DecidableEq, Repr

def Halt.message : Halt → String
  | .unrecognizedOpcode opcode => "Unrecognized opcode: 0x" ++ Text.hexInt 4 opcode
  | .stackUnderflow pc => "Return with empty stack at 0x" ++ Text.hex 3 pc.toNat

end Chip8VM
