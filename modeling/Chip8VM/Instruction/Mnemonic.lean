import Chip8VM.Instruction.Form
import Chip8VM.Text.Hex

/-!
The assembly notation of instructions: a verb and its arguments, separated by commas. An argument
is an operand or a part of the machine that the form itself names. Registers are written with one
hex digit at least, bytes with two and addresses with three; the height of a sprite has no leading
zeros. The notation has a place for every integer, whether or not an instruction can have it as an
operand.
-/

namespace Chip8VM

inductive OperandKind where
  /-- A register that is read, whether or not it is written too. -/
  | register
  /-- A register that is only written. -/
  | target
  /-- The last register of a block that begins with V0. -/
  | block
  | byte
  | address
  /-- The address to which an offset jump adds V0. -/
  | base
  /-- The height of a sprite. -/
  | rows
deriving DecidableEq, Repr

def OperandKind.text : OperandKind → Int → String
  | register, n | target, n | block, n => "V" ++ Text.hexInt 1 n
  | byte, n => Text.hexInt 2 n
  | address, n | base, n => Text.hexInt 3 n
  | rows, n => Text.hexInt 1 n

inductive Argument where
  /-- A part of the machine that does not depend on the operands. -/
  | fixed (text : String)
  | operand (kind : OperandKind)
deriving DecidableEq, Repr

def Argument.kind? : Argument → Option OperandKind
  | fixed _ => none
  | operand kind => some kind

/-- The arguments with the operands in their places. -/
def Argument.texts : List Argument → List Int → List String
  | fixed text :: arguments, operands => text :: texts arguments operands
  | operand kind :: arguments, n :: operands => kind.text n :: texts arguments operands
  | operand _ :: _, [] => []
  | [], _ => []

namespace Form

def verb : Form → String
  | clear => "CLS"
  | ret => "RET"
  | jump | jumpOffset => "JP"
  | call => "CALL"
  | skipEqualByte | skipEqualRegister => "SE"
  | skipUnequalByte | skipUnequalRegister => "SNE"
  | loadByte | assign | loadIndex | readDelay | waitKey | setDelay | sound | glyph | digits
  | store | load => "LD"
  | addByte | add | addIndex => "ADD"
  | or => "OR"
  | and => "AND"
  | xor => "XOR"
  | sub => "SUB"
  | subFrom => "SUBN"
  | shiftRight => "SHR"
  | shiftLeft => "SHL"
  | random => "RND"
  | draw => "DRW"
  | skipHeldKey => "SKP"
  | skipFreeKey => "SKNP"

/-- A load names its target first, and then what it is loaded with. -/
def arguments : Form → List Argument
  | clear | ret => []
  | jump | call => [.operand .address]
  | jumpOffset => [.fixed "V0", .operand .base]
  | loadIndex => [.fixed "I", .operand .address]
  | skipEqualByte | skipUnequalByte | addByte => [.operand .register, .operand .byte]
  | loadByte | random => [.operand .target, .operand .byte]
  | skipEqualRegister | skipUnequalRegister | assign | or | and | xor | add | sub | subFrom =>
      [.operand .register, .operand .register]
  | draw => [.operand .register, .operand .register, .operand .rows]
  | shiftRight | shiftLeft | skipHeldKey | skipFreeKey => [.operand .register]
  | readDelay => [.operand .target, .fixed "DT"]
  | waitKey => [.operand .target, .fixed "K"]
  | load => [.operand .block, .fixed "[I]"]
  | setDelay => [.fixed "DT", .operand .register]
  | sound => [.fixed "ST", .operand .register]
  | addIndex => [.fixed "I", .operand .register]
  | glyph => [.fixed "F", .operand .register]
  | digits => [.fixed "B", .operand .register]
  | store => [.fixed "[I]", .operand .block]

def operandKinds (form : Form) : List OperandKind :=
  form.arguments.filterMap Argument.kind?

def mnemonic (form : Form) (operands : List Int) : String :=
  match Argument.texts form.arguments operands with
  | [] => form.verb
  | texts => form.verb ++ " " ++ ", ".intercalate texts

end Form

/-- The operands of an instruction are as many as its notation has places for. -/
theorem Instruction.length_operands (i : Instruction) :
    i.operands.length = i.form.operandKinds.length := by
  cases i with
  | skipByte which | skipRegister which | skipKey which | logic which | arithmetic which
  | shift which => cases which <;> rfl
  | _ => rfl

def Instruction.mnemonic (i : Instruction) : String :=
  i.form.mnemonic (i.operands.map fun (n : Nat) => (n : Int))

end Chip8VM
