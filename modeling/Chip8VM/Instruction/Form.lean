import Chip8VM.Instruction.Basic

/-!
The form of an instruction is what remains of it without its operands. Each form has a name, a
number of operands and a range for each of them, and an instruction is the same thing as a form
with operands in those ranges.
-/

namespace Chip8VM

inductive Form where
  | clear | ret | jump | call
  | skipEqualByte | skipUnequalByte | skipEqualRegister
  | loadByte | addByte
  | assign | or | and | xor | add | sub | shiftRight | subFrom | shiftLeft
  | skipUnequalRegister | loadIndex | jumpOffset | random | draw
  | skipHeldKey | skipFreeKey
  | readDelay | waitKey | setDelay | sound | addIndex | glyph | digits | store | load
deriving DecidableEq, Repr

namespace Form

/-- All forms, in the order of the opcodes they stand for. -/
def all : List Form :=
  [clear, ret, jump, call, skipEqualByte, skipUnequalByte, skipEqualRegister, loadByte, addByte,
   assign, or, and, xor, add, sub, shiftRight, subFrom, shiftLeft, skipUnequalRegister, loadIndex,
   jumpOffset, random, draw, skipHeldKey, skipFreeKey, readDelay, waitKey, setDelay, sound,
   addIndex, glyph, digits, store, load]

theorem mem_all (form : Form) : form ∈ all := by
  cases form <;> decide

/-- The name gives the mnemonic's first word and then the kinds of the operands. -/
def name : Form → String
  | clear => "cls"
  | ret => "ret"
  | jump => "jp_addr"
  | call => "call_addr"
  | skipEqualByte => "se_vx_byte"
  | skipUnequalByte => "sne_vx_byte"
  | skipEqualRegister => "se_vx_vy"
  | loadByte => "ld_vx_byte"
  | addByte => "add_vx_byte"
  | assign => "ld_vx_vy"
  | or => "or_vx_vy"
  | and => "and_vx_vy"
  | xor => "xor_vx_vy"
  | add => "add_vx_vy"
  | sub => "sub_vx_vy"
  | shiftRight => "shr_vx"
  | subFrom => "subn_vx_vy"
  | shiftLeft => "shl_vx"
  | skipUnequalRegister => "sne_vx_vy"
  | loadIndex => "ld_i_addr"
  | jumpOffset => "jp_v0_addr"
  | random => "rnd_vx_byte"
  | draw => "drw_vx_vy_nibble"
  | skipHeldKey => "skp_vx"
  | skipFreeKey => "sknp_vx"
  | readDelay => "ld_vx_dt"
  | waitKey => "ld_vx_k"
  | setDelay => "ld_dt_vx"
  | sound => "ld_st_vx"
  | addIndex => "add_i_vx"
  | glyph => "ld_f_vx"
  | digits => "ld_b_vx"
  | store => "ld_i_vx"
  | load => "ld_vx_i"

def ofName? (text : String) : Option Form :=
  all.find? (·.name == text)

end Form

namespace Instruction

def form : Instruction → Form
  | clear => .clear
  | ret => .ret
  | jump _ => .jump
  | call _ => .call
  | jumpOffset _ => .jumpOffset
  | skipByte .holds _ _ => .skipEqualByte
  | skipByte .fails _ _ => .skipUnequalByte
  | skipRegister .holds _ _ => .skipEqualRegister
  | skipRegister .fails _ _ => .skipUnequalRegister
  | skipKey .holds _ => .skipHeldKey
  | skipKey .fails _ => .skipFreeKey
  | loadByte _ _ => .loadByte
  | addByte _ _ => .addByte
  | logic .assign _ _ => .assign
  | logic .or _ _ => .or
  | logic .and _ _ => .and
  | logic .xor _ _ => .xor
  | arithmetic .add _ _ => .add
  | arithmetic .sub _ _ => .sub
  | arithmetic .subFrom _ _ => .subFrom
  | shift .right _ => .shiftRight
  | shift .left _ => .shiftLeft
  | loadIndex _ => .loadIndex
  | addIndex _ => .addIndex
  | glyph _ => .glyph
  | random _ _ => .random
  | draw _ _ _ => .draw
  | readDelay _ => .readDelay
  | setDelay _ => .setDelay
  | waitKey _ => .waitKey
  | sound _ => .sound
  | digits _ => .digits
  | store _ => .store
  | load _ => .load

def operands : Instruction → List Nat
  | clear | ret => []
  | jump a | call a | jumpOffset a | loadIndex a => [a.toNat]
  | skipByte _ x b | loadByte x b | addByte x b | random x b => [x.val, b.toNat]
  | skipRegister _ x y | logic _ x y | arithmetic _ x y => [x.val, y.val]
  | draw x y rows => [x.val, y.val, rows.val]
  | skipKey _ x | shift _ x | addIndex x | glyph x | readDelay x | setDelay x | waitKey x
  | sound x | digits x | store x | load x => [x.val]

end Instruction

namespace Form

private def withAddress (make : Address → Instruction) : List Nat → Option Instruction
  | [a] => if h : a < 0x10000 then some (make (UInt16.ofNatLT a h)) else none
  | _ => none

private def withRegister (make : Register → Instruction) : List Nat → Option Instruction
  | [x] => if h : x < 16 then some (make ⟨x, h⟩) else none
  | _ => none

private def withRegisterByte (make : Register → UInt8 → Instruction) :
    List Nat → Option Instruction
  | [x, b] =>
      if h : x < 16 ∧ b < 256 then some (make ⟨x, h.1⟩ (UInt8.ofNatLT b h.2)) else none
  | _ => none

private def withRegisters (make : Register → Register → Instruction) :
    List Nat → Option Instruction
  | [x, y] => if h : x < 16 ∧ y < 16 then some (make ⟨x, h.1⟩ ⟨y, h.2⟩) else none
  | _ => none

private def withSprite (make : Register → Register → Fin 33 → Instruction) :
    List Nat → Option Instruction
  | [x, y, n] =>
      if h : x < 16 ∧ y < 16 ∧ n < 33 then some (make ⟨x, h.1⟩ ⟨y, h.2.1⟩ ⟨n, h.2.2⟩) else none
  | _ => none

/-- The instruction of a form with these operands, unless their number or one of their ranges
does not fit. -/
def instruction? : Form → List Nat → Option Instruction
  | clear, [] => some .clear
  | ret, [] => some .ret
  | clear, _ | ret, _ => none
  | jump, ops => withAddress .jump ops
  | call, ops => withAddress .call ops
  | jumpOffset, ops => withAddress .jumpOffset ops
  | loadIndex, ops => withAddress .loadIndex ops
  | skipEqualByte, ops => withRegisterByte (.skipByte .holds) ops
  | skipUnequalByte, ops => withRegisterByte (.skipByte .fails) ops
  | loadByte, ops => withRegisterByte .loadByte ops
  | addByte, ops => withRegisterByte .addByte ops
  | random, ops => withRegisterByte .random ops
  | skipEqualRegister, ops => withRegisters (.skipRegister .holds) ops
  | skipUnequalRegister, ops => withRegisters (.skipRegister .fails) ops
  | assign, ops => withRegisters (.logic .assign) ops
  | or, ops => withRegisters (.logic .or) ops
  | and, ops => withRegisters (.logic .and) ops
  | xor, ops => withRegisters (.logic .xor) ops
  | add, ops => withRegisters (.arithmetic .add) ops
  | sub, ops => withRegisters (.arithmetic .sub) ops
  | subFrom, ops => withRegisters (.arithmetic .subFrom) ops
  | draw, ops => withSprite .draw ops
  | skipHeldKey, ops => withRegister (.skipKey .holds) ops
  | skipFreeKey, ops => withRegister (.skipKey .fails) ops
  | shiftRight, ops => withRegister (.shift .right) ops
  | shiftLeft, ops => withRegister (.shift .left) ops
  | addIndex, ops => withRegister .addIndex ops
  | glyph, ops => withRegister .glyph ops
  | readDelay, ops => withRegister .readDelay ops
  | setDelay, ops => withRegister .setDelay ops
  | waitKey, ops => withRegister .waitKey ops
  | sound, ops => withRegister .sound ops
  | digits, ops => withRegister .digits ops
  | store, ops => withRegister .store ops
  | load, ops => withRegister .load ops

private theorem byte_lt (b : UInt8) : b.toNat < 256 := b.toNat_lt

private theorem address_lt (a : Address) : a.toNat < 0x10000 := a.toNat_lt

theorem instruction?_form_operands (i : Instruction) :
    i.form.instruction? i.operands = some i := by
  cases i with
  | skipByte which | skipRegister which | skipKey which | logic which | arithmetic which
  | shift which =>
      cases which <;>
        simp [Instruction.form, Instruction.operands, instruction?, withRegister, withRegisters,
          withRegisterByte, byte_lt]
  | _ =>
      simp [Instruction.form, Instruction.operands, instruction?, withAddress, withRegister,
        withRegisterByte, withSprite, byte_lt, address_lt]

/-- An instruction is determined by its form and its operands. -/
theorem form_operands_inj {i j : Instruction} (form : i.form = j.form)
    (operands : i.operands = j.operands) : i = j := by
  have hi := instruction?_form_operands i
  rw [form, operands, instruction?_form_operands j] at hi
  exact (Option.some.inj hi).symm

end Form

end Chip8VM
