import Chip8VM.Instruction.Mnemonic
import Chip8VM.Machine.Execute
import Chip8VM.Text.Decimal

/-!
Statements: forms with any integers as their operands. The machine can execute most of them, also
where no instruction has such operands. Bytes and the base of an offset jump wrap, while an address
has to fit. A register is counted from the end if its number is negative; a number beyond both ends
is read as the nearest register, and a write to it is lost. The number of a register that is only
written wraps at 32 bits before it is looked at. A block of registers has to be as long as the block
of memory that it is stored to or loaded from.

The main statement is that an instruction, taken as a statement, does what it always does.
-/

namespace Chip8VM

structure Statement where
  form : Form
  operands : List Int
deriving DecidableEq, Repr

inductive StatementError where
  | wrongCount (expected got : Nat)
  | outOfRange
  /-- A block of memory has more cells than 63 bits can count. -/
  | tooLong (cells : Nat)
  /-- A block of registers has another length than its block of memory. -/
  | lengthsDiffer (registers cells : Nat)
  | halt (cause : Halt)
deriving DecidableEq, Repr

def StatementError.message : StatementError → String
  | wrongCount expected got =>
      "expected " ++ Text.decimal expected ++ " operands, got " ++ Text.decimal got
  | outOfRange => "an operand is out of range"
  | tooLong cells => "a block cannot have " ++ Text.decimal cells ++ " cells"
  | lengthsDiffer registers cells =>
      Text.decimal registers ++ " registers do not match " ++ Text.decimal cells ++ " cells"
  | halt cause => cause.message

namespace Register

/-- The index that a number stands for. A negative number counts from the end. -/
def indexOf (n : Int) : Int := if n < 0 then n + 16 else n

/-- The register with an index, or else the nearest one. -/
def nearest (index : Int) : Register := ⟨min index.toNat 15, by omega⟩

def isIndex (index : Int) : Bool := decide (0 ≤ index ∧ index < 16)

@[simp]
theorem indexOf_val (x : Register) : indexOf x.val = x.val := by
  simp only [indexOf]
  omega

@[simp]
theorem nearest_val (x : Register) : nearest x.val = x := by
  apply Fin.ext
  simp only [nearest]
  omega

@[simp]
theorem isIndex_val (x : Register) : isIndex x.val = true := by
  simp only [isIndex, decide_eq_true_eq]
  omega

end Register

/-- Whether an integer has a place in signed 32 bits. -/
def isSigned32 (n : Int) : Bool := decide (-0x80000000 ≤ n ∧ n < 0x80000000)

/-- Whether an integer has a place in 64 bits, either signed or unsigned. -/
def isWord64 (n : Int) : Bool := decide (-0x8000000000000000 ≤ n ∧ n < 0x10000000000000000)

namespace OperandKind

/-- Whether an integer is in the range that is allowed for an operand. -/
def accepts : OperandKind → Int → Bool
  | register, n | byte, n | base, n => isSigned32 n
  | target, n => isWord64 (Register.indexOf n)
  | block, _ => true
  | address, n => decide (0 ≤ n ∧ n < 0x10000)
  | rows, n => decide (n ≤ 32)

/-- The index of the register that an integer stands for, if the operand is a register. The last
register of a block only gives its length. -/
def index? : OperandKind → Int → Option Int
  | register, n => some (Register.indexOf n)
  | target, n => some ((Register.indexOf n).bmod 0x100000000)
  | _, _ => none

/-- The operand of an instruction that an integer is read as. -/
def read : OperandKind → Int → Nat
  | register, n => Register.nearest (Register.indexOf n)
  | target, n => Register.nearest ((Register.indexOf n).bmod 0x100000000)
  | block, n => Register.nearest n
  | byte, n => (n % 0x100).toNat
  | base, n => (n % 0x10000).toNat
  | address, n | rows, n => n.toNat

/-- What holds of an operand that an instruction can have: it is allowed, it is read as it is, and
if it names a register, the index of that register is one. -/
structure Suits (kind : OperandKind) (n : Nat) : Prop where
  accepted : kind.accepts n = true
  read_eq : kind.read n = n
  isIndex : ∀ {index}, kind.index? n = some index → Register.isIndex index = true

@[simp]
theorem suits_register (x : Register) : register.Suits x.val where
  accepted := by
    simp only [accepts, isSigned32, decide_eq_true_eq]
    omega
  read_eq := by simp [read]
  isIndex indexed := by
    obtain rfl := Option.some.inj indexed
    simp

@[simp]
theorem suits_target (x : Register) : target.Suits x.val := by
  have same : (x.val : Int).bmod 0x100000000 = x.val := by
    simp only [Int.bmod]
    omega
  refine ⟨?_, by simp [read, same], fun indexed => ?_⟩
  · simp only [accepts, Register.indexOf_val, isWord64, decide_eq_true_eq]
    omega
  · obtain rfl := Option.some.inj indexed
    simp [same]

@[simp]
theorem suits_block (x : Register) : block.Suits x.val :=
  ⟨rfl, by simp [read], nofun⟩

@[simp]
theorem suits_byte (b : UInt8) : byte.Suits b.toNat := by
  have := b.toNat_lt
  refine ⟨?_, ?_, nofun⟩
  · simp only [accepts, isSigned32, decide_eq_true_eq]
    omega
  · simp only [read]
    omega

@[simp]
theorem suits_base (a : Address) : base.Suits a.toNat := by
  have := a.toNat_lt
  refine ⟨?_, ?_, nofun⟩
  · simp only [accepts, isSigned32, decide_eq_true_eq]
    omega
  · simp only [read]
    omega

@[simp]
theorem suits_address (a : Address) : address.Suits a.toNat := by
  have := a.toNat_lt
  refine ⟨?_, rfl, nofun⟩
  simp only [accepts, decide_eq_true_eq]
  omega

@[simp]
theorem suits_rows (n : Fin 33) : rows.Suits n.val := by
  refine ⟨?_, rfl, nofun⟩
  simp only [accepts, decide_eq_true_eq]
  omega

end OperandKind

namespace Statement

def mnemonic (s : Statement) : String := s.form.mnemonic s.operands

def isAccepted (s : Statement) : Bool :=
  (s.form.operandKinds.zip s.operands).all fun operand => operand.1.accepts operand.2

def instruction? (s : Statement) : Option Instruction :=
  s.form.instruction? (List.zipWith OperandKind.read s.form.operandKinds s.operands)

end Statement

namespace Machine

/-- Whether the machine looks at the operands of a form: not when it beeps, nor while it waits for
a key. -/
def readsOperands (m : Machine) : Form → Bool
  | .sound => false
  | .waitKey => !m.keypad.held.isEmpty
  | _ => true

private def executeRead (m : Machine) (s : Statement) : Except StatementError Machine :=
  match s.instruction? with
  | some instruction => (m.execute instruction).mapError .halt
  | none => .error .outOfRange

/-- A register other than VF and than the one that the next operand may name. -/
private def standIn (operands : List Int) : Register :=
  let next := operands.head?.map fun n => Register.nearest (Register.indexOf n)
  if next = some ⟨1, by decide⟩ then ⟨2, by decide⟩ else ⟨1, by decide⟩

/-- Executes a statement whose first operand names no register. Another register stands in for it:
it shows what the nearest one holds, and gets its own value back afterwards, so that what was
written to it is lost. -/
private def executeBeyond (m : Machine) (form : Form) (nearest : Register) (operands : List Int) :
    Except StatementError Machine := do
  let spare := standIn operands
  let shown := m.setRegister spare (m.register nearest)
  let after ← shown.executeRead ⟨form, (spare.val : Int) :: operands⟩
  return after.setRegister spare (m.register spare)

/-- The registers before a number, which counts from the end if it is negative. -/
private def registersBefore (n : Int) : Nat :=
  if n < 0 then (n + 16).toNat else min n.toNat 16

/-- Stores or loads a block. One that leaves nothing to write is skipped. -/
private def executeBlock (m : Machine) (instruction : Instruction)
    (registers cells written : Nat) : Except StatementError Machine :=
  if 0x8000000000000000 ≤ cells then .error (.tooLong cells)
  else if written = 0 then .ok m.next
  else if registers = cells then (m.execute instruction).mapError .halt
  else .error (.lengthsDiffer registers cells)

/-- Executes a statement with as many operands as its form has, of which `n` is the first. -/
private def executeFitting (m : Machine) (form : Form) (n : Int) (operands : List Int) :
    Except StatementError Machine :=
  let registers := registersBefore (n + 1)
  let cells := (n + 1).toNat
  match form with
  | .store => m.executeBlock (.store (Register.nearest n)) registers cells cells
  | .load => m.executeBlock (.load (Register.nearest n)) registers cells registers
  | _ =>
      match form.operandKinds.head?.bind fun kind => kind.index? n with
      | some index =>
          if Register.isIndex index then m.executeRead ⟨form, n :: operands⟩
          else m.executeBeyond form (Register.nearest index) operands
      | none => m.executeRead ⟨form, n :: operands⟩

def executeStatement (m : Machine) (s : Statement) : Except StatementError Machine :=
  let expected := s.form.operandKinds.length
  if s.operands.length ≠ expected then .error (.wrongCount expected s.operands.length)
  else if m.readsOperands s.form ∧ !s.isAccepted then .error .outOfRange
  else
    match s.operands with
    | [] => m.executeRead s
    | n :: operands => m.executeFitting s.form n operands

end Machine

namespace Instruction

def statement (i : Instruction) : Statement :=
  ⟨i.form, i.operands.map fun (n : Nat) => (n : Int)⟩

theorem length_operands_statement (i : Instruction) :
    i.statement.operands.length = i.statement.form.operandKinds.length := by
  simp [statement, length_operands]

/-- Each operand of an instruction suits its place in the form. -/
theorem suits_operands (i : Instruction) :
    ∀ operand ∈ i.form.operandKinds.zip i.operands, operand.1.Suits operand.2 := by
  cases i with
  | skipByte which | skipRegister which | skipKey which | logic which | arithmetic which
  | shift which =>
      cases which <;> simp [form, operands, Form.operandKinds, Form.arguments, Argument.kind?]
  | _ =>
      simp [form, operands, Form.operandKinds, Form.arguments, Argument.kind?,
        List.filterMap_cons]

theorem isAccepted_statement (i : Instruction) : i.statement.isAccepted = true := by
  rw [Statement.isAccepted, statement, List.zip_map_right, List.all_map, List.all_eq_true]
  exact fun operand mem => (i.suits_operands operand mem).accepted

private theorem read_operands (i : Instruction) :
    List.zipWith OperandKind.read i.statement.form.operandKinds i.statement.operands =
      i.operands := by
  have fits : i.operands.length ≤ i.form.operandKinds.length := Nat.le_of_eq i.length_operands
  rw [statement, List.zipWith_map_right, ← List.map_uncurry_zip_eq_zipWith]
  conv => rhs; rw [← List.map_snd_zip fits]
  exact List.map_congr_left fun operand mem => (i.suits_operands operand mem).read_eq

/-- If the first operand of an instruction names a register, the index of that register is one. -/
private theorem isIndex_first (i : Instruction) {n : Int} {operands : List Int}
    (first : i.statement.operands = n :: operands) {kind : OperandKind}
    (place : i.form.operandKinds.head? = some kind) {index : Int}
    (indexed : kind.index? n = some index) : Register.isIndex index = true := by
  obtain ⟨k, others, given, rfl, -⟩ := List.map_eq_cons_iff.mp first
  obtain ⟨kinds, wanted⟩ := List.head?_eq_some_iff.mp place
  have mem : (kind, k) ∈ i.form.operandKinds.zip i.operands := by
    rw [wanted, given]
    exact List.mem_cons_self
  exact (i.suits_operands _ mem).isIndex indexed

theorem instruction?_statement (i : Instruction) : i.statement.instruction? = some i := by
  rw [Statement.instruction?, read_operands]
  exact Form.instruction?_form_operands i

end Instruction

namespace Machine

private theorem registersBefore_succ (x : Register) : registersBefore (x.val + 1) = x.val + 1 := by
  simp only [registersBefore]
  split <;> omega

private theorem executeBlock_self (m : Machine) (i : Instruction) (x : Register) :
    m.executeBlock i (x.val + 1) (x.val + 1) (x.val + 1) = (m.execute i).mapError .halt := by
  rw [executeBlock, if_neg (by omega), if_neg (by omega), if_pos rfl]

private theorem executeRead_statement (m : Machine) (i : Instruction) :
    m.executeRead i.statement = (m.execute i).mapError .halt := by
  simp [executeRead, Instruction.instruction?_statement]

/-- A statement that is not about a block is read as it stands, unless it begins with a register
that there is not. -/
private theorem executeFitting_of_isIndex (m : Machine) {form : Form} {n : Int}
    {operands : List Int} (store : form ≠ .store) (load : form ≠ .load)
    (isIndex : ∀ {kind}, form.operandKinds.head? = some kind →
      ∀ {index}, kind.index? n = some index → Register.isIndex index = true) :
    m.executeFitting form n operands = m.executeRead ⟨form, n :: operands⟩ := by
  rw [executeFitting]
  · split
    next index named =>
      obtain ⟨kind, place, indexed⟩ := Option.bind_eq_some_iff.mp named
      rw [if_pos (isIndex place indexed)]
    next => rfl
  · exact store
  · exact load

private theorem executeFitting_statement (m : Machine) (i : Instruction) {n : Int}
    {operands : List Int} (h : i.statement = ⟨i.form, n :: operands⟩) :
    m.executeFitting i.form n operands = (m.execute i).mapError .halt := by
  have read := m.executeRead_statement i
  rw [h] at read
  have other (store : i.form ≠ .store) (load : i.form ≠ .load) :
      m.executeFitting i.form n operands = (m.execute i).mapError .halt :=
    (m.executeFitting_of_isIndex store load
      (i.isIndex_first (congrArg Statement.operands h))).trans read
  cases i with
  | store x | load x =>
      obtain ⟨rfl, -⟩ := List.cons.inj (congrArg Statement.operands h)
      simp [executeFitting, Instruction.form, registersBefore_succ, executeBlock_self]
  | skipByte which | skipRegister which | skipKey which | logic which | arithmetic which
  | shift which =>
      cases which <;> exact other (by simp [Instruction.form]) (by simp [Instruction.form])
  | _ => exact other (by simp [Instruction.form]) (by simp [Instruction.form])

/-- As a statement, an instruction does what it always does. -/
theorem executeStatement_statement (m : Machine) (i : Instruction) :
    m.executeStatement i.statement = (m.execute i).mapError .halt := by
  rw [executeStatement, if_neg (by simp [Instruction.length_operands_statement]),
    if_neg (by simp [Instruction.isAccepted_statement])]
  split
  · exact m.executeRead_statement i
  · rename_i n operands eq
    exact m.executeFitting_statement i (congrArg (Statement.mk i.form) eq)

end Machine

end Chip8VM
