import Chip8VM.Machine.Basic

/-!
What each instruction does to the machine. Every instruction can be executed in every state,
except that a return needs an address on the stack. All operands are read before anything is
written, with one exception: a shift of the flag register shifts the flag it has just written.
-/

namespace Chip8VM

def LogicOp.apply : LogicOp → UInt8 → UInt8 → UInt8
  | assign, _, b => b
  | or, a, b => a ||| b
  | and, a, b => a &&& b
  | xor, a, b => a ^^^ b

/-- The result modulo 256, and the carry of a sum or the flag of a difference, which is 1 only if
the minuend is the greater one. -/
def ArithmeticOp.apply : ArithmeticOp → UInt8 → UInt8 → UInt8 × UInt8
  | add, a, b => (a + b, if a.toNat + b.toNat > 255 then 1 else 0)
  | sub, a, b => (a - b, if a > b then 1 else 0)
  | subFrom, a, b => (b - a, if b > a then 1 else 0)

def ShiftDirection.apply : ShiftDirection → UInt8 → UInt8
  | right, a => a >>> 1
  | left, a => a <<< 1

/-- The bit that a shift pushes out. -/
def ShiftDirection.lost : ShiftDirection → UInt8 → UInt8
  | right, a => a &&& 1
  | left, a => a >>> 7

/-- The decimal digits of a byte: hundreds, tens and units. -/
def decimalBytes (value : UInt8) : List UInt8 :=
  [value / 100, value / 10 % 10, value % 10]

namespace Machine

def logic (m : Machine) (op : LogicOp) (x y : Register) : Machine :=
  m.setRegister x (op.apply (m.register x) (m.register y))

def arithmetic (m : Machine) (op : ArithmeticOp) (x y : Register) : Machine :=
  let (value, flag) := op.apply (m.register x) (m.register y)
  m.setWithFlag x value flag

def shift (m : Machine) (direction : ShiftDirection) (x : Register) : Machine :=
  let flagged := m.setRegister flagRegister (direction.lost (m.register x))
  flagged.setRegister x (direction.apply (flagged.register x))

/-- The sprite that a draw instruction shows; the rows are read from I on. -/
def sprite (m : Machine) (x y : Register) (rows : Nat) : Sprite where
  rows := m.memory.readBlock m.index.toNat rows
  column := (m.register x).toNat
  row := (m.register y).toNat

def draw (m : Machine) (x y : Register) (rows : Nat) : Machine :=
  let sprite := m.sprite x y rows
  { m.setRegister flagRegister (if m.screen.collides sprite then 1 else 0) with
    screen := m.screen.draw sprite }

/-- Puts a random byte, masked, into a register and replaces the key. -/
def drawRandom (m : Machine) (x : Register) (mask : UInt8) : Machine :=
  { m.setRegister x (m.random.byte &&& mask) with random := m.random.next }

def registersTo (m : Machine) (x : Register) : List UInt8 :=
  m.registers.toList.take (x + 1)

def storeAtIndex (m : Machine) (data : List UInt8) : Machine :=
  { m with memory := m.memory.writeBlock m.index.toNat data }

/-- Loads the registers from V0 to Vx with the bytes from I on. -/
def loadRegisters (m : Machine) (x : Register) : Machine :=
  { m with registers := Vector.ofFn fun k =>
      if k ≤ x then m.memory.read (m.index.toNat + k) else m.register k }

/-- Puts the lowest held key into a register; with no key held, the machine stays where it is. -/
def awaitKey (m : Machine) (x : Register) : Machine :=
  match m.keypad.lowest? with
  | some key => (m.setRegister x (UInt8.ofNat key)).next
  | none => m

def ret (m : Machine) : Except Halt Machine :=
  match m.stack.pop? with
  | some (address, rest) => .ok { m with stack := rest, pc := address }
  | none => .error (.stackUnderflow m.pc)

def execute (m : Machine) : Instruction → Except Halt Machine
  | .clear => .ok { m.next with screen := Screen.blank }
  | .ret => m.ret
  | .jump target => .ok (m.jump target)
  | .call target => .ok ({ m with stack := m.stack.push (m.pc + 2) }.jump target)
  | .jumpOffset base => .ok (m.jump ((m.register offsetRegister).toUInt16 + base))
  | .skipByte sense x value => .ok (m.skipIf (sense.accepts (m.register x == value)))
  | .skipRegister sense x y =>
      .ok (m.skipIf (sense.accepts (m.register x == m.register y)))
  | .skipKey sense x => .ok (m.skipIf (sense.accepts (m.keypad.holds (m.register x).toNat)))
  | .loadByte x value => .ok (m.setRegister x value).next
  | .addByte x value => .ok (m.setRegister x (m.register x + value)).next
  | .logic op x y => .ok (m.logic op x y).next
  | .arithmetic op x y => .ok (m.arithmetic op x y).next
  | .shift direction x => .ok (m.shift direction x).next
  | .loadIndex target => .ok { m.next with index := target }
  | .addIndex x => .ok { m.next with index := m.index + (m.register x).toUInt16 }
  | .glyph x =>
      .ok { m.next with index := UInt16.ofNat (fontStart + glyphSize * (m.register x).toNat) }
  | .random x mask => .ok (m.drawRandom x mask).next
  | .draw x y rows => .ok (m.draw x y rows).next
  | .readDelay x => .ok (m.setRegister x m.delay).next
  | .setDelay x => .ok { m.next with delay := m.register x }
  | .waitKey x => .ok (m.awaitKey x)
  | .sound _ => .ok m.next
  | .digits x => .ok (m.storeAtIndex (decimalBytes (m.register x))).next
  | .store x => .ok (m.storeAtIndex (m.registersTo x)).next
  | .load x => .ok (m.loadRegisters x).next

/-- Fetches, decodes and executes one instruction. -/
def step (m : Machine) : Except Halt (Decoded × Machine) := do
  let decoded ← decode m.fetch
  let after ← m.execute decoded.instruction
  return (decoded, after)

end Machine

end Chip8VM
