import Chip8VM.Number

/-!
The arithmetic of pacing. Times, rates and fractions of a cycle are quantities; what is asked of
them is little enough that numbers whose operations round serve as well as exact ones. Arithmetic
may lead beyond the numbers, which is noticed before a result is kept.
-/

namespace Chip8VM

inductive Unmeasured where
  | undefined
  | infinite
  /-- Arithmetic has led beyond the numbers. -/
  | beyond
deriving DecidableEq, Repr

class Quantity (τ : Type) extends Add τ, Sub τ, Mul τ, Div τ where
  /-- The debt of a clock that has not run yet. -/
  zero : τ
  ofInt : Int → τ
  /-- Whether arithmetic has led beyond the numbers. -/
  isBeyond : τ → Bool
  le : τ → τ → Bool
  /-- The integer part, cut off toward zero. -/
  integerPart : τ → Except Unmeasured Int

def Binary64.measure : Binary64 → Except Unmeasured Int
  | nan => .error .undefined
  | infinite _ => .error .infinite
  | finite negative m q => .ok (integerPart negative m q)

def Number.integerPart : Number → Except Unmeasured Int
  | whole n => .ok n
  | real x => (Binary64.ofFloat x).measure
  | beyond => .error .beyond

/-- A debt is kept as a floating-point number, whatever is added to it. -/
instance : Quantity Number where
  zero := .real 0
  ofInt := .whole
  isBeyond := Number.isBeyond
  le := Number.le
  integerPart := Number.integerPart

end Chip8VM
