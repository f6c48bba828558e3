import Chip8VM.Binary64

/-!
Numbers of two kinds, as times and rates are given. Sums, differences and products of integers are
exact; wherever a floating-point number takes part, and in every quotient, an integer is first
rounded to a floating-point number. An integer that is too large for that takes the result beyond
the numbers, and nothing leads back.
-/

namespace Chip8VM

inductive Number where
  | whole (n : Int)
  | real (x : Float)
  /-- What is left when an integer was too large. -/
  | beyond
deriving Repr

namespace Number

/-- The nearest floating-point number, if the number is not too large. -/
def toFloat? : Number → Option Float
  | whole n => if Binary64.inRange n then some (Float.ofInt (Binary64.nearestInt n)) else none
  | real x => some x
  | beyond => none

def isBeyond : Number → Bool
  | beyond => true
  | _ => false

/-- An operation of floating-point numbers. -/
def rounded (op : Float → Float → Float) (a b : Number) : Number :=
  match a.toFloat?, b.toFloat? with
  | some x, some y => real (op x y)
  | _, _ => beyond

instance : Add Number where
  add
    | whole a, whole b => whole (a + b)
    | a, b => rounded (· + ·) a b

instance : Sub Number where
  sub
    | whole a, whole b => whole (a - b)
    | a, b => rounded (· - ·) a b

instance : Mul Number where
  mul
    | whole a, whole b => whole (a * b)
    | a, b => rounded (· * ·) a b

instance : Div Number where
  div := rounded (· / ·)

/-- Whether one number is at most another. Integers are compared as they are. -/
def le : Number → Number → Bool
  | whole a, whole b => decide (a ≤ b)
  | a, b =>
      match a.toFloat?, b.toFloat? with
      | some x, some y => decide (x ≤ y)
      | _, _ => false

end Number

end Chip8VM
