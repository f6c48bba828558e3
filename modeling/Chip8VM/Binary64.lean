import Chip8VM.Text.Decimal

/-!
Floating-point numbers taken apart exactly. A finite one is a natural number times a power of
two, with a sign that zero has too. From this come its integer part and its text with a fixed
number of decimal places, which rounds the exact value and sends a half to the even neighbour. In
the other direction, an integer is rounded to the nearest floating-point number.
-/

namespace Chip8VM

inductive Binary64 where
  | nan
  | infinite (negative : Bool)
  /-- The number `m * 2 ^ q`, or its negative. -/
  | finite (negative : Bool) (m : Nat) (q : Int)
deriving DecidableEq, Repr

namespace Binary64

/-- The number that 64 bits stand for: one bit for the sign, eleven for the exponent and 52 for the
fraction. -/
def ofBits (bits : Nat) : Binary64 :=
  let negative := bits / 0x8000000000000000 % 2 == 1
  let exponent : Nat := bits / 0x10000000000000 % 0x800
  let fraction : Nat := bits % 0x10000000000000
  if exponent = 2047 then
    if fraction = 0 then .infinite negative else .nan
  else if exponent = 0 then .finite negative fraction (-1074)
  else .finite negative (0x10000000000000 + fraction) ((exponent : Int) - 1075)

def ofFloat (x : Float) : Binary64 := ofBits x.toBits.toNat

def signed (negative : Bool) (n : Nat) : Int := if negative then -n else n

/-- The integer part: the fraction is cut off, whatever the sign. -/
def integerPart (negative : Bool) (m : Nat) (q : Int) : Int :=
  signed negative (m <<< q.toNat >>> (-q).toNat)

/-- The quotient rounded to the nearest integer, and from the middle to the even one. -/
def roundDiv (num den : Nat) : Nat :=
  let quotient := num / den
  let rest := num % den
  if 2 * rest < den then quotient
  else if den < 2 * rest then quotient + 1
  else quotient + quotient % 2

/-- A natural number rounded to 53 significant bits, and from the middle to the even neighbour. -/
def nearestNat (n : Nat) : Nat :=
  let excess := n.log2 - 52
  roundDiv n (1 <<< excess) <<< excess

/-- The floating-point number nearest to an integer, if there were no largest one. -/
def nearestInt : Int → Int
  | .ofNat n => nearestNat n
  | .negSucc n => -(nearestNat (n + 1) : Int)

def inRange (n : Int) : Bool :=
  decide ((nearestInt n).natAbs < 1 <<< 1024)

/-- A natural number of hundredths, with a point and two decimal places. -/
def hundredthsText (n : Nat) : List Char :=
  Text.decimalDigits (n / 100) ++
    '.' :: Text.decimalDigits (n / 10 % 10) ++ Text.decimalDigits (n % 10)

def twoPlaces : Binary64 → String
  | nan => "nan"
  | infinite negative => if negative then "-inf" else "inf"
  | finite negative m q =>
      let hundredths := roundDiv ((100 * m) <<< q.toNat) (1 <<< (-q).toNat)
      (if negative then "-" else "") ++ String.ofList (hundredthsText hundredths)

/-- Numbers of at most 53 bits are not rounded. -/
theorem nearestNat_of_lt {n : Nat} (h : n < 0x20000000000000) : nearestNat n = n := by
  have short : n.log2 - 52 = 0 := by
    by_cases zero : n = 0
    · rw [zero, Nat.log2_zero]
    · have := (Nat.log2_lt zero).2 (show n < 2 ^ 53 by omega)
      omega
  simp [nearestNat, short, roundDiv, Nat.mod_one]

end Binary64

end Chip8VM
