/-!
Decimal text of integers, plain and with a comma between groups of three digits.
-/

namespace Chip8VM.Text

/-- The decimal digits of a number, most significant first. -/
def decimalDigits (n : Nat) : List Char :=
  Nat.toDigits 10 n

/-- Puts a comma before each group of three digits that has digits before it. -/
def groupThousands (digits : List Char) : List Char :=
  match digits with
  | [] => []
  | d :: rest =>
      if rest.length % 3 = 0 ∧ rest ≠ [] then d :: ',' :: groupThousands rest
      else d :: groupThousands rest

/-- An integer with a sign when it is negative. -/
def decimal : Int → String
  | .ofNat n => String.ofList (decimalDigits n)
  | .negSucc n => "-" ++ String.ofList (decimalDigits (n + 1))

/-- An integer whose digits are grouped by thousands, as in 1,234,567. -/
def grouped : Int → String
  | .ofNat n => String.ofList (groupThousands (decimalDigits n))
  | .negSucc n => "-" ++ String.ofList (groupThousands (decimalDigits (n + 1)))

end Chip8VM.Text
