/-!
Hexadecimal text with upper-case digits, the notation of addresses, opcodes and registers.
A width is a least number of characters: shorter text is filled with leading zeros, and a
minus sign takes one of the places.
-/

namespace Chip8VM.Text

/-- The digit written for a value below sixteen. -/
def hexDigit (n : Nat) : Char :=
  Char.ofNat (if n < 10 then 48 + n else 55 + n)

/-- The digits of a number, most significant first and without leading zeros. -/
def hexDigits (n : Nat) : List Char :=
  if n < 16 then [hexDigit n] else hexDigits (n / 16) ++ [hexDigit (n % 16)]
termination_by n

/-- Fills text with zeros on the left until it has `width` characters. -/
def zeroFill (width : Nat) (digits : List Char) : List Char :=
  List.replicate (width - digits.length) '0' ++ digits

/-- A natural number in at least `width` digits. -/
def hex (width n : Nat) : String :=
  String.ofList (zeroFill width (hexDigits n))

/-- An integer in at least `width` characters: the zeros of a negative number stand between its
sign and its digits. -/
def hexInt (width : Nat) : Int → String
  | .ofNat n => hex width n
  | .negSucc n => "-" ++ hex (width - 1) (n + 1)

theorem hexDigits_of_lt {n : Nat} (h : n < 16) : hexDigits n = [hexDigit n] := by
  rw [hexDigits, if_pos h]

theorem hexDigits_of_ge {n : Nat} (h : 16 ≤ n) :
    hexDigits n = hexDigits (n / 16) ++ [hexDigit (n % 16)] := by
  rw [hexDigits, if_neg (by omega)]

end Chip8VM.Text
