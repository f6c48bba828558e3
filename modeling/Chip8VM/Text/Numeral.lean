import Chip8VM.Text.Digit

/-!
Numbers read from text. Blanks may stand before and after a number, an underscore may stand
between two of its digits, and digits may come from any script. A floating-point number is a
decimal fraction with an optional exponent, or the word for infinity or for an undefined number.
-/

namespace Chip8VM.Text

/-- Text without the blanks at its two ends. -/
def trimmed (chars : List Char) : List Char :=
  ((chars.dropWhile isBlank).reverse.dropWhile isBlank).reverse

/-- Splits off a sign, which is negative for a minus. -/
def takeSign : List Char → Bool × List Char
  | '-' :: rest => (true, rest)
  | '+' :: rest => (false, rest)
  | chars => (false, chars)

/-- The values of the digits at the beginning of the text, without the underscores between them,
and the rest of the text. -/
def takeDigits : List Char → List Nat × List Char
  | [] => ([], [])
  | c :: rest =>
      match digitValue? c with
      | none => ([], c :: rest)
      | some value =>
          match rest with
          | '_' :: next :: rest =>
              if isDigit next then
                let (values, rest) := takeDigits (next :: rest)
                (value :: values, rest)
              else ([value], '_' :: next :: rest)
          | rest =>
              let (values, rest) := takeDigits rest
              (value :: values, rest)

def ofDigits (values : List Nat) : Nat :=
  values.foldl (10 * · + ·) 0

/-- The number of digits from which on a number is not read. -/
def digitLimit : Nat := 4300

/-- The integer that a text stands for. -/
def readInt? (text : String) : Option Int :=
  let (negative, unsigned) := takeSign (trimmed text.toList)
  match takeDigits unsigned with
  | ([], _) => none
  | (values, []) =>
      if values.length ≤ digitLimit then
        some (if negative then -(ofDigits values : Int) else ofDigits values)
      else none
  | (_, _ :: _) => none

/-- The exponent at the end of a number; without one it is zero. -/
def readExponent? : List Char → Option Int
  | [] => some 0
  | c :: rest =>
      if c = 'e' ∨ c = 'E' then
        let (negative, unsigned) := takeSign rest
        match takeDigits unsigned with
        | ([], _) => none
        | (values, []) => some (if negative then -(ofDigits values : Int) else ofDigits values)
        | (_, _ :: _) => none
      else none

/-- The floating-point number nearest to `mantissa * 10 ^ exponent`. The exponents that certainly
lead out of the range of floating-point numbers are decided at once. -/
def nearest (mantissa : Nat) (exponent : Int) : Float :=
  let magnitude := exponent + (Nat.toDigits 10 mantissa).length
  if mantissa = 0 ∨ magnitude < -400 then 0
  else if magnitude > 400 then 1 / 0
  else if exponent < 0 then Float.ofScientific mantissa true (-exponent).toNat
  else Float.ofScientific mantissa false exponent.toNat

/-- A decimal fraction without a sign: digits, a point and digits, of which one side may be
missing, and an exponent. -/
def readFraction? (chars : List Char) : Option Float := do
  let (whole, rest) := takeDigits chars
  let (places, rest) :=
    match rest with
    | '.' :: rest => takeDigits rest
    | rest => ([], rest)
  if whole.isEmpty && places.isEmpty then none
  let exponent ← readExponent? rest
  return nearest (ofDigits (whole ++ places)) (exponent - places.length)

/-- The number that a word stands for, in upper or lower case. -/
def readWord? (chars : List Char) : Option Float :=
  let word := String.ofList (chars.map Char.toLower)
  if word == "inf" || word == "infinity" then some (1 / 0)
  else if word == "nan" then some (0 / 0)
  else none

/-- The floating-point number that a text stands for. -/
def readFloat? (text : String) : Option Float := do
  let (negative, unsigned) := takeSign (trimmed text.toList)
  let value ← (readWord? unsigned).orElse fun _ => readFraction? unsigned
  return if negative then -value else value

end Chip8VM.Text
