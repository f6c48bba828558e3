import Chip8VM.Text.Hex
import Chip8VM.Text.Visible

/-!
Text between quotes, as a file name stands in a message. Single quotes are used unless the
text holds a single quote and no double quote. The quote in use and the backslash are escaped,
and a character without a visible form is written by its code.
-/

namespace Chip8VM.Text

/-- The escape of a character by its code, in two, four or eight lower-case hex digits. -/
def codeEscape (c : Char) : List Char :=
  let digits := Nat.toDigits 16 c.toNat
  if c.toNat < 0x100 then '\\' :: 'x' :: zeroFill 2 digits
  else if c.toNat < 0x10000 then '\\' :: 'u' :: zeroFill 4 digits
  else '\\' :: 'U' :: zeroFill 8 digits

def quoteChar (quote c : Char) : List Char :=
  if c = quote ∨ c = '\\' then ['\\', c]
  else if c = '\n' then ['\\', 'n']
  else if c = '\r' then ['\\', 'r']
  else if c = '\t' then ['\\', 't']
  else if isVisible c then [c]
  else codeEscape c

def quoted (text : String) : String :=
  let chars := text.toList
  let quote := if '\'' ∈ chars ∧ '"' ∉ chars then '"' else '\''
  String.ofList (quote :: chars.flatMap (quoteChar quote) ++ [quote])

/-- Texts between quotes, separated by commas, inside brackets. -/
def quotedList (texts : List String) : String :=
  "[" ++ String.intercalate ", " (texts.map quoted) ++ "]"

end Chip8VM.Text
