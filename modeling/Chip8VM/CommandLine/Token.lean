import Chip8VM.Text.Digit

/-!
The words of a command line. A word that begins with a minus is the name of an option, which may
be cut short as long as it stays unique and may carry a value behind an equals sign. A word is not
a name if it reads as a negative number or holds a blank, and neither is any word behind a lone
double minus.
-/

namespace Chip8VM.CommandLine

inductive Switch where
  | help | rate | scale | colourScheme | headless | seed | logLevel
deriving DecidableEq, Repr

inductive Token where
  | value (text : String)
  | switch (switch : Switch) (attached : Option String)
  /-- Help by its one-letter name, with letters behind it. -/
  | helpLetters (attached : String)
  | separator
  | unknown (text : String)
deriving DecidableEq, Repr

namespace Switch

def all : List Switch := [help, rate, scale, colourScheme, headless, seed, logLevel]

def name : Switch → String
  | help => "--help"
  | rate => "--rate"
  | scale => "--scale"
  | colourScheme => "--color-scheme"
  | headless => "--headless"
  | seed => "--seed"
  | logLevel => "--log-level"

def ofName? (text : String) : Option Switch :=
  all.find? (·.name == text)

end Switch

/-- The options whose names begin with a text. -/
def switchesFrom (start : List Char) : List Switch :=
  Switch.all.filter fun switch => start.isPrefixOf switch.name.toList

/-- Splits text at the first equals sign, if there is one. -/
def splitValue (chars : List Char) : List Char × Option String :=
  match chars.dropWhile (· ≠ '=') with
  | [] => (chars, none)
  | _ :: value => (chars.takeWhile (· ≠ '='), some (String.ofList value))

/-- Whether text reads as a negative number: a minus, then digits alone or with a point before
the last of them. A line break may follow. -/
def isNegativeNumber (chars : List Char) : Bool :=
  match chars with
  | '-' :: rest =>
      let rest := if rest.getLast? = some '\n' then rest.dropLast else rest
      let whole := rest.takeWhile Text.isDigit
      match rest.dropWhile Text.isDigit with
      | [] => !whole.isEmpty
      | '.' :: places => !places.isEmpty && places.all Text.isDigit
      | _ => false
  | _ => false

/-- A word that is no option after all, or an unknown one. -/
def plainToken (text : String) : Token :=
  if isNegativeNumber text.toList || text.toList.contains ' ' then .value text else .unknown text

/-- A word with two minuses in front; an ambiguous one is refused. -/
def longToken? (text : String) : Option Token :=
  let (name, attached) := splitValue text.toList
  match Switch.ofName? (String.ofList name) with
  | some switch => some (.switch switch attached)
  | none =>
      match switchesFrom name with
      | [] => some (plainToken text)
      | [switch] => some (.switch switch attached)
      | _ => none

/-- A word with one minus in front; the only option with a one-letter name is help. -/
def shortToken (text : String) : Token :=
  match text.toList with
  | ['-', 'h'] => .switch .help none
  | '-' :: 'h' :: '=' :: attached => .helpLetters (String.ofList attached)
  | '-' :: 'h' :: attached => .helpLetters (String.ofList attached)
  | _ => plainToken text

def token? (text : String) : Option Token :=
  match text.toList with
  | '-' :: '-' :: _ => longToken? text
  | '-' :: _ :: _ => some (shortToken text)
  | _ => some (.value text)

/-- The words of a command line, unless one of them is ambiguous. -/
def tokens? : List String → Option (List Token)
  | [] => some []
  | text :: rest =>
      if text = "--" then some (.separator :: rest.map .value)
      else do
        let token ← token? text
        let tokens ← tokens? rest
        return token :: tokens

end Chip8VM.CommandLine
