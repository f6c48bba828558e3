import Chip8VM.Number
import Chip8VM.Readings

/-!
Log lines. A line shows how long ago the log was started, the level, the name of the logger and
the message. A logger prints the lines whose level ranks at least as high as its threshold. Levels
are given by name, in upper or lower case; any other text may stand in place of a level, and ranks
as INFO.
-/

namespace Chip8VM

inductive Level where
  | debug | info | warning | error | critical
deriving DecidableEq, Repr

/-- The upper-case form of a letter of a level's name. Two letters outside ASCII, the dotless i
and the long s, have an ASCII letter as their upper-case form. -/
def upperLetter (c : Char) : Char :=
  if c = 'ı' then 'I' else if c = 'ſ' then 'S' else c.toUpper

namespace Level

def name : Level → String
  | debug => "DEBUG"
  | info => "INFO"
  | warning => "WARNING"
  | error => "ERROR"
  | critical => "CRITICAL"

def rank : Level → Nat
  | debug => 0
  | info => 1
  | warning => 2
  | error => 3
  | critical => 4

def all : List Level := [debug, info, warning, error, critical]

def ofText? (text : String) : Option Level :=
  all.find? (·.name == text.map upperLetter)

def rankOfText (text : String) : Nat :=
  ((ofText? text).getD .info).rank

/-- The number of the terminal colour of a level. -/
def colour : Level → String
  | debug => "36"
  | info => "32"
  | warning => "33"
  | error => "31"
  | critical => "35"

end Level

/-- The terminal's command to go on in a colour, or with 0 in the usual one. -/
def colourCommand (number : String) : String := "\x1b[" ++ number ++ "m"

/-- The colour of the text that stands for a level; RESET stands for the usual colour. -/
def colourOfText (text : String) : String :=
  match Level.ofText? text with
  | some level => colourCommand level.colour
  | none => if text.map upperLetter == "RESET" then colourCommand "0" else ""

/-- Fills text with blanks on the left until it has `width` characters. -/
def alignRight (width : Nat) (text : String) : String :=
  String.ofList (List.replicate (width - text.length) ' ') ++ text

structure LineStyle where
  colours : Bool
  timestamps : Bool
deriving DecidableEq, Repr

/-- A line without its line break, `elapsed` seconds after the log was started. -/
def LineStyle.line (style : LineStyle) (elapsed : Binary64) (logger level message : String) :
    String :=
  let time := if style.timestamps then "[" ++ alignRight 8 elapsed.twoPlaces ++ "s]" else ""
  let tag := "[" ++ alignRight 8 level ++ "]"
  let tag := if style.colours then colourOfText level ++ tag ++ colourCommand "0" else tag
  time ++ tag ++ "[" ++ logger ++ "] " ++ message

structure Logger where
  name : String := "chip8"
  threshold : String := "INFO"
deriving DecidableEq, Repr

def Logger.enabled (logger : Logger) (level : String) : Bool :=
  decide (Level.rankOfText logger.threshold ≤ Level.rankOfText level)

structure LogRecord where
  logger : String
  level : Level
  message : String
deriving DecidableEq, Repr

/-- The record of a message, unless its level ranks below the threshold. -/
def Logger.record? (logger : Logger) (level : Level) (message : String) : Option LogRecord :=
  if logger.enabled level.name then some ⟨logger.name, level, message⟩ else none

def LogRecord.line (record : LogRecord) (style : LineStyle) (elapsed : Binary64) : String :=
  style.line elapsed record.logger record.level.name record.message

inductive LogError where
  /-- The time since the start is no floating-point number. -/
  | timeTooLarge
deriving DecidableEq, Repr

def LogError.message : LogError → String
  | timeTooLarge => "the time since the start is too large"

/-- A logger with its style and the clock that stamps its lines. -/
structure Console where
  logger : Logger
  style : LineStyle
  start : Number
  clock : Readings Number

namespace Console

/-- The clock is read once when the log is started. -/
def openAt (logger : Logger) (style : LineStyle) (clock : Readings Number) : Console :=
  ⟨logger, style, clock.next, clock.rest⟩

/-- The line of a message, `elapsed` seconds after the start. -/
def line (console : Console) (elapsed : Binary64) (level message : String) : String :=
  console.style.line elapsed console.logger.name level message

/-- The line that a message is printed as, if it is printed. Only a line that shows the time takes
a reading of the clock. -/
def log (console : Console) (level message : String) :
    Except LogError (Option String × Console) :=
  if !console.logger.enabled level then .ok (none, console)
  else if console.style.timestamps then
    match (console.clock.next - console.start).toFloat? with
    | some elapsed =>
        .ok (some (console.line (Binary64.ofFloat elapsed) level message),
          { console with clock := console.clock.rest })
    | none => .error .timeTooLarge
  else .ok (some (console.line .nan level message), console)

end Console

end Chip8VM
