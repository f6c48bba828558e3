import Chip8VM.Session

/-!
The window on a text terminal. A character cell shows two pixels, one above the other, as the
upper half of a block in one colour on a ground of another. A typed character is a key that goes
down in one frame and up in the next.
-/

namespace Chip8VM.Terminal

def colourNumbers (colour : Colour) : String :=
  ";".intercalate ([colour.red, colour.green, colour.blue].map (Text.decimal ·.toNat))

def cell (upper lower : Colour) : String :=
  "\x1b[38;2;" ++ colourNumbers upper ++ "m\x1b[48;2;" ++ colourNumbers lower ++ "m▀"

/-- Lines of cells, two rows of pixels each. -/
def cellLines : List (List Colour) → List String
  | upper :: lower :: rest => String.join (List.zipWith cell upper lower) :: cellLines rest
  | [upper] => [String.join (upper.map fun colour => cell colour colour)]
  | [] => []

/-- The picture from the upper left corner of the terminal on, and the usual colours after it. -/
def pictureText (picture : Picture) : String :=
  "\x1b[H" ++ String.join ((cellLines picture.rows).map (· ++ "\x1b[0m\n"))

/-- What leaves the terminal empty. -/
def cleared : String := "\x1b[2J"

def keyOf (c : Char) : KeyboardKey :=
  if c = '\x1b' then .escape else .character c

def pressed (typed : List Char) : List WindowEvent :=
  typed.map fun c => .keyDown (keyOf c)

def lifted (typed : List Char) : List WindowEvent :=
  typed.map fun c => .keyUp (keyOf c)

/-- The windows of a terminal. One that is asked for without a size fills all of its 80 columns and
24 lines. -/
def toolkit : Toolkit where
  makeSurface width height :=
    if width < 0 ∨ height < 0 then .error ⟨"size", "a window cannot have a negative size"⟩
    else if width = 0 ∧ height = 0 then .ok (.blank 80 48)
    else .ok (.blank width.toNat height.toNat)
  setTitle _ := .ok ()
  copyColumns surface columns :=
    match Surface.ofColumns? surface.width surface.height columns with
    | some copied => .ok copied
    | none => .error ⟨"size", "the picture does not have the size of the window"⟩
  present surface := .ok surface

/-- A terminal that the log is written to has no room for a progress bar. -/
def bars : ProgressBars := .hidden

def libraries : Libraries := ⟨bars, toolkit⟩

end Chip8VM.Terminal
