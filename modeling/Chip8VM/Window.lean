import Chip8VM.Machine.Keypad
import Chip8VM.Surface

/-!
The window: its events, which it takes in frame by frame, and the picture it shows. The keypad lies
over the left part of a keyboard, four keys in each of four rows. Each pixel of the screen is a
square of the window, whose side is the scale.
-/

namespace Chip8VM

inductive KeyboardKey where
  /-- The key of a digit, a letter or another character, without shift. -/
  | character (c : Char)
  | escape
  /-- A key that has neither a character nor a meaning here. -/
  | other
deriving DecidableEq, Repr

inductive WindowEvent where
  | keyDown (key : KeyboardKey)
  | keyUp (key : KeyboardKey)
  | quit
  /-- Anything else that happens to a window, such as a movement of the mouse. -/
  | other
deriving DecidableEq, Repr

/-- A key of the keypad goes down or up. -/
structure Transition where
  key : Key
  down : Bool
deriving DecidableEq, Repr

/-- The keyboard characters and the keys of the keypad that they stand for. -/
def keyboardLayout : List (Char × Key) :=
  [('1', 0x1), ('2', 0x2), ('3', 0x3), ('4', 0xC),
   ('q', 0x4), ('w', 0x5), ('e', 0x6), ('r', 0xD),
   ('a', 0x7), ('s', 0x8), ('d', 0x9), ('f', 0xE),
   ('z', 0xA), ('x', 0x0), ('c', 0xB), ('v', 0xF)]

def KeyboardKey.keypadKey? : KeyboardKey → Option Key
  | character c => keyboardLayout.lookup c
  | escape | other => none

def WindowEvent.closes : WindowEvent → Bool
  | quit | keyDown .escape => true
  | keyDown _ | keyUp _ | other => false

def WindowEvent.transition? : WindowEvent → Option Transition
  | keyDown key => key.keypadKey?.map (⟨·, true⟩)
  | keyUp key => key.keypadKey?.map (⟨·, false⟩)
  | quit | other => none

/-- What a frame of events does to the keypad; events behind one that closes the window are
lost. -/
def frameTransitions (events : List WindowEvent) : List Transition :=
  (events.takeWhile (!·.closes)).filterMap WindowEvent.transition?

/-- Whether the window is still open after a frame of events. -/
def staysOpen (events : List WindowEvent) : Bool :=
  !events.any WindowEvent.closes

def Transition.apply (transition : Transition) (keypad : Keypad) : Keypad :=
  if transition.down then keypad.press transition.key else keypad.release transition.key

/-- A window, and what a session keeps of it. -/
structure Window where
  title : String
  scheme : Scheme
  scale : Int
  /-- What is drawn on. -/
  surface : Surface
  /-- What is seen: the surface as it was when it was last put on view. -/
  shown : Surface
  isOpen : Bool
deriving DecidableEq, Repr

namespace Window

def defaultTitle : String := "chip8"

def defaultScale : Int := 8

/-- Opens a window for the enlarged screen. -/
def create (toolkit : Toolkit) (scale : Int) (scheme : Scheme) (title : String) :
    Except LibraryError Window := do
  let surface ← toolkit.makeSurface (screenWidth * scale) (screenHeight * scale)
  toolkit.setTitle title
  return { title, scheme, scale, surface, shown := surface, isOpen := true }

/-- Copies the picture of the screen to the surface, column by column, and puts it on view. -/
def draw (window : Window) (toolkit : Toolkit) (screen : Screen) : Except LibraryError Window := do
  let picture := Picture.ofScreen screen.lit window.scheme window.scale
  let surface ← toolkit.copyColumns window.surface picture.columns
  let shown ← toolkit.present surface
  return { window with surface, shown }

def close (window : Window) : Window := { window with isOpen := false }

end Window

end Chip8VM
