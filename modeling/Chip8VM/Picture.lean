import Chip8VM.Machine.Screen
import Chip8VM.Text.Quoted

/-!
Pictures of the screen in colour. Each pixel of the screen becomes a square of equal pixels, whose
side is the scale; a scale below one counts as one. `Picture.pixel?` looks at a picture by row and
column.
-/

namespace Chip8VM

structure Colour where
  red : UInt8
  green : UInt8
  blue : UInt8
deriving DecidableEq, Repr

/-- The colours of lit pixels and of all others. -/
structure Scheme where
  on : Colour
  off : Colour
deriving DecidableEq, Repr

inductive PictureError where
  /-- The picture needs a pixel for each cell of the screen. -/
  | wrongPixelCount (got : Nat)
  | componentOutOfRange
  | wrongComponentCount (got : Nat)
  | unknownScheme (name : String)
deriving DecidableEq, Repr

namespace Scheme

def named : List (String × Scheme) :=
  [("classic", ⟨⟨0, 255, 0⟩, ⟨0, 0, 0⟩⟩),
   ("paper", ⟨⟨0, 0, 0⟩, ⟨255, 255, 255⟩⟩),
   ("amber", ⟨⟨255, 176, 0⟩, ⟨0, 0, 0⟩⟩),
   ("white", ⟨⟨255, 255, 255⟩, ⟨0, 0, 0⟩⟩),
   ("blue", ⟨⟨0, 255, 255⟩, ⟨0, 0, 64⟩⟩),
   ("retro", ⟨⟨255, 255, 0⟩, ⟨64, 0, 64⟩⟩)]

def classic : Scheme := ⟨⟨0, 255, 0⟩, ⟨0, 0, 0⟩⟩

def ofName (name : String) : Except PictureError Scheme :=
  match named.lookup name with
  | some scheme => .ok scheme
  | none => .error (.unknownScheme name)

end Scheme

def PictureError.message : PictureError → String
  | wrongPixelCount got => "a picture needs 2048 pixels, got " ++ toString got
  | componentOutOfRange => "a colour component is out of range"
  | wrongComponentCount got => "a colour needs 3 components, got " ++ toString got
  | unknownScheme name =>
      "Unknown color scheme '" ++ name ++ "'. Available: " ++
        Text.quotedList (Scheme.named.map Prod.fst)

namespace Colour

def component (number : Int) : Except PictureError UInt8 :=
  if 0 ≤ number ∧ number < 0x100 then .ok (UInt8.ofNat number.toNat)
  else .error .componentOutOfRange

/-- A colour has three components; a single one stands for all three. -/
def ofNumbers (numbers : List Int) : Except PictureError Colour := do
  match ← numbers.mapM component with
  | [red, green, blue] => return ⟨red, green, blue⟩
  | [grey] => return ⟨grey, grey, grey⟩
  | components => throw (.wrongComponentCount components.length)

end Colour

/-- The rows of a picture from top to bottom, each from left to right. -/
structure Picture where
  rows : List (List Colour)
deriving DecidableEq, Repr

namespace Picture

def height (picture : Picture) : Nat := picture.rows.length

def width (picture : Picture) : Nat := (picture.rows.head?.getD []).length

/-- The pixel at a row and a column, counted from the upper left corner. -/
def pixel? (picture : Picture) (row column : Nat) : Option Colour := do
  (← picture.rows[row]?)[column]?

/-- Each element of a list several times in succession. -/
def repeatEach {α : Type} (times : Nat) (xs : List α) : List α :=
  xs.flatMap (List.replicate times)

/-- The row of the screen that begins at a cell. -/
def screenRow (lit : Vector Bool 2048) (scheme : Scheme) (row : Nat) : List Colour :=
  (lit.toList.drop (row * screenWidth)).take screenWidth |>.map fun isLit =>
    if isLit then scheme.on else scheme.off

def plain (lit : Vector Bool 2048) (scheme : Scheme) : Picture :=
  ⟨(List.range screenHeight).map (screenRow lit scheme)⟩

/-- Makes a square of each pixel. -/
def enlarge (picture : Picture) (times : Nat) : Picture :=
  ⟨repeatEach times (picture.rows.map (repeatEach times))⟩

/-- The side of the square that stands for a pixel. -/
def side (scale : Int) : Nat := max scale.toNat 1

def ofScreen (lit : Vector Bool 2048) (scheme : Scheme) (scale : Int) : Picture :=
  (plain lit scheme).enlarge (side scale)

/-- The pixels given by numbers, of which those other than zero are lit. -/
def litOfNumbers (numbers : List Int) : Except PictureError (Vector Bool 2048) :=
  let lit := (numbers.map (· ≠ 0 : Int → Bool)).toArray
  if h : lit.size = 2048 then .ok ⟨lit, h⟩ else .error (.wrongPixelCount numbers.length)

/-- The picture of pixels and colours given by numbers. The pixels are checked first, then the
colour of the lit ones. -/
def ofNumbers (pixels : List Int) (scale : Int) (on off : List Int) :
    Except PictureError Picture := do
  let lit ← litOfNumbers pixels
  let on ← Colour.ofNumbers on
  let off ← Colour.ofNumbers off
  return ofScreen lit ⟨on, off⟩ scale

theorem length_repeatEach {α : Type} (times : Nat) (xs : List α) :
    (repeatEach times xs).length = times * xs.length := by
  induction xs with
  | nil => simp [repeatEach]
  | cons x rest ih =>
      rw [repeatEach, List.flatMap_cons, List.length_append, List.length_replicate, ← repeatEach,
        ih, List.length_cons, Nat.mul_add, Nat.mul_one, Nat.add_comm]

/-- Where an element stands after each has been repeated. -/
theorem getElem?_repeatEach {α : Type} {times : Nat} (pos : 0 < times) (xs : List α) (k : Nat) :
    (repeatEach times xs)[k]? = xs[k / times]? := by
  induction xs generalizing k with
  | nil => simp [repeatEach]
  | cons x rest ih =>
      rw [repeatEach, List.flatMap_cons, ← repeatEach]
      by_cases inside : k < times
      · rw [List.getElem?_append_left (by simpa using inside), Nat.div_eq_of_lt inside]
        simp [inside]
      · obtain ⟨j, rfl⟩ : ∃ j, k = j + times := ⟨k - times, by omega⟩
        rw [List.getElem?_append_right (by simp), List.length_replicate, Nat.add_sub_cancel,
          ih, Nat.add_div_right _ pos, List.getElem?_cons_succ]

end Picture

end Chip8VM
