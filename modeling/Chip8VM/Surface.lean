import Chip8VM.Library
import Chip8VM.Picture

/-!
Surfaces, which a window is drawn on. A surface has its pixels by `x` and `y`, while a picture has
them by row and column: to be drawn, a picture is turned into its columns. The library that makes
the surface of a window and copies columns to it is a `Toolkit`.
-/

namespace Chip8VM

/-- Pixels by column and row, counted from the upper left corner. -/
structure Surface where
  width : Nat
  height : Nat
  pixels : Vector (Vector Colour height) width
deriving DecidableEq, Repr

namespace Surface

def blank (width height : Nat) : Surface :=
  ⟨width, height, Vector.replicate width (Vector.replicate height ⟨0, 0, 0⟩)⟩

def pixel? (surface : Surface) (x y : Nat) : Option Colour := do
  (← surface.pixels[x]?)[y]?

/-- The surface of a width and a height that has some columns, if they are as many and as long. -/
def ofColumns? (width height : Nat) (columns : List (List Colour)) : Option Surface :=
  let table := (columns.map List.toArray).toArray
  if columns.length = width ∧ ∀ column ∈ columns, column.length = height then
    some ⟨width, height, .ofFn fun x => .ofFn fun y =>
      ((table[x.val]?.getD #[])[y.val]?).getD ⟨0, 0, 0⟩⟩
  else none

end Surface

namespace Picture

/-- The columns of rows that are so wide. -/
def exchanged {α : Type} (width : Nat) (rows : List (List α)) : List (List α) :=
  rows.foldr (List.zipWith List.cons) (List.replicate width [])

/-- The columns of a picture from left to right, each from top to bottom. -/
def columns (picture : Picture) : List (List Colour) := exchanged picture.width picture.rows

end Picture

/-- A library that opens windows. -/
structure Toolkit where
  /-- Opens a window of a width and a height, and gives its surface. -/
  makeSurface (width height : Int) : Except LibraryError Surface
  /-- Gives the window a title. -/
  setTitle (title : String) : Except LibraryError Unit
  /-- Replaces all pixels of a surface by those of some columns. -/
  copyColumns (surface : Surface) (columns : List (List Colour)) : Except LibraryError Surface
  /-- What the window shows when its surface is put on view. -/
  present (surface : Surface) : Except LibraryError Surface

end Chip8VM
