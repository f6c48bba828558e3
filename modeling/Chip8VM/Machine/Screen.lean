/-!
The screen: 64 columns and 32 rows of cells, stored row by row. A cell is a byte, of which
drawing looks at and changes the lowest bit only. A sprite is eight columns wide, one byte a row
with the leftmost pixel in the highest bit, and wraps around at the edges.
-/

namespace Chip8VM

def screenWidth : Nat := 64

def screenHeight : Nat := 32

abbrev Screen := Vector UInt8 2048

/-- A sprite at its place: column and row are those of its upper left pixel. -/
structure Sprite where
  rows : List UInt8
  column : Nat
  row : Nat
deriving DecidableEq, Repr

/-- The bit, 0 or 1, that the sprite puts at a column and a row of the screen. -/
def Sprite.bitAt (sprite : Sprite) (column row : Nat) : UInt8 :=
  let across := (column + screenWidth - sprite.column % screenWidth) % screenWidth
  let down := (row + screenHeight - sprite.row % screenHeight) % screenHeight
  if across < 8 then
    match sprite.rows[down]? with
    | some bits => bits >>> UInt8.ofNat (7 - across) &&& 1
    | none => 0
  else 0

def Sprite.bit (sprite : Sprite) (cell : Nat) : UInt8 :=
  sprite.bitAt (cell % screenWidth) (cell / screenWidth)

namespace Screen

def blank : Screen := Vector.replicate 2048 0

/-- Inverts the lowest bit of each cell that the sprite covers with a lit pixel. -/
def draw (screen : Screen) (sprite : Sprite) : Screen :=
  Vector.ofFn fun cell => screen[cell] ^^^ sprite.bit cell

/-- Whether a lit pixel of the sprite meets a cell whose lowest bit is set. -/
def collides (screen : Screen) (sprite : Sprite) : Bool :=
  (List.finRange 2048).any fun cell => screen[cell] &&& sprite.bit cell == 1

/-- A pixel is lit when its cell holds anything but zero. -/
def lit (screen : Screen) : Vector Bool 2048 :=
  screen.map (· ≠ 0)

@[simp] theorem getElem_draw (screen : Screen) (sprite : Sprite) {cell : Nat}
    (h : cell < 2048) : (screen.draw sprite)[cell] = screen[cell] ^^^ sprite.bit cell := by
  simp [draw]

/-- Drawing a sprite twice at the same place restores the screen. -/
theorem draw_draw (screen : Screen) (sprite : Sprite) :
    (screen.draw sprite).draw sprite = screen := by
  ext cell h
  rw [getElem_draw _ _ h, getElem_draw _ _ h, UInt8.xor_assoc, UInt8.xor_self, UInt8.xor_zero]

end Screen

end Chip8VM
