import Chip8VM.Proofs.Screen.Sprite
import Mathlib.Data.List.Nodup
import Mathlib.Data.List.ProdSigma

/-!
Drawing pixel by pixel. The pixels of a sprite come row by row, and each row from
left to right; every pixel is put on the screen that the ones before it have left.
A sprite no higher than the screen has no two pixels on one cell, even where it
wraps around, and so its pixels put one after the other make the same screen, and
raise the same flag, as the sprite drawn at once. One row more would bring the last
row back to the cells of the first.
-/

namespace Chip8VM

theorem Screen.wrapped_lt (column row : Nat) :
    row % screenHeight * screenWidth + column % screenWidth < 2048 := by
  simp only [screenHeight, screenWidth]
  omega

/-- The cell at a column and a row, which both wrap around. -/
def Screen.cellAt (column row : Nat) : Fin 2048 where
  val := row % screenHeight * screenWidth + column % screenWidth
  isLt := wrapped_lt column row

/-- A pixel of a sprite, at its place on the screen. -/
structure Pixel where
  cell : Fin 2048
  isLit : Bool
deriving DecidableEq, Repr

namespace Pixel

def bit (p : Pixel) : UInt8 := if p.isLit then 1 else 0

theorem bit_eq_one_iff (p : Pixel) : p.bit = 1 ↔ p.isLit = true := by
  cases hlit : p.isLit
  all_goals simp [bit, hlit]

theorem eq_lit_iff (p : Pixel) (cell : Fin 2048) :
    p = ⟨cell, true⟩ ↔ p.cell = cell ∧ p.isLit = true := by
  cases p
  simp

/-- Whether the pixel is lit and falls on a cell whose lowest bit is set. -/
def meets (p : Pixel) (screen : Screen) : Bool :=
  p.isLit && screen.get p.cell &&& 1 == 1

end Pixel

namespace Sprite

/-- The pixel some rows down and some columns across from the upper left one. The leftmost pixel
of a row is the highest bit of its byte. -/
def pixel (sprite : Sprite) (down across : Nat) : Pixel where
  cell := Screen.cellAt (sprite.column + across) (sprite.row + down)
  isLit := (sprite.rows.getD down 0).toNat.testBit (7 - across)

def pixels (sprite : Sprite) : List Pixel :=
  (List.range sprite.rows.length ×ˢ List.range 8).map fun place => sprite.pixel place.1 place.2

/-- The number of columns that a cell lies to the right of the sprite's first one, counted around
the edge. -/
def across (sprite : Sprite) (cell : Fin 2048) : Nat :=
  (cell % screenWidth + screenWidth - sprite.column % screenWidth) % screenWidth

/-- The number of rows that a cell lies below the sprite's first one, counted around the edge. -/
def down (sprite : Sprite) (cell : Fin 2048) : Nat :=
  (cell / screenWidth + screenHeight - sprite.row % screenHeight) % screenHeight

theorem cell_pixel_eq_iff (sprite : Sprite) {down across : Nat} (hdown : down < screenHeight)
    (hacross : across < screenWidth) (cell : Fin 2048) :
    (sprite.pixel down across).cell = cell ↔
      sprite.down cell = down ∧ sprite.across cell = across := by
  have hcell := cell.isLt
  simp only [Fin.ext_iff, pixel, Screen.cellAt, Sprite.down, Sprite.across, screenHeight,
    screenWidth] at hdown hacross ⊢
  omega

theorem cell_pixel_inj (sprite : Sprite) {down across down' across' : Nat}
    (hdown : down < screenHeight) (hacross : across < screenWidth) (hdown' : down' < screenHeight)
    (hacross' : across' < screenWidth)
    (hcell : (sprite.pixel down across).cell = (sprite.pixel down' across').cell) :
    down = down' ∧ across = across' := by
  obtain ⟨hup, hleft⟩ := (sprite.cell_pixel_eq_iff hdown hacross _).mp hcell
  obtain ⟨hup', hleft'⟩ := (sprite.cell_pixel_eq_iff hdown' hacross' _).mp rfl
  exact ⟨hup.symm.trans hup', hleft.symm.trans hleft'⟩

theorem mem_pixels_iff (sprite : Sprite) (p : Pixel) :
    p ∈ sprite.pixels ↔
      ∃ down < sprite.rows.length, ∃ across < 8, sprite.pixel down across = p := by
  simp only [pixels, List.mem_map, Prod.exists, List.mem_product, List.mem_range]
  constructor
  · rintro ⟨down, across, ⟨hdown, hacross⟩, hp⟩
    exact ⟨down, hdown, across, hacross, hp⟩
  · rintro ⟨down, hdown, across, hacross, hp⟩
    exact ⟨down, across, ⟨hdown, hacross⟩, hp⟩

theorem length_pixels (sprite : Sprite) : sprite.pixels.length = 8 * sprite.rows.length := by
  rw [pixels, List.length_map, List.length_product, List.length_range, List.length_range,
    Nat.mul_comm]

/-- No two pixels of a sprite that fits on the screen share a cell. -/
theorem nodup_cells {sprite : Sprite} (hheight : sprite.rows.length ≤ screenHeight) :
    (sprite.pixels.map Pixel.cell).Nodup := by
  have hwidth : 8 ≤ screenWidth := by decide
  rw [pixels, List.map_map]
  apply List.Nodup.map_on
  · rintro ⟨down, across⟩ hplace ⟨down', across'⟩ hplace' hcell
    simp only [List.mem_product, List.mem_range] at hplace hplace'
    obtain ⟨rfl, rfl⟩ : down = down' ∧ across = across' :=
      sprite.cell_pixel_inj (by omega) (by omega) (by omega) (by omega) hcell
    rfl
  · exact List.nodup_range.product List.nodup_range

theorem bit_eq_bit_pixel (sprite : Sprite) (cell : Fin 2048) :
    sprite.bit cell =
      if sprite.across cell < 8 then (sprite.pixel (sprite.down cell) (sprite.across cell)).bit
      else 0 := by
  simp only [bit, bitAt, across, down, pixel, Pixel.bit, List.getD_eq_getElem?_getD]
  split
  next hacross =>
    split
    next bits hbits =>
      rw [shifted_bit bits (by omega), hbits]
      rfl
    next hnone =>
      rw [hnone]
      simp
  next => rfl

/-- A sprite has the bit 1 at the cells of its lit pixels, and at no others. -/
theorem bit_eq_one_iff {sprite : Sprite} (hheight : sprite.rows.length ≤ screenHeight)
    (cell : Fin 2048) : sprite.bit cell = 1 ↔ ⟨cell, true⟩ ∈ sprite.pixels := by
  have hwidth : 8 ≤ screenWidth := by decide
  rw [bit_eq_bit_pixel, mem_pixels_iff]
  constructor
  · intro hbit
    split at hbit
    next hacross =>
      have hlit := (Pixel.bit_eq_one_iff _).mp hbit
      have hdown : sprite.down cell < sprite.rows.length := by
        by_contra hbelow
        rw [pixel, List.getD_eq_default _ _ (by omega)] at hlit
        simp at hlit
      have hcell := (sprite.cell_pixel_eq_iff (by omega) (by omega) cell).mpr ⟨rfl, rfl⟩
      exact ⟨_, hdown, _, hacross, (Pixel.eq_lit_iff _ cell).mpr ⟨hcell, hlit⟩⟩
    next => cases hbit
  · rintro ⟨down, hdown, across, hacross, hp⟩
    obtain ⟨hcell, -⟩ := (Pixel.eq_lit_iff _ cell).mp hp
    obtain ⟨rfl, rfl⟩ := (sprite.cell_pixel_eq_iff (by omega) (by omega) cell).mp hcell
    rw [if_pos hacross, hp]
    rfl

theorem bit_eq {sprite : Sprite} (hheight : sprite.rows.length ≤ screenHeight)
    (cell : Fin 2048) : sprite.bit cell = if ⟨cell, true⟩ ∈ sprite.pixels then 1 else 0 := by
  split
  next hmem => exact (bit_eq_one_iff hheight cell).mpr hmem
  next hmem =>
    exact (sprite.bit_cases cell).resolve_right fun hbit =>
      hmem ((bit_eq_one_iff hheight cell).mp hbit)

end Sprite

/-- The screen and the flag while pixels are put on the screen. -/
structure Drawing where
  screen : Screen
  flag : UInt8

namespace Drawing

/-- Inverts the lowest bit of a cell if the pixel on it is lit, and raises the flag if that bit
was set. -/
def put (d : Drawing) (p : Pixel) : Drawing where
  screen := d.screen.set p.cell (d.screen.get p.cell ^^^ p.bit) p.cell.isLt
  flag := if p.meets d.screen then 1 else d.flag

theorem get_put_self (d : Drawing) (p : Pixel) :
    (d.put p).screen.get p.cell = d.screen.get p.cell ^^^ p.bit :=
  Vector.getElem_set_self p.cell.isLt

theorem get_put_of_ne (d : Drawing) {p : Pixel} {cell : Fin 2048} (hother : p.cell ≠ cell) :
    (d.put p).screen.get cell = d.screen.get cell :=
  Vector.getElem_set_ne p.cell.isLt cell.isLt (Fin.val_ne_of_ne hother)

theorem get_foldl_put {pixels : List Pixel} (hnodup : (pixels.map Pixel.cell).Nodup)
    (d : Drawing) (cell : Fin 2048) :
    (pixels.foldl put d).screen.get cell =
      d.screen.get cell ^^^ if ⟨cell, true⟩ ∈ pixels then 1 else 0 := by
  induction pixels generalizing d with
  | nil => simp
  | cons p rest ih =>
      obtain ⟨hnew, hrest⟩ := List.nodup_cons.mp hnodup
      rw [List.foldl_cons, ih hrest]
      by_cases hcell : p.cell = cell
      · -- No later pixel falls on this cell.
        subst hcell
        have hlater : ⟨p.cell, true⟩ ∉ rest := fun hmem =>
          hnew (List.mem_map.mpr ⟨_, hmem, rfl⟩)
        have hlit : ⟨p.cell, true⟩ ∈ p :: rest ↔ p.isLit = true := by
          rw [List.mem_cons, or_iff_left hlater, eq_comm, p.eq_lit_iff]
          exact and_iff_right rfl
        rw [get_put_self, if_neg hlater, UInt8.xor_zero]
        simp only [hlit, Pixel.bit]
      · have hother : (⟨cell, true⟩ : Pixel) ≠ p := fun hp => hcell (hp ▸ rfl)
        simp only [get_put_of_ne _ hcell, List.mem_cons, hother, false_or]

/-- A pixel changes nothing for the pixels on other cells. -/
theorem meets_put_of_mem {p : Pixel} {others : List Pixel} (hnew : p.cell ∉ others.map Pixel.cell)
    (d : Drawing) : ∀ q ∈ others, q.meets (d.put p).screen = q.meets d.screen := by
  intro q hq
  have hother : p.cell ≠ q.cell := fun hcell => hnew (hcell ▸ List.mem_map_of_mem hq)
  rw [Pixel.meets, get_put_of_ne _ hother]
  rfl

theorem flag_foldl_put {pixels : List Pixel} (hnodup : (pixels.map Pixel.cell).Nodup)
    (d : Drawing) :
    (pixels.foldl put d).flag = if pixels.any (·.meets d.screen) then 1 else d.flag := by
  induction pixels generalizing d with
  | nil => rfl
  | cons p rest ih =>
      obtain ⟨hnew, hrest⟩ := List.nodup_cons.mp hnodup
      have hlater : rest.any (·.meets (d.put p).screen) = rest.any (·.meets d.screen) := by
        rw [Bool.eq_iff_iff, List.any_eq_true, List.any_eq_true]
        apply exists_congr
        intro q
        apply and_congr_right
        intro hq
        rw [meets_put_of_mem hnew d q hq]
      rw [List.foldl_cons, ih hrest, hlater, List.any_cons]
      by_cases hp : p.meets d.screen
      · simp [put, hp]
      · simp [put, hp]

end Drawing

namespace Screen

theorem collides_eq_any_meets (screen : Screen) {sprite : Sprite}
    (hheight : sprite.rows.length ≤ screenHeight) :
    screen.collides sprite = sprite.pixels.any (·.meets screen) := by
  rw [Bool.eq_iff_iff, collides_iff, List.any_eq_true]
  simp only [Sprite.bit_eq_one_iff hheight, Pixel.meets, Bool.and_eq_true, beq_iff_eq]
  constructor
  · rintro ⟨cell, hmem, hset⟩
    exact ⟨_, hmem, rfl, hset⟩
  · rintro ⟨p, hmem, hlit, hset⟩
    have hp := (p.eq_lit_iff p.cell).mpr ⟨rfl, hlit⟩
    exact ⟨p.cell, hp ▸ hmem, hset⟩

/-- Drawn pixel by pixel, a sprite that fits on the screen does what it does drawn at once. -/
theorem foldl_put_pixels (screen : Screen) {sprite : Sprite}
    (hheight : sprite.rows.length ≤ screenHeight) :
    sprite.pixels.foldl Drawing.put ⟨screen, 0⟩ =
      ⟨screen.draw sprite, if screen.collides sprite then 1 else 0⟩ := by
  have hnodup := Sprite.nodup_cells hheight
  have hscreen : (sprite.pixels.foldl Drawing.put ⟨screen, 0⟩).screen = screen.draw sprite := by
    apply Vector.ext
    intro cell hcell
    have hpixels := Drawing.get_foldl_put hnodup ⟨screen, 0⟩ ⟨cell, hcell⟩
    rw [← Sprite.bit_eq hheight, ← get_draw] at hpixels
    exact hpixels
  have hflag := Drawing.flag_foldl_put hnodup ⟨screen, 0⟩
  rw [← screen.collides_eq_any_meets hheight] at hflag
  exact congrArg₂ Drawing.mk hscreen hflag

end Screen

end Chip8VM
