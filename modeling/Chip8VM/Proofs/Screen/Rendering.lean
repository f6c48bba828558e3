import Chip8VM.Machine.Screen
import Chip8VM.Picture

/-!
Pictures of the screen, pixel by pixel. The square that stands for a cell has the
colour of the cell everywhere, and the cell that a pixel belongs to is found by
dividing its row and its column by the side of the squares.
-/

namespace Chip8VM

def Scheme.colour (scheme : Scheme) (isLit : Bool) : Colour :=
  if isLit then scheme.on else scheme.off

namespace Picture

theorem side_pos (scale : Int) : 0 < side scale := by
  unfold side
  omega

/-- The cell of the screen that a pixel of its picture belongs to. -/
def cellAt (scale : Int) (row column : Nat) : Nat :=
  row / side scale * screenWidth + column / side scale

theorem cellAt_lt {scale : Int} {row column : Nat} (hrow : row < screenHeight * side scale)
    (hcolumn : column < screenWidth * side scale) : cellAt scale row column < 2048 := by
  have hdown := (Nat.div_lt_iff_lt_mul (side_pos scale)).mpr hrow
  have hacross := (Nat.div_lt_iff_lt_mul (side_pos scale)).mpr hcolumn
  simp only [cellAt, screenHeight, screenWidth] at hdown hacross ⊢
  omega

theorem pixel?_enlarge (picture : Picture) {times : Nat} (hpos : 0 < times) (row column : Nat) :
    (picture.enlarge times).pixel? row column = picture.pixel? (row / times) (column / times) := by
  simp only [pixel?, enlarge, getElem?_repeatEach hpos, List.getElem?_map]
  cases picture.rows[row / times]? with
  | none => rfl
  | some pixels => exact getElem?_repeatEach hpos pixels column

theorem pixel?_plain (lit : Vector Bool 2048) (scheme : Scheme) {row column : Nat}
    (hrow : row < screenHeight) (hcolumn : column < screenWidth) :
    (plain lit scheme).pixel? row column =
      lit[row * screenWidth + column]?.map scheme.colour := by
  have hpixel : (screenRow lit scheme row)[column]? =
      lit.toList[row * screenWidth + column]?.map scheme.colour := by
    rw [screenRow, List.getElem?_map, List.getElem?_take_of_lt hcolumn, List.getElem?_drop]
    rfl
  simp only [pixel?, plain, List.getElem?_map, List.getElem?_range hrow]
  simpa using hpixel

theorem pixel?_ofScreen (lit : Vector Bool 2048) (scheme : Scheme) (scale : Int)
    {row column : Nat} (hrow : row < screenHeight * side scale)
    (hcolumn : column < screenWidth * side scale) :
    (ofScreen lit scheme scale).pixel? row column =
      lit[cellAt scale row column]?.map scheme.colour := by
  rw [ofScreen, pixel?_enlarge _ (side_pos scale)]
  apply pixel?_plain
  · exact (Nat.div_lt_iff_lt_mul (side_pos scale)).mpr hrow
  · exact (Nat.div_lt_iff_lt_mul (side_pos scale)).mpr hcolumn

theorem lt_of_pixel?_plain {lit : Vector Bool 2048} {scheme : Scheme} {row column : Nat}
    {colour : Colour} (hpixel : (plain lit scheme).pixel? row column = some colour) :
    row < screenHeight ∧ column < screenWidth := by
  obtain ⟨pixels, hrow, hcolumn⟩ := Option.bind_eq_some_iff.mp hpixel
  obtain ⟨hlt, rfl⟩ := List.getElem?_eq_some_iff.mp hrow
  obtain ⟨hlt', _⟩ := List.getElem?_eq_some_iff.mp hcolumn
  simp only [plain, List.length_map, List.length_range, List.getElem_map, screenRow,
    List.length_take] at hlt hlt'
  omega

/-- A picture of the screen has no pixels beside the squares of the cells. -/
theorem lt_of_pixel?_ofScreen {lit : Vector Bool 2048} {scheme : Scheme} {scale : Int}
    {row column : Nat} {colour : Colour}
    (hpixel : (ofScreen lit scheme scale).pixel? row column = some colour) :
    row < screenHeight * side scale ∧ column < screenWidth * side scale := by
  rw [ofScreen, pixel?_enlarge _ (side_pos scale)] at hpixel
  obtain ⟨hrow, hcolumn⟩ := lt_of_pixel?_plain hpixel
  exact ⟨(Nat.div_lt_iff_lt_mul (side_pos scale)).mp hrow,
    (Nat.div_lt_iff_lt_mul (side_pos scale)).mp hcolumn⟩

theorem litOfNumbers_screen (screen : Screen) :
    litOfNumbers (screen.toList.map fun byte => (byte.toNat : Int)) = .ok screen.lit := by
  have hzero (byte : UInt8) : byte.toNat = 0 ↔ byte = 0 := by
    rw [← UInt8.toNat_inj, UInt8.toNat_zero]
  have hlit : ((screen.toList.map fun byte => (byte.toNat : Int)).map
      (· ≠ 0 : Int → Bool)) = screen.lit.toList := by
    simp [Screen.lit, Vector.toList_map, hzero]
  have hsize : screen.lit.toList.toArray.size = 2048 := by simp
  simp only [litOfNumbers, hlit]
  rw [dif_pos hsize]
  rfl

/-- The bytes of a screen, taken as numbers, make the picture of the screen. -/
theorem ofNumbers_screen (screen : Screen) (scale : Int) {onNumbers offNumbers : List Int}
    {on off : Colour} (hon : Colour.ofNumbers onNumbers = .ok on)
    (hoff : Colour.ofNumbers offNumbers = .ok off) :
    ofNumbers (screen.toList.map fun byte => (byte.toNat : Int)) scale onNumbers offNumbers =
      .ok (ofScreen screen.lit ⟨on, off⟩ scale) := by
  rw [ofNumbers, litOfNumbers_screen, hon, hoff]
  rfl

end Picture

end Chip8VM
