import Chip8VM.Proofs.Window.Opening

/-!
What is seen in a window. The picture of the screen fills the window, and the pixel at
a column and a row of the window has the colour of the cell to whose square it belongs.
-/

namespace Chip8VM

namespace Picture

theorem side_eq (scale : Int) : side scale = (max scale 1).toNat := by
  unfold side
  omega

theorem pixel?_screen (screen : Screen) (scheme : Scheme) (scale : Int) {row column : Nat}
    (hrow : row < screenHeight * side scale) (hcolumn : column < screenWidth * side scale) :
    ∃ byte, screen.toList[row / side scale * 64 + column / side scale]? = some byte ∧
      (ofScreen screen.lit scheme scale).pixel? row column =
        some (if byte ≠ 0 then scheme.on else scheme.off) := by
  obtain ⟨isLit, hlit, hpixel⟩ := exists_lit screen.lit scheme hrow hcolumn
  rw [Screen.lit, Vector.toList_map, List.getElem?_map] at hlit
  obtain ⟨byte, hbyte, rfl⟩ := Option.map_eq_some_iff.mp hlit
  refine ⟨byte, hbyte, ?_⟩
  simpa only [Scheme.colour, decide_eq_true_eq] using hpixel

/-- A screen is drawn on a window as the picture of its bytes: at `x` and `y` stands the
pixel of row `y` and column `x`, in the colour of the cell that it belongs to. -/
theorem exists_draw_pixel? {toolkit : Toolkit} (hlawful : toolkit.Lawful) {scale : Int}
    (hscale : 1 ≤ scale) {scheme : Scheme} {window : Window} (hwindow : window.IsAt scale scheme)
    (screen : Screen) :
    ∃ drawn picture, window.draw toolkit screen = .ok drawn ∧
      ofNumbers (screen.toList.map fun byte => (byte.toNat : Int)) scale scheme.on.numbers
        scheme.off.numbers = .ok picture ∧
      drawn.IsAt scale scheme ∧
      (drawn.shown.width : Int) = 64 * scale ∧ (drawn.shown.height : Int) = 32 * scale ∧
      ∀ x y : Nat, (x : Int) < 64 * scale → (y : Int) < 32 * scale →
        drawn.shown.pixel? x y = picture.pixel? y x ∧
        ∃ byte, screen.toList[y / scale.toNat * 64 + x / scale.toNat]? = some byte ∧
          drawn.shown.pixel? x y = some (if byte ≠ 0 then scheme.on else scheme.off) := by
  obtain ⟨drawn, hdraw, hdrawn, hwidth, hheight, hpixel⟩ :=
    Window.exists_draw hlawful hscale hwindow screen
  have hside : side scale = scale.toNat := by
    rw [side_eq, max_eq_left hscale]
  refine ⟨drawn, _, hdraw, ofNumbers_screen screen scale (Colour.ofNumbers_numbers _)
    (Colour.ofNumbers_numbers _), hdrawn, hwidth, hheight, fun x y hx hy => ⟨hpixel x y, ?_⟩⟩
  rw [hpixel, ← hside]
  exact pixel?_screen screen scheme scale (by rw [screenHeight]; omega) (by rw [screenWidth]; omega)

/-- A picture of 2048 numbers shows each of them as a square whose side is the scale, at
least one, in the one colour or the other. So in two different colours the pictures of
two lists of numbers are the same just when the numbers other than zero stand at the
same places, and one pixel of each square makes up the picture that is not enlarged. A
window that opens at a scale of one or more, and stays one through all that is drawn on
it, shows the picture of every screen with rows and columns exchanged: at `x` and `y`
stands the pixel of row `y` and column `x`. -/
theorem squares_show_cells :
    (∀ (pixels : List Int) (scale : Int) (on off : List Int), pixels.length = 2048 →
      Colour.AreComponents on → Colour.AreComponents off →
      ∃ picture, ofNumbers pixels scale on off = .ok picture ∧
        picture.Shows pixels (max scale 1).toNat on off ∧
        (on ≠ off → ∀ others : List Int, others.length = 2048 →
          (ofNumbers others scale on off = .ok picture ↔ litPlaces others = litPlaces pixels)) ∧
        ofNumbers pixels 1 on off = .ok (picture.sample (max scale 1).toNat)) ∧
    ∀ toolkit : Toolkit, toolkit.Lawful → ∀ (scale : Int) (scheme : Scheme), 1 ≤ scale →
      (∀ title window, Window.create toolkit scale scheme title = .ok window →
        window.IsAt scale scheme) ∧
      ∀ window : Window, window.IsAt scale scheme → ∀ screen : Screen,
        ∃ drawn picture, window.draw toolkit screen = .ok drawn ∧
          ofNumbers (screen.toList.map fun byte => (byte.toNat : Int)) scale scheme.on.numbers
            scheme.off.numbers = .ok picture ∧
          drawn.IsAt scale scheme ∧
          (drawn.shown.width : Int) = 64 * scale ∧ (drawn.shown.height : Int) = 32 * scale ∧
          ∀ x y : Nat, (x : Int) < 64 * scale → (y : Int) < 32 * scale →
            drawn.shown.pixel? x y = picture.pixel? y x ∧
            ∃ byte, screen.toList[y / scale.toNat * 64 + x / scale.toNat]? = some byte ∧
              drawn.shown.pixel? x y = some (if byte ≠ 0 then scheme.on else scheme.off) := by
  refine ⟨fun pixels scale on off hpixels hon hoff => ?_,
    fun toolkit hlawful scale scheme hscale =>
      ⟨fun title window => Window.isAt_of_create hlawful hscale,
        fun window => exists_draw_pixel? hlawful hscale⟩⟩
  obtain ⟨lit, hread, hlit⟩ := litOfNumbers_of_length hpixels
  obtain ⟨onColour, rfl⟩ := Colour.exists_numbers_eq hon
  obtain ⟨offColour, rfl⟩ := Colour.exists_numbers_eq hoff
  let scheme : Scheme := ⟨onColour, offColour⟩
  rw [← side_eq]
  refine ⟨_, ofNumbers_numbers hread scheme scale, shows_ofScreen hlit scheme scale, ?_, ?_⟩
  · intro hcolours others hothers
    obtain ⟨lit', hread', hlit'⟩ := litOfNumbers_of_length hothers
    have hscheme : scheme.on ≠ scheme.off := fun hsame =>
      hcolours (congrArg Colour.numbers hsame)
    rw [ofNumbers_numbers hread' scheme, Except.ok.injEq, ofScreen_inj hscheme,
      ← marks_eq_iff (hothers.trans hpixels.symm), ← hlit, ← hlit', Vector.toList_inj]
  · rw [ofNumbers_numbers hread scheme, ofScreen_one, ofScreen,
      sample_enlarge _ (side_pos scale)]

/-- A list of numbers, all zero but for one in the second row and the third column. -/
def oneOff (number : Int) : List Int := (List.replicate 2048 0).set 66 number

theorem length_oneOff (number : Int) : (oneOff number).length = 2048 := by
  rw [oneOff, List.length_set, List.length_replicate]

theorem getElem?_oneOff (number : Int) {k : Nat} (hk : k < 2048) :
    (oneOff number)[k]? = some (if 66 = k then number else 0) := by
  rw [oneOff, List.getElem?_set, List.length_replicate, List.getElem?_replicate, if_pos hk]
  split
  next => rw [if_pos (by omega)]
  next => rfl

/-- A screen that is dark but for a byte in the second row and the third column. -/
def oneByte (byte : UInt8) : Screen := Vector.ofFn fun cell => if 66 = cell.val then byte else 0

theorem getElem?_oneByte (byte : UInt8) {k : Nat} (hk : k < 2048) :
    (oneByte byte).toList[k]? = some (if 66 = k then byte else 0) := by
  rw [Vector.getElem?_toList, oneByte, Vector.getElem?_ofFn, dif_pos hk]

/-- In squares of three by three pixels the number is not seen where row and column are
exchanged, and one that differs from it makes the same picture. In a window a byte at
this place is seen at the column and the row, and not at the row and the column. -/
theorem second_row_third_column :
    let amber : Scheme := ⟨⟨255, 176, 0⟩, ⟨0, 0, 0⟩⟩
    (oneOff (-7)).length = 2048 ∧ (oneOff 1).length = 2048 ∧
    (∃ picture, ofNumbers (oneOff (-7)) 3 [255, 176, 0] [0, 0, 0] = .ok picture ∧
      (picture.pixel? 5 8).map Colour.numbers = some [255, 176, 0] ∧
      (picture.pixel? 8 5).map Colour.numbers = some [0, 0, 0] ∧
      ofNumbers (oneOff 1) 3 [255, 176, 0] [0, 0, 0] = .ok picture) ∧
    Terminal.toolkit.Lawful ∧
    ∃ window drawn, Window.create Terminal.toolkit 3 amber "chip8" = .ok window ∧
      window.draw Terminal.toolkit (oneByte 0x80) = .ok drawn ∧
      drawn.shown.pixel? 8 5 = some amber.on ∧ drawn.shown.pixel? 5 8 = some amber.off := by
  intro amber
  have hlength := length_oneOff (-7)
  have hothers := length_oneOff 1
  obtain ⟨hpictures, hwindows⟩ := squares_show_cells
  refine ⟨hlength, hothers, ?_, Terminal.lawful_toolkit, ?_⟩
  · obtain ⟨picture, hmade, hshows, hsame, -⟩ := hpictures _ 3 [255, 176, 0] [0, 0, 0] hlength
      (by simp [Colour.AreComponents]) (by simp [Colour.AreComponents])
    have hplaces : litPlaces (oneOff 1) = litPlaces (oneOff (-7)) := by
      rw [← marks_eq_iff (hothers.trans hlength.symm)]
      simp only [marks, oneOff, List.map_set]
      rfl
    obtain ⟨number, hnumber, hpixel⟩ := hshows.pixel 5 (by decide) 8 (by decide)
    obtain ⟨number', hnumber', hpixel'⟩ := hshows.pixel 8 (by decide) 5 (by decide)
    have hlit : number = -7 := Option.some.inj (hnumber.symm.trans (getElem?_oneOff _ (by decide)))
    have hdark : number' = 0 :=
      Option.some.inj (hnumber'.symm.trans (getElem?_oneOff _ (by decide)))
    rw [hlit] at hpixel
    rw [hdark] at hpixel'
    exact ⟨picture, hmade, hpixel, hpixel', (hsame (by simp) _ hothers).mpr hplaces⟩
  · obtain ⟨hopened, hdraws⟩ := hwindows Terminal.toolkit Terminal.lawful_toolkit 3 amber (by omega)
    obtain ⟨window, hcreate⟩ :
        ∃ window, Window.create Terminal.toolkit 3 amber "chip8" = .ok window := ⟨_, rfl⟩
    obtain ⟨drawn, picture, hdraw, -, -, -, -, hpixel⟩ :=
      hdraws window (hopened "chip8" window hcreate) (oneByte 0x80)
    obtain ⟨-, byte, hbyte, hon⟩ := hpixel 8 5 (by omega) (by omega)
    obtain ⟨-, byte', hbyte', hoff⟩ := hpixel 5 8 (by omega) (by omega)
    have hlit : byte = 0x80 := Option.some.inj (hbyte.symm.trans (getElem?_oneByte _ (by decide)))
    have hdark : byte' = 0 := Option.some.inj (hbyte'.symm.trans (getElem?_oneByte _ (by decide)))
    rw [hlit] at hon
    rw [hdark] at hoff
    exact ⟨window, drawn, hcreate, hdraw, hon, hoff⟩

end Picture

end Chip8VM
