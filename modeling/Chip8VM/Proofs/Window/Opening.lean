import Chip8VM.Proofs.Screen.Columns
import Chip8VM.Proofs.Machine.Halting
import Chip8VM.Terminal

/-!
A window at its opening and while it is drawn on. What is asked of a toolkit is that a
window has the size it is asked for, that columns of this size are copied to it pixel
by pixel, and that it shows what has been copied. Then a window with a scale of one or
more has a square for each pixel of the screen, and every screen can be drawn on it.
-/

namespace Chip8VM

open CommandLine (Options)
open Machine (bind_ok_iff)

/-- What a toolkit promises. -/
structure Toolkit.Lawful (toolkit : Toolkit) : Prop where
  /-- A window that opens has the size that is asked for, if this is one. -/
  size : ∀ {width height : Int} {surface : Surface}, 0 < width → 0 < height →
    toolkit.makeSurface width height = .ok surface →
    (surface.width : Int) = width ∧ (surface.height : Int) = height
  /-- Columns of the size of a surface replace all its pixels. -/
  copied : ∀ {surface : Surface} {columns : List (List Colour)},
    columns.length = surface.width → (∀ column ∈ columns, column.length = surface.height) →
    ∃ after, toolkit.copyColumns surface columns = .ok after ∧
      after.width = surface.width ∧ after.height = surface.height ∧
      ∀ x y, after.pixel? x y = columns[x]?.bind fun column => column[y]?
  /-- A surface is seen as it is. -/
  presented : ∀ surface, toolkit.present surface = .ok surface

/-- The windows of a terminal keep these promises. -/
theorem Terminal.lawful_toolkit : toolkit.Lawful where
  size {width height surface} hwidth hheight hopen := by
    have hmake : toolkit.makeSurface width height =
        .ok (.blank width.toNat height.toNat) := by
      simp only [toolkit]
      rw [if_neg (by omega), if_neg (by omega)]
    obtain rfl := Except.ok.inj (hmake.symm.trans hopen)
    exact ⟨Int.toNat_of_nonneg hwidth.le, Int.toNat_of_nonneg hheight.le⟩
  copied {surface columns} hwidth hheight := by
    obtain ⟨after, hcopy, hafter⟩ := Surface.exists_ofColumns? hwidth hheight
    refine ⟨after, ?_, hafter⟩
    simp only [toolkit, hcopy]
  presented surface := rfl

namespace Window

/-- A window at a scale in a colour scheme that has a square for each pixel of the
screen. -/
structure IsAt (window : Window) (scale : Int) (scheme : Scheme) : Prop where
  scale_eq : window.scale = scale
  scheme_eq : window.scheme = scheme
  width_eq : (window.surface.width : Int) = 64 * scale
  height_eq : (window.surface.height : Int) = 32 * scale

variable {toolkit : Toolkit} (hlawful : toolkit.Lawful) {scale : Int} (hscale : 1 ≤ scale)
  {scheme : Scheme}
include hlawful hscale

theorem isAt_of_create {title : String} {window : Window}
    (hcreate : create toolkit scale scheme title = .ok window) : window.IsAt scale scheme := by
  unfold create at hcreate
  obtain ⟨surface, hsurface, hcreate⟩ := (bind_ok_iff _ _ _).mp hcreate
  obtain ⟨-, -, hwindow⟩ := (bind_ok_iff _ _ _).mp hcreate
  obtain rfl := Except.ok.inj hwindow
  obtain ⟨hwidth, hheight⟩ := hlawful.size (by rw [screenWidth]; omega)
    (by rw [screenHeight]; omega) hsurface
  exact ⟨rfl, rfl, hwidth, hheight⟩

/-- Every screen can be drawn, and what is at a row and a column of its picture is seen
at this column and row. -/
theorem exists_draw {window : Window} (hwindow : window.IsAt scale scheme) (screen : Screen) :
    ∃ drawn, window.draw toolkit screen = .ok drawn ∧
      drawn.IsAt scale scheme ∧
      (drawn.shown.width : Int) = 64 * scale ∧ (drawn.shown.height : Int) = 32 * scale ∧
      ∀ x y, drawn.shown.pixel? x y = (Picture.ofScreen screen.lit scheme scale).pixel? y x := by
  obtain ⟨rfl, rfl, hwidth, hheight⟩ := hwindow
  have hside : (Picture.side window.scale : Int) = window.scale := by
    unfold Picture.side
    omega
  obtain ⟨hcount, hlong, hplace⟩ :=
    Picture.columns_ofScreen screen.lit window.scheme window.scale
  obtain ⟨surface, hcopy, hwidth', hheight', hpixel⟩ := hlawful.copied
    (hcount.trans (by omega : _ = window.surface.width))
    fun column hmem => (hlong column hmem).trans (by omega)
  have hdraw : window.draw toolkit screen = .ok { window with surface, shown := surface } :=
    (bind_ok_iff _ _ _).mpr
      ⟨surface, hcopy, (bind_ok_iff _ _ _).mpr ⟨surface, hlawful.presented surface, rfl⟩⟩
  refine ⟨_, hdraw, ⟨rfl, rfl, ?_, ?_⟩, ?_, ?_, fun x y => ?_⟩
  · rw [hwidth', hwidth]
  · rw [hheight', hheight]
  · rw [hwidth', hwidth]
  · rw [hheight', hheight]
  · exact (hpixel x y).trans (hplace x y)

end Window

/-- A window of a terminal that has not as many columns as the picture is not drawn on. -/
theorem Terminal.draw_of_width_ne {window : Window}
    (hwidth : window.surface.width ≠ 64 * Picture.side window.scale) (screen : Screen) :
    ∃ error, window.draw toolkit screen = .error error := by
  obtain ⟨hcount, -⟩ := Picture.columns_ofScreen screen.lit window.scheme window.scale
  have hnone : Surface.ofColumns? window.surface.width window.surface.height
      (Picture.ofScreen screen.lit window.scheme window.scale).columns = none :=
    Surface.ofColumns?_eq_none (hcount.trans_ne hwidth.symm)
  refine ⟨⟨"size", "the picture does not have the size of the window"⟩, ?_⟩
  simp only [Window.draw, toolkit, hnone]
  rfl

/-- The window of a session has the scale of the options and one of the colour schemes. -/
theorem Session.isAt_of_openWindow {toolkit : Toolkit} (hlawful : toolkit.Lawful)
    {options : Options} (hscale : 1 ≤ options.scale) {window : Window}
    (hopen : openWindow toolkit options = .ok window) :
    ∃ scheme, window.IsAt options.scale scheme := by
  unfold openWindow at hopen
  obtain ⟨-, -, hopen⟩ := (bind_ok_iff _ _ _).mp hopen
  obtain ⟨scheme, -, hopen⟩ := (bind_ok_iff _ _ _).mp hopen
  obtain ⟨-, -, hopen⟩ := (bind_ok_iff _ _ _).mp hopen
  cases hcreate : Window.create toolkit options.scale scheme Window.defaultTitle with
  | error error =>
      rw [hcreate] at hopen
      cases hopen
  | ok created =>
      rw [hcreate] at hopen
      obtain rfl : created = window := Except.ok.inj hopen
      exact ⟨scheme, Window.isAt_of_create hlawful hscale hcreate⟩

end Chip8VM
