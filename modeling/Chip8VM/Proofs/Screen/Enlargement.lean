import Chip8VM.Proofs.Screen.Rendering
import Mathlib.Data.List.Basic
import Mathlib.Data.Set.Basic

/-!
Pictures made of numbers. They have the size of the enlarged screen, every pixel is
found by dividing its row and its column, and leaving out all but one row and one
column of each square gives back the picture of the screen as it is. So a picture in
two colours tells which of the numbers are zero, and nothing else about them.
-/

namespace Chip8VM

namespace Colour

/-- The components of a colour as numbers. -/
def numbers (colour : Colour) : List Int :=
  [colour.red.toNat, colour.green.toNat, colour.blue.toNat]

/-- Whether numbers are the three components of a colour. -/
def AreComponents (numbers : List Int) : Prop :=
  numbers.length = 3 ∧ ∀ number ∈ numbers, 0 ≤ number ∧ number < 256

theorem component_toNat (byte : UInt8) : component byte.toNat = .ok byte := by
  have hbyte := byte.toNat_lt
  rw [component, if_pos (by omega), Int.toNat_natCast, UInt8.ofNat_toNat]

/-- The components of a colour are read back. -/
theorem ofNumbers_numbers (colour : Colour) : ofNumbers colour.numbers = .ok colour := by
  simp only [ofNumbers, numbers, List.mapM_cons, List.mapM_nil, component_toNat]
  rfl

theorem exists_numbers_eq {numbers : List Int} (hnumbers : AreComponents numbers) :
    ∃ colour : Colour, colour.numbers = numbers := by
  obtain ⟨hlength, hrange⟩ := hnumbers
  obtain ⟨red, green, blue, rfl⟩ := List.length_eq_three.mp hlength
  have hbyte : ∀ number ∈ [red, green, blue],
      ((UInt8.ofNat number.toNat).toNat : Int) = number := by
    intro number hmem
    have := hrange number hmem
    rw [UInt8.toNat_ofNat']
    omega
  refine ⟨⟨.ofNat red.toNat, .ofNat green.toNat, .ofNat blue.toNat⟩, ?_⟩
  rw [numbers, hbyte red (by simp), hbyte green (by simp), hbyte blue (by simp)]

end Colour

theorem Scheme.colour_inj {scheme : Scheme} (hscheme : scheme.on ≠ scheme.off)
    {isLit isLit' : Bool} : scheme.colour isLit = scheme.colour isLit' ↔ isLit = isLit' := by
  cases isLit <;> cases isLit' <;> simp [Scheme.colour, hscheme, hscheme.symm]

namespace Picture

/-- Whether a picture has so many rows, and each of them so many pixels. -/
def HasSize (picture : Picture) (height width : Nat) : Prop :=
  picture.height = height ∧ ∀ row ∈ picture.rows, row.length = width

theorem mem_repeatEach {α : Type} {times : Nat} {xs : List α} {x : α}
    (hmem : x ∈ repeatEach times xs) : x ∈ xs := by
  obtain ⟨y, hy, hx⟩ := List.mem_flatMap.mp hmem
  rwa [List.eq_of_mem_replicate hx]

theorem hasSize_plain (lit : Vector Bool 2048) (scheme : Scheme) :
    (plain lit scheme).HasSize 32 64 := by
  have hrows : (plain lit scheme).height = 32 := by
    rw [height, plain, List.length_map, List.length_range, screenHeight]
  refine ⟨hrows, fun row hrow => ?_⟩
  obtain ⟨k, hk, rfl⟩ := List.mem_map.mp hrow
  have hheight := List.mem_range.mp hk
  simp only [screenRow, List.length_map, List.length_take, List.length_drop, Vector.length_toList,
    screenWidth, screenHeight] at hheight ⊢
  omega

theorem hasSize_enlarge {picture : Picture} {height width : Nat}
    (hsize : picture.HasSize height width) (times : Nat) :
    (picture.enlarge times).HasSize (height * times) (width * times) := by
  obtain ⟨hheight, hwidth⟩ := hsize
  constructor
  · rw [Picture.height, enlarge, length_repeatEach, List.length_map, Nat.mul_comm]
    exact congrArg (· * times) hheight
  · intro row hrow
    obtain ⟨pixels, hpixels, rfl⟩ := List.mem_map.mp (mem_repeatEach hrow)
    rw [length_repeatEach, hwidth pixels hpixels, Nat.mul_comm]

/-- The first of every `step` elements of a list. -/
def everyNth {α : Type} (step : Nat) : List α → List α
  | [] => []
  | x :: rest => x :: everyNth step (rest.drop (step - 1))
termination_by xs => xs.length
decreasing_by
  rw [List.length_drop, List.length_cons]
  omega

/-- Every `step`-th pixel of every `step`-th row, from the upper left corner on. -/
def sample (picture : Picture) (step : Nat) : Picture :=
  ⟨(everyNth step picture.rows).map (everyNth step)⟩

theorem everyNth_repeatEach {α : Type} {times : Nat} (hpos : 0 < times) (xs : List α) :
    everyNth times (repeatEach times xs) = xs := by
  induction xs with
  | nil => rw [repeatEach, List.flatMap_nil, everyNth]
  | cons x rest ih =>
      obtain ⟨others, rfl⟩ : ∃ others, times = others + 1 := ⟨times - 1, by omega⟩
      have hdrop : (List.replicate others x ++ repeatEach (others + 1) rest).drop others =
          repeatEach (others + 1) rest :=
        List.drop_left' List.length_replicate
      rw [repeatEach, List.flatMap_cons, List.replicate_succ, List.cons_append, ← repeatEach,
        everyNth, Nat.add_sub_cancel, hdrop, ih]

/-- One pixel of each square makes up the picture that was enlarged. -/
theorem sample_enlarge (picture : Picture) {times : Nat} (hpos : 0 < times) :
    (picture.enlarge times).sample times = picture := by
  have hrows : everyNth times ∘ repeatEach times = id (α := List Colour) :=
    funext fun row => everyNth_repeatEach hpos row
  rw [sample, enlarge, everyNth_repeatEach hpos, List.map_map, hrows, List.map_id]

/-- At a scale of one the screen is shown as it is. -/
theorem ofScreen_one (lit : Vector Bool 2048) (scheme : Scheme) :
    ofScreen lit scheme 1 = plain lit scheme := by
  have hside : side 1 = 1 := rfl
  have hsingle {α : Type} (xs : List α) : repeatEach 1 xs = xs := List.flatMap_singleton' xs
  rw [ofScreen, hside, enlarge, hsingle, List.map_congr_left fun row _ => hsingle row, List.map_id']

theorem plain_inj {scheme : Scheme} (hscheme : scheme.on ≠ scheme.off)
    {lit lit' : Vector Bool 2048} (hplain : plain lit scheme = plain lit' scheme) : lit = lit' := by
  ext cell hcell
  have hpixel (screen : Vector Bool 2048) :
      (plain screen scheme).pixel? (cell / screenWidth) (cell % screenWidth) =
        some (scheme.colour screen[cell]) := by
    have hrow : cell / screenWidth < screenHeight := by
      rw [screenWidth, screenHeight]
      omega
    rw [pixel?_plain _ _ hrow (Nat.mod_lt _ (by decide)), Nat.div_add_mod',
      Vector.getElem?_eq_getElem hcell]
    rfl
  have hcolour := hpixel lit
  rw [hplain, hpixel lit'] at hcolour
  exact (Scheme.colour_inj hscheme).mp (Option.some.inj hcolour).symm

/-- A picture in two colours shows which pixels of the screen are lit. -/
theorem ofScreen_inj {scheme : Scheme} (hscheme : scheme.on ≠ scheme.off) {scale : Int}
    {lit lit' : Vector Bool 2048} :
    ofScreen lit scheme scale = ofScreen lit' scheme scale ↔ lit = lit' := by
  refine ⟨fun hpicture => plain_inj hscheme ?_, fun hlit => hlit ▸ rfl⟩
  rw [← sample_enlarge (plain lit scheme) (side_pos scale),
    ← sample_enlarge (plain lit' scheme) (side_pos scale)]
  exact congrArg (·.sample (side scale)) hpicture

/-- For each number, whether it is other than zero. -/
def marks (pixels : List Int) : List Bool := pixels.map fun number => decide (number ≠ 0)

theorem litOfNumbers_of_length {pixels : List Int} (hlength : pixels.length = 2048) :
    ∃ lit, litOfNumbers pixels = .ok lit ∧ lit.toList = marks pixels := by
  have hsize : (marks pixels).toArray.size = 2048 := by simpa [marks] using hlength
  exact ⟨⟨_, hsize⟩, dif_pos hsize, rfl⟩

theorem ofNumbers_numbers {pixels : List Int} {lit : Vector Bool 2048}
    (hread : litOfNumbers pixels = .ok lit) (scheme : Scheme) (scale : Int) :
    ofNumbers pixels scale scheme.on.numbers scheme.off.numbers =
      .ok (ofScreen lit scheme scale) := by
  rw [ofNumbers, hread, Colour.ofNumbers_numbers, Colour.ofNumbers_numbers]
  rfl

/-- The places of the numbers other than zero. -/
def litPlaces (pixels : List Int) : Set Nat :=
  {k | ∃ number, pixels[k]? = some number ∧ number ≠ 0}

theorem mem_litPlaces_iff (pixels : List Int) (k : Nat) :
    k ∈ litPlaces pixels ↔ (marks pixels)[k]? = some true := by
  simp [litPlaces, marks, List.getElem?_map]

theorem marks_eq_iff {pixels others : List Int} (hlength : pixels.length = others.length) :
    marks pixels = marks others ↔ litPlaces pixels = litPlaces others := by
  constructor
  · intro hmarks
    ext k
    rw [mem_litPlaces_iff, mem_litPlaces_iff, hmarks]
  · intro hplaces
    refine List.ext_getElem (by simpa [marks] using hlength) fun k hk hk' => ?_
    have hmem : k ∈ litPlaces pixels ↔ k ∈ litPlaces others := by rw [hplaces]
    rw [mem_litPlaces_iff, mem_litPlaces_iff, List.getElem?_eq_getElem hk,
      List.getElem?_eq_getElem hk', Option.some.injEq, Option.some.injEq] at hmem
    exact Bool.eq_iff_iff.mpr hmem

/-- A picture shows numbers in squares: the pixels of a square are of one colour where
the number is zero, and of the other one elsewhere. -/
structure Shows (picture : Picture) (pixels : List Int) (side : Nat) (on off : List Int) :
    Prop where
  size : picture.HasSize (32 * side) (64 * side)
  pixel : ∀ row < 32 * side, ∀ column < 64 * side,
    ∃ number, pixels[row / side * 64 + column / side]? = some number ∧
      (picture.pixel? row column).map Colour.numbers = some (if number ≠ 0 then on else off)

theorem exists_lit (lit : Vector Bool 2048) (scheme : Scheme) {scale : Int} {row column : Nat}
    (hrow : row < screenHeight * side scale) (hcolumn : column < screenWidth * side scale) :
    ∃ isLit, lit.toList[row / side scale * 64 + column / side scale]? = some isLit ∧
      (ofScreen lit scheme scale).pixel? row column = some (scheme.colour isLit) := by
  have hcell := cellAt_lt hrow hcolumn
  refine ⟨lit[cellAt scale row column], ?_, ?_⟩
  · rw [Vector.getElem?_toList]
    exact Vector.getElem?_eq_getElem hcell
  · rw [pixel?_ofScreen _ _ _ hrow hcolumn, Vector.getElem?_eq_getElem hcell, Option.map_some]

theorem hasSize_ofScreen (lit : Vector Bool 2048) (scheme : Scheme) (scale : Int) :
    (ofScreen lit scheme scale).HasSize (32 * side scale) (64 * side scale) :=
  hasSize_enlarge (hasSize_plain lit scheme) _

theorem shows_ofScreen {pixels : List Int} {lit : Vector Bool 2048}
    (hlit : lit.toList = marks pixels) (scheme : Scheme) (scale : Int) :
    (ofScreen lit scheme scale).Shows pixels (side scale) scheme.on.numbers
      scheme.off.numbers where
  size := hasSize_ofScreen lit scheme scale
  pixel row hrow column hcolumn := by
    obtain ⟨isLit, hmark, hpixel⟩ := exists_lit lit scheme hrow hcolumn
    rw [hlit, marks, List.getElem?_map] at hmark
    obtain ⟨number, hnumber, rfl⟩ := Option.map_eq_some_iff.mp hmark
    refine ⟨number, hnumber, ?_⟩
    rw [hpixel, Option.map_some, Scheme.colour, apply_ite Colour.numbers]
    simp only [decide_eq_true_eq]

end Picture

end Chip8VM
