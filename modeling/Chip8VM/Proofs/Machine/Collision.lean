import Chip8VM.Proofs.Machine.Drawing
import Chip8VM.Proofs.Processor.Command
import Mathlib.Data.Nat.Bitwise

/-!
Sprites drawn one after the other. Each inverts cells, so their order makes no
difference, and a sprite drawn again takes itself away. On a screen of zeros and
ones the number of lit pixels is accounted for bit by bit: a lit bit of the sprite
either lights a pixel or, in a collision, turns one off. The flag is down exactly
when no pixel has been turned off.
-/

namespace Chip8VM

/-- Inverting the lowest bit of a byte sets it if and only if it was clear. -/
theorem lowest_bit_inverted (byte : UInt8) : (byte ^^^ 1) &&& 1 = 1 ↔ byte &&& 1 = 0 := by
  simp only [← UInt8.toNat_inj, UInt8.toNat_and, UInt8.toNat_xor, UInt8.toNat_one,
    UInt8.toNat_zero, Nat.and_one_is_mod, Nat.xor_mod_two_eq]
  omega

namespace Screen

theorem draw_comm (screen : Screen) (first second : Sprite) :
    (screen.draw first).draw second = (screen.draw second).draw first := by
  apply Vector.ext
  intro cell hcell
  simp only [getElem_draw _ _ hcell]
  rw [UInt8.xor_assoc, UInt8.xor_comm (first.bit cell), ← UInt8.xor_assoc]

/-- On a screen that shows a sprite, the same sprite collides where one of its lit pixels has
found the lowest bit of a cell clear. -/
theorem collides_draw_iff (screen : Screen) {sprite : Sprite}
    (hheight : sprite.rows.length ≤ screenHeight) :
    (screen.draw sprite).collides sprite = true ↔
      ∃ p ∈ sprite.pixels, p.isLit = true ∧ screen.get p.cell &&& 1 = 0 := by
  rw [collides_eq_any_meets _ hheight, List.any_eq_true]
  apply exists_congr
  intro p
  apply and_congr_right
  intro hp
  rw [Pixel.meets, Bool.and_eq_true, beq_iff_eq]
  apply and_congr_right
  intro hlit
  have hbit : sprite.bit p.cell = 1 :=
    (Sprite.bit_eq_one_iff hheight p.cell).mpr ((p.eq_lit_iff p.cell).mpr ⟨rfl, hlit⟩ ▸ hp)
  rw [get_draw, hbit, lowest_bit_inverted]

/-- The number of pixels that are lit. -/
def litCount (screen : Screen) : Nat := screen.lit.count true

theorem litCount_blank : blank.litCount = 0 := by
  simp [litCount, lit, blank, Vector.count_replicate]

theorem litCount_set (screen : Screen) (cell : Fin 2048) (value : UInt8) :
    litCount (screen.set cell value cell.isLt) + (if screen.get cell = 0 then 0 else 1) =
      screen.litCount + if value = 0 then 0 else 1 := by
  have hlit : screen.lit[cell.val] = decide (screen.get cell ≠ 0) := Vector.getElem_map _ cell.isLt
  have hpos : screen.get cell ≠ 0 → 0 < screen.litCount := by
    intro hcell
    apply Vector.count_pos_iff.mpr
    rw [decide_eq_true hcell] at hlit
    exact hlit ▸ Vector.getElem_mem cell.isLt
  rw [litCount, lit, Vector.map_set, Vector.count_set]
  change (screen.litCount - if (screen.lit[cell.val] == true) = true then 1 else 0) + _ + _ = _
  rw [hlit]
  by_cases hcell : screen.get cell = 0 <;> by_cases hvalue : value = 0
  all_goals simp [hcell, hvalue] at hpos ⊢
  all_goals omega

theorem litCount_set_blank (cell : Fin 2048) :
    litCount (blank.set cell 1 cell.isLt) = 1 := by
  have hset := blank.litCount_set cell 1
  rw [litCount_blank, get_blank, if_pos rfl, if_neg (by decide)] at hset
  omega

theorem OneBit.lit_iff {screen : Screen} (hone : screen.OneBit) (cell : Fin 2048) :
    screen.lit.get cell = true ↔ screen.get cell &&& 1 = 1 := by
  rw [hone.lit_eq_collides cell, collides_dot]

/-- A sprite turns a pixel off exactly where it collides. -/
theorem OneBit.collides_eq_false_iff {screen : Screen} (hone : screen.OneBit) (sprite : Sprite) :
    screen.collides sprite = false ↔
      ∀ cell, screen.lit.get cell = true → (screen.draw sprite).lit.get cell = true := by
  rw [← Bool.not_eq_true, collides_iff, not_exists]
  apply forall_congr'
  intro cell
  rw [hone.lit_iff, (hone.draw sprite).lit_iff, get_draw]
  rcases hone cell with hcell | hcell <;> rcases sprite.bit_cases cell with hbit | hbit
  all_goals rw [hcell, hbit]; decide

end Screen

namespace Drawing

theorem oneBit_put {d : Drawing} (hone : d.screen.OneBit) (p : Pixel) :
    (d.put p).screen.OneBit := by
  intro cell
  by_cases hcell : p.cell = cell
  · subst hcell
    rw [get_put_self, Pixel.bit]
    rcases hone p.cell with hcell | hcell <;> cases p.isLit
    all_goals rw [hcell]; decide
  · rw [get_put_of_ne _ hcell]
    exact hone cell

/-- A lit pixel adds one to the lit pixels of the screen, or takes one away if it meets one. -/
theorem litCount_put {d : Drawing} (hone : d.screen.OneBit) (p : Pixel) :
    (d.put p).screen.litCount + 2 * (if p.meets d.screen then 1 else 0) =
      d.screen.litCount + if p.isLit then 1 else 0 := by
  have hcell : (if d.screen.get p.cell ^^^ p.bit = 0 then 0 else 1) +
      2 * (if p.meets d.screen then 1 else 0) =
        (if d.screen.get p.cell = 0 then 0 else 1) + if p.isLit then 1 else 0 := by
    rw [Pixel.meets, Pixel.bit]
    rcases hone p.cell with hcell | hcell <;> cases p.isLit
    all_goals rw [hcell]; decide
  have hset := d.screen.litCount_set p.cell (d.screen.get p.cell ^^^ p.bit)
  dsimp only [put]
  omega

theorem litCount_foldl_put {pixels : List Pixel} (hnodup : (pixels.map Pixel.cell).Nodup)
    {d : Drawing} (hone : d.screen.OneBit) :
    (pixels.foldl put d).screen.litCount + 2 * pixels.countP (·.meets d.screen) =
      d.screen.litCount + pixels.countP (·.isLit) := by
  induction pixels generalizing d with
  | nil => rfl
  | cons p rest ih =>
      obtain ⟨hnew, hrest⟩ := List.nodup_cons.mp hnodup
      have hlater := ih hrest (oneBit_put hone p)
      have hsame : rest.countP (·.meets (d.put p).screen) = rest.countP (·.meets d.screen) := by
        apply List.countP_congr
        intro q hq
        rw [meets_put_of_mem hnew d q hq]
      have hp := litCount_put hone p
      rw [hsame] at hlater
      rw [List.foldl_cons, List.countP_cons, List.countP_cons]
      omega

end Drawing

namespace Machine

/-- The machine with other registers and another I, as a program may set them between two draw
instructions. -/
def aimed (m : Machine) (index : Address) (registers : Vector UInt8 16) : Machine :=
  { m with index, registers }

theorem sprite_draw_next (m : Machine) {x y : Register} (hx : x ≠ flagRegister)
    (hy : y ≠ flagRegister) (rows : Nat) :
    (m.draw x y rows).next.sprite x y rows = m.sprite x y rows := by
  simp only [sprite, register_next, register_draw_of_ne _ _ _ _ hx, register_draw_of_ne _ _ _ _ hy]
  rfl

theorem litCount_draw (m : Machine) (x y : Register) (rows : Fin 33) (hone : m.screen.OneBit) :
    (m.screen.draw (m.sprite x y rows)).litCount +
        2 * (m.sprite x y rows).pixels.countP (·.meets m.screen) =
      m.screen.litCount + (m.sprite x y rows).pixels.countP (·.isLit) := by
  have hheight := m.height_sprite_le x y rows
  have hcount := Drawing.litCount_foldl_put (Sprite.nodup_cells hheight) (d := ⟨m.screen, 0⟩) hone
  rwa [m.screen.foldl_put_pixels hheight] at hcount

/-- Two sprites make the same screen in either order, whatever I and the registers are
for each of them. A sprite drawn again where it is takes itself away, and the flag then
tells whether one of its lit pixels had found the lowest bit of a cell clear. On a
screen of zeros and ones, where that bit is set for the lit pixels, each lit bit of the
sprite counts as one pixel more, or as one less where it collides; and the flag is down
if and only if no pixel has been turned off. -/
theorem draws_commute_and_account_for_pixels (m : Machine) (x y : Register) (rows : Fin 33) :
    let pixels := (m.sprite x y rows).pixels
    (∀ (i j : Address) (v w : Vector UInt8 16) (x' y' : Register) (rows' : Fin 33),
      ∃ one both other both',
        (m.aimed i v).execute (.draw x y rows) = .ok one ∧
        (one.aimed j w).execute (.draw x' y' rows') = .ok both ∧
        (m.aimed j w).execute (.draw x' y' rows') = .ok other ∧
        (other.aimed i v).execute (.draw x y rows) = .ok both' ∧
        both.screen = both'.screen) ∧
    (x ≠ flagRegister → y ≠ flagRegister → ∃ once twice,
      m.execute (.draw x y rows) = .ok once ∧ once.execute (.draw x y rows) = .ok twice ∧
      twice.screen = m.screen ∧
      (twice.register flagRegister = 1 ↔
        ∃ p ∈ pixels, p.isLit = true ∧ m.screen.get p.cell &&& 1 = 0)) ∧
    (m.screen.OneBit →
      (∀ cell, m.screen.lit.get cell = true ↔ m.screen.get cell &&& 1 = 1) ∧
      ∃ after, m.execute (.draw x y rows) = .ok after ∧
        after.screen.litCount + 2 * pixels.countP (·.meets m.screen) =
          m.screen.litCount + pixels.countP (·.isLit) ∧
        (after.register flagRegister = 0 ↔
          ∀ cell, m.screen.lit.get cell = true → after.screen.lit.get cell = true)) := by
  intro pixels
  have hheight := m.height_sprite_le x y rows
  refine ⟨?_, ?_, ?_⟩
  · intro i j v w x' y' rows'
    exact ⟨_, _, _, _, rfl, rfl, rfl, rfl, m.screen.draw_comm _ _⟩
  · intro hx hy
    let once := (m.draw x y rows).next
    have hsprite : once.sprite x y rows = m.sprite x y rows := m.sprite_draw_next hx hy rows
    refine ⟨once, (once.draw x y rows).next, rfl, rfl, ?_, ?_⟩
    · change (m.screen.draw (m.sprite x y rows)).draw (once.sprite x y rows) = _
      rw [hsprite, Screen.draw_draw]
    · rw [← m.screen.collides_draw_iff hheight, register_next, flag_draw, hsprite]
      change (if (m.screen.draw (m.sprite x y rows)).collides _ then 1 else 0) = 1 ↔ _
      split
      next hcollides => simp [hcollides]
      next hcollides => simp [hcollides]
  · intro hone
    refine ⟨hone.lit_iff, (m.draw x y rows).next, rfl, m.litCount_draw x y rows hone, ?_⟩
    rw [register_next, flag_draw]
    refine Iff.trans ?_ (hone.collides_eq_false_iff (m.sprite x y rows))
    cases m.screen.collides (m.sprite x y rows) with
    | true => decide
    | false => decide

/-- The glyph of the digit 0 over one lit pixel, in the upper left corner. It has fourteen
lit bits, of which the first collides, so that thirteen pixels are lit; drawn again, it
gives back the one pixel. -/
theorem glyph_over_one_pixel :
    let m : Machine :=
      { Machine.holding [] with
        memory := Memory.zeroed.writeBlock fontStart font
        screen := Screen.blank.set 0 1 }
    ∃ once twice, m.execute (.draw 0 0 5) = .ok once ∧ once.execute (.draw 0 0 5) = .ok twice ∧
      once.screen.litCount = 13 ∧ once.register flagRegister ≠ 0 ∧
      twice.screen = m.screen ∧ twice.register flagRegister = 1 := by
  intro m
  have hone : m.screen.OneBit := by
    have hput := Drawing.oneBit_put (d := ⟨Screen.blank, 0⟩) Screen.oneBit_blank ⟨0, true⟩
    simp only [Drawing.put, Screen.get_blank] at hput
    exact hput
  have hcount : m.screen.litCount = 1 := Screen.litCount_set_blank 0
  obtain ⟨hlit, hmeet, hclear, hset, hunset⟩ :
      let sprite := m.sprite 0 0 (5 : Fin 33)
      sprite.pixels.countP (·.isLit) = 14 ∧ sprite.pixels.countP (·.meets m.screen) = 1 ∧
      (∃ p ∈ sprite.pixels, p.isLit = true ∧ m.screen.get p.cell &&& 1 = 0) ∧
      m.screen.get 0 &&& 1 = 1 ∧ (m.screen.get 0 ^^^ sprite.bit (0 : Fin 2048)) &&& 1 ≠ 1 := by
    decide +kernel
  obtain ⟨_, hagain, honeBit⟩ := draws_commute_and_account_for_pixels m 0 0 5
  obtain ⟨once, twice, honce, htwice, hback, hflag⟩ := hagain (by decide) (by decide)
  obtain ⟨hlights, after, hafter, hpixels, hoff⟩ := honeBit hone
  obtain rfl := Except.ok.inj (honce.symm.trans hafter)
  refine ⟨once, twice, honce, htwice, ?_, ?_, hback, hflag.mpr hclear⟩
  · rw [hcount, hlit, hmeet] at hpixels
    omega
  · intro hdown
    have hkept := hoff.mp hdown 0 ((hlights 0).mpr hset)
    obtain rfl := Except.ok.inj honce
    have hstill := ((hone.draw _).lit_iff 0).mp hkept
    rw [Screen.get_draw] at hstill
    exact hunset hstill

end Machine

end Chip8VM
