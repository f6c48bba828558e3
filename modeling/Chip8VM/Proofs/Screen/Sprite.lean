import Chip8VM.Machine.Screen
import Mathlib.Data.Nat.Bitwise

/-!
Sprites meet the screen bit by bit. A sprite is 0 or 1 at every cell, so drawing it
changes no bit of a cell but the lowest, and it collides where one of its lit pixels
meets a cell whose lowest bit is set. On a screen of zeros and ones the lowest bit is
all there is, and such a cell is a lit one.
-/

namespace Chip8VM

/-- One bit of a byte, moved to the lowest place. -/
theorem shifted_bit (byte : UInt8) {offset : Nat} (hoffset : offset < 8) :
    byte >>> UInt8.ofNat offset &&& 1 = if byte.toNat.testBit offset then 1 else 0 := by
  have hsize : offset < UInt8.size := Nat.lt_trans hoffset (by decide)
  rw [← UInt8.toNat_inj, UInt8.toNat_and, UInt8.toNat_shiftRight, UInt8.toNat_ofNat_of_lt' hsize,
    Nat.mod_eq_of_lt hoffset, UInt8.toNat_one, Nat.and_one_is_mod, Nat.shiftRight_eq_div_pow,
    Nat.testBit_eq_decide_div_mod_eq]
  split
  next hone => simpa using hone
  next hone =>
    have := Nat.mod_two_eq_zero_or_one (byte.toNat / 2 ^ offset)
    simp_all

namespace Sprite

theorem bit_cases (sprite : Sprite) (cell : Nat) : sprite.bit cell = 0 ∨ sprite.bit cell = 1 := by
  simp only [bit, bitAt]
  split
  next =>
    split
    next bits hbits =>
      rw [shifted_bit bits (by omega)]
      split
      next => exact .inr rfl
      next => exact .inl rfl
    next => exact .inl rfl
  next => exact .inl rfl

/-- The sprite of one row whose only lit pixel is at a cell. -/
def dot (cell : Nat) : Sprite := ⟨[0x80], cell % screenWidth, cell / screenWidth⟩

theorem bit_dot {cell other : Nat} (hcell : cell < 2048) (hother : other < 2048) :
    (dot cell).bit other = if other = cell then 1 else 0 := by
  by_cases hsame : other = cell
  · subst hsame
    have hacross : (other % 64 + 64 - other % 64 % 64) % 64 = 0 := by omega
    have hdown : (other / 64 + 32 - other / 64 % 32) % 32 = 0 := by omega
    simp only [bit, bitAt, dot, screenWidth, screenHeight, hacross, hdown, if_true]
    rfl
  · rw [if_neg hsame]
    simp only [bit, bitAt]
    split
    next hnear =>
      split
      next bits hbits =>
        simp only [dot, screenWidth, screenHeight] at hnear hbits ⊢
        obtain ⟨hdown, rfl⟩ : (other / 64 + 32 - cell / 64 % 32) % 32 = 0 ∧ 0x80 = bits := by
          simpa [List.getElem?_singleton] using hbits
        have hdark : ∀ offset < 7, (0x80 : UInt8).toNat.testBit offset = false := by decide
        rw [shifted_bit 0x80 (by omega), hdark _ (by omega)]
        rfl
      next => rfl
    next => rfl

end Sprite

namespace Screen

theorem get_blank (cell : Fin 2048) : blank.get cell = 0 :=
  Vector.getElem_replicate cell.isLt

theorem get_draw (screen : Screen) (sprite : Sprite) (cell : Fin 2048) :
    (screen.draw sprite).get cell = screen.get cell ^^^ sprite.bit cell :=
  screen.getElem_draw sprite cell.isLt

theorem testBit_draw (screen : Screen) (sprite : Sprite) (cell : Fin 2048) {bit : Nat}
    (hbit : 1 ≤ bit) :
    ((screen.draw sprite).get cell).toNat.testBit bit = (screen.get cell).toNat.testBit bit := by
  have hsprite : (sprite.bit cell).toNat.testBit bit = false := by
    apply Nat.testBit_lt_two_pow
    have hpower : 2 ^ 1 ≤ 2 ^ bit := Nat.pow_le_pow_right (by decide) hbit
    rcases sprite.bit_cases cell with hzero | hone
    · rw [hzero]
      exact Nat.lt_of_lt_of_le (by decide) hpower
    · rw [hone]
      exact Nat.lt_of_lt_of_le (by decide) hpower
  rw [get_draw, UInt8.toNat_xor, Nat.testBit_xor, hsprite, Bool.xor_false]

theorem collides_iff (screen : Screen) (sprite : Sprite) :
    screen.collides sprite = true ↔
      ∃ cell : Fin 2048, sprite.bit cell = 1 ∧ screen.get cell &&& 1 = 1 := by
  simp only [collides, List.any_eq_true, List.mem_finRange, true_and, beq_iff_eq]
  apply exists_congr
  intro cell
  change screen.get cell &&& sprite.bit cell = 1 ↔ _
  rcases sprite.bit_cases cell with hbit | hbit
  · simp [hbit]
  · simp [hbit]

theorem collides_dot (screen : Screen) (cell : Fin 2048) :
    screen.collides (Sprite.dot cell) = true ↔ screen.get cell &&& 1 = 1 := by
  rw [collides_iff]
  constructor
  · rintro ⟨other, hbit, hset⟩
    rw [Sprite.bit_dot cell.isLt other.isLt] at hbit
    split at hbit
    next hsame => rwa [← Fin.ext hsame]
    next => cases hbit
  · intro hset
    exact ⟨cell, by rw [Sprite.bit_dot cell.isLt cell.isLt, if_pos rfl], hset⟩

/-- Every cell of the screen is 0 or 1. -/
def OneBit (screen : Screen) : Prop :=
  ∀ cell : Fin 2048, screen.get cell = 0 ∨ screen.get cell = 1

theorem oneBit_blank : blank.OneBit := by
  intro cell
  exact .inl (get_blank cell)

theorem OneBit.draw {screen : Screen} (hone : screen.OneBit) (sprite : Sprite) :
    (screen.draw sprite).OneBit := by
  intro cell
  rw [get_draw]
  rcases hone cell with hbefore | hbefore <;> rcases sprite.bit_cases cell with hbit | hbit
  all_goals rw [hbefore, hbit]; decide

theorem OneBit.lit_eq_collides {screen : Screen} (hone : screen.OneBit) (cell : Fin 2048) :
    screen.lit.get cell = screen.collides (Sprite.dot cell) := by
  have hlit : screen.lit.get cell = decide (screen.get cell ≠ 0) :=
    Vector.getElem_map _ cell.isLt
  rw [hlit, Bool.eq_iff_iff, decide_eq_true_iff, collides_dot]
  rcases hone cell with hcell | hcell
  all_goals rw [hcell]; decide

end Screen

end Chip8VM
