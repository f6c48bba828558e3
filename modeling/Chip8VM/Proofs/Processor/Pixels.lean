import Chip8VM.Proofs.Processor.Executions
import Chip8VM.Proofs.Screen.Rendering
import Chip8VM.Proofs.Screen.Sprite
import Mathlib.Control.Monad.Basic

/-!
The screen during a run. Only a clear instruction and a draw instruction write it,
and only the first of them touches a bit of a cell above the lowest; so a screen
that starts with zeros and ones keeps to them, and then what a picture shows as lit
is what the next sprite can collide with.
-/

namespace Chip8VM

open Processor (Command)

/-- A setup that gives no screen, or one of zeros and ones. -/
def Setup.OneBit (setup : Setup) : Prop :=
  ∀ numbers ∈ setup.screen, ∀ number ∈ numbers, number = 0 ∨ number = 1

theorem Setup.Makes.oneBit {setup : Setup} {m : Machine} (hmakes : setup.Makes m)
    (hone : setup.OneBit) : m.screen.OneBit := by
  have hscreen := hmakes.screen
  cases hnumbers : setup.screen with
  | none =>
      rw [hnumbers] at hscreen
      rw [← Except.ok.inj hscreen]
      exact Screen.oneBit_blank
  | some numbers =>
      rw [hnumbers] at hscreen
      have hcells := (readCells_eq_ok_iff .screen numbers m.screen).mp hscreen
      intro cell
      have hmem : ((m.screen.get cell).toNat : Int) ∈ numbers := by
        rw [← hcells]
        exact List.mem_map_of_mem (Vector.mem_toList_iff.mpr (Vector.getElem_mem cell.isLt))
      simp only [← UInt8.toNat_inj, UInt8.toNat_zero, UInt8.toNat_one]
      have hnumber := hone numbers hnumbers _ hmem
      omega

namespace Execution

theorem screen_of_clear {e : Execution} (hclear : e.decoded.instruction = .clear) :
    e.after.screen = Screen.blank := by
  have hexecute := e.execute_eq
  rw [hclear] at hexecute
  rw [← Except.ok.inj hexecute]

/-- Unless it clears the screen, an instruction draws one sprite on it or none. -/
theorem screen_cases (e : Execution) (hclear : e.decoded.instruction ≠ .clear) :
    e.after.screen = e.before.screen ∨
    ∃ sprite, e.after.screen = e.before.screen.draw sprite := by
  by_cases hdraw : ∃ x y rows, e.decoded.instruction = .draw x y rows
  · obtain ⟨x, y, rows, hdraw⟩ := hdraw
    have hexecute := e.execute_eq
    rw [hdraw] at hexecute
    rw [← Except.ok.inj hexecute]
    exact .inr ⟨e.before.sprite x y rows, rfl⟩
  · exact .inl (e.frame.screen hclear fun x y rows h => hdraw ⟨x, y, rows, h⟩)

theorem testBit_screen (e : Execution) (hclear : e.decoded.instruction ≠ .clear)
    (cell : Fin 2048) {bit : Nat} (hbit : 1 ≤ bit) :
    (e.after.screen.get cell).toNat.testBit bit = (e.before.screen.get cell).toNat.testBit bit := by
  obtain hsame | ⟨sprite, hdraw⟩ := e.screen_cases hclear
  · rw [hsame]
  · rw [hdraw]
    exact e.before.screen.testBit_draw sprite cell hbit

theorem oneBit_screen (e : Execution) (hone : e.before.screen.OneBit) :
    e.after.screen.OneBit := by
  by_cases hclear : e.decoded.instruction = .clear
  · rw [e.screen_of_clear hclear]
    exact Screen.oneBit_blank
  · obtain hsame | ⟨sprite, hdraw⟩ := e.screen_cases hclear
    · rwa [hsame]
    · rw [hdraw]
      exact hone.draw sprite

end Execution

namespace Machine

theorem oneBit_perform {m : Machine} {command : Command} (hone : m.screen.OneBit)
    (hreset : ∀ setup, command = .reset setup → setup.OneBit) :
    (m.perform command).2.screen.OneBit := by
  have heffect := m.perform_effect command
  generalize (m.perform command).1 = answer at heffect
  generalize (m.perform command).2 = after at heffect ⊢
  cases heffect with
  | executed hstep => exact (Execution.mk m _ after hstep).oneBit_screen hone
  | reset hmachine => exact ((Setup.machine_eq_ok_iff _ after).mp hmachine).oneBit (hreset _ rfl)
  | _ => exact hone

theorem oneBit_performAll {m : Machine} {commands : List Command} (hone : m.screen.OneBit)
    (hreset : ∀ setup, .reset setup ∈ commands → setup.OneBit) :
    (m.performAll commands).screen.OneBit := by
  induction commands generalizing m with
  | nil => exact hone
  | cons command rest ih =>
      have hfirst : (m.perform command).2.screen.OneBit :=
        oneBit_perform hone fun setup hsetup => hreset setup (hsetup ▸ List.mem_cons_self)
      exact ih hfirst fun setup hsetup => hreset setup (List.mem_cons_of_mem command hsetup)

theorem testBit_perform_step {m : Machine}
    (hclear : ∀ decoded after, m.step = .ok (decoded, after) → decoded.instruction ≠ .clear)
    (cell : Fin 2048) {bit : Nat} (hbit : 1 ≤ bit) :
    ((m.perform .step).2.screen.get cell).toNat.testBit bit =
      (m.screen.get cell).toNat.testBit bit := by
  cases hstep : m.step with
  | ok result =>
      simp only [perform, hstep]
      exact (Execution.mk m _ _ hstep).testBit_screen (hclear _ _ hstep) cell hbit
  | error cause => simp only [perform, hstep]

/-- A draw sets the flag if and only if one of its lit pixels would collide on its own. -/
theorem flag_of_draw {m after : Machine} {x y : Register} {rows : Fin 33}
    (hexecute : m.execute (.draw x y rows) = .ok after) :
    after.register flagRegister = 1 ↔
      ∃ cell : Fin 2048, (m.sprite x y rows).bit cell = 1 ∧
        m.screen.collides (Sprite.dot cell) = true := by
  have hflag : after.register flagRegister =
      if m.screen.collides (m.sprite x y rows) then 1 else 0 := by
    rw [← Except.ok.inj hexecute]
    exact Vector.getElem_set_self _
  simp only [Screen.collides_dot, ← Screen.collides_iff, hflag]
  split
  next hcollides => simp [hcollides]
  next hcollides => simp [hcollides]

end Machine

/-- On a screen of zeros and ones a picture shows, in the colour of lit pixels, what
the next sprite can collide with. -/
theorem Screen.OneBit.pixel?_ofScreen_iff {screen : Screen} (hone : screen.OneBit)
    (on off : Colour) (scale : Int) (row column : Nat) (colour : Colour) :
    (Picture.ofScreen screen.lit ⟨on, off⟩ scale).pixel? row column = some colour ↔
      row < screenHeight * Picture.side scale ∧ column < screenWidth * Picture.side scale ∧
      colour = if screen.collides (Sprite.dot (Picture.cellAt scale row column)) then on
        else off := by
  have hpixel (hrow : row < screenHeight * Picture.side scale)
      (hcolumn : column < screenWidth * Picture.side scale) :
      (Picture.ofScreen screen.lit ⟨on, off⟩ scale).pixel? row column =
        some (if screen.collides (Sprite.dot (Picture.cellAt scale row column)) then on
          else off) := by
    have hcell := Picture.cellAt_lt hrow hcolumn
    have hlit := hone.lit_eq_collides ⟨_, hcell⟩
    rw [Picture.pixel?_ofScreen _ _ scale hrow hcolumn, Vector.getElem?_eq_getElem hcell,
      Option.map_some, ← hlit]
    rfl
  constructor
  · intro hcolour
    obtain ⟨hrow, hcolumn⟩ := Picture.lt_of_pixel?_ofScreen hcolour
    rw [hpixel hrow hcolumn] at hcolour
    exact ⟨hrow, hcolumn, (Option.some.inj hcolour).symm⟩
  · rintro ⟨hrow, hcolumn, hcolour⟩
    rw [hcolour]
    exact hpixel hrow hcolumn

namespace Processor

/-- No step but a clear instruction touches a bit of a cell above the lowest. In a run
whose setups give no screen, or one of zeros and ones, each cell stays 0 or 1; and a
picture of its screen shows a cell in the colour of lit pixels if and only if a draw
that lights a pixel there reports a collision. -/
theorem pixels_stay_one_bit_and_collide_where_lit {setup : Setup} {logger : Logger}
    {p : Processor} (hcreate : create setup logger = .ok p) (hsetup : setup.OneBit)
    (commands : List Command) (hreset : ∀ setup, .reset setup ∈ commands → setup.OneBit) :
    let m := (p.performAll commands).machine
    (∀ (before after : Machine) decoded, before.step = .ok (decoded, after) →
      decoded.instruction = .clear → ∀ cell : Fin 2048, after.screen.get cell = 0) ∧
    (∀ before : Machine,
      (∀ decoded after, before.step = .ok (decoded, after) → decoded.instruction ≠ .clear) →
      ∀ (cell : Fin 2048) (bit : Nat), 1 ≤ bit →
        ((before.perform .step).2.screen.get cell).toNat.testBit bit =
          (before.screen.get cell).toNat.testBit bit) ∧
    (∀ cell : Fin 2048, m.screen.get cell = 0 ∨ m.screen.get cell = 1) ∧
    (∀ scale onNumbers offNumbers on off,
      Colour.ofNumbers onNumbers = .ok on → Colour.ofNumbers offNumbers = .ok off →
      ∃ picture, Picture.ofNumbers (m.screen.toList.map fun byte => (byte.toNat : Int)) scale
          onNumbers offNumbers = .ok picture ∧
        ∀ row column colour, picture.pixel? row column = some colour ↔
          row < screenHeight * Picture.side scale ∧ column < screenWidth * Picture.side scale ∧
          colour = if m.screen.collides (Sprite.dot (Picture.cellAt scale row column)) then on
            else off) ∧
    ∀ x y rows after, m.execute (.draw x y rows) = .ok after →
      (after.register flagRegister = 1 ↔
        ∃ cell : Fin 2048, (m.sprite x y rows).bit cell = 1 ∧
          m.screen.collides (Sprite.dot cell) = true) := by
  intro m
  have hmakes := ((create_eq_ok_iff setup logger p).mp hcreate).1
  have hm : m = p.machine.performAll commands := p.performAll_machine commands
  have hone : m.screen.OneBit := by
    rw [hm]
    exact Machine.oneBit_performAll (hmakes.oneBit hsetup) hreset
  refine ⟨?_, ?_, hone, ?_, ?_⟩
  · intro before after decoded hstep hclear cell
    rw [(Execution.mk before decoded after hstep).screen_of_clear hclear]
    exact Screen.get_blank cell
  · intro before hclear cell bit hbit
    exact Machine.testBit_perform_step hclear cell hbit
  · intro scale onNumbers offNumbers on off hon hoff
    exact ⟨_, Picture.ofNumbers_screen m.screen scale hon hoff,
      hone.pixel?_ofScreen_iff on off scale⟩
  · intro x y rows after hexecute
    exact Machine.flag_of_draw hexecute

/-- The upper row of a glyph, drawn on a screen that was lit before a reset. -/
theorem glyph_row_is_shown_and_met :
    let setup : Setup := { screen := some (List.replicate 2048 1) }
    let commands : List Command := [.reset {}, .load [0xD0, 0x01] 0x200, .step]
    ∃ p, create setup {} = .ok p ∧
      let m := (p.performAll commands).machine
      (∀ cell : Fin 2048, m.screen.get cell = 0 ∨ m.screen.get cell = 1) ∧
      (∃ picture, Picture.ofNumbers (m.screen.toList.map fun byte => (byte.toNat : Int)) 2
          [0, 255, 0] [0] = .ok picture ∧
        picture.pixel? 1 7 = some ⟨0, 255, 0⟩ ∧ picture.pixel? 1 8 = some ⟨0, 0, 0⟩) ∧
      ∃ after, m.execute (.draw 0 0 1) = .ok after ∧ after.register flagRegister = 1 := by
  intro setup commands
  let lit : Machine :=
    { Machine.holding [] with
      memory := Memory.zeroed.writeBlock fontStart font
      screen := Vector.replicate 2048 1 }
  have hcreate : create setup {} = .ok (ofMachine lit {}) := by
    rw [create_eq_ok_iff]
    refine ⟨⟨rfl, ⟨_, rfl, rfl⟩, rfl, ?_, rfl, rfl, ⟨_, rfl, rfl⟩, rfl, rfl, rfl, rfl⟩, rfl⟩
    apply (Setup.readCells_eq_ok_iff .screen _ _).mpr
    exact List.map_replicate
  have hsetup : setup.OneBit := by
    intro numbers hnumbers number hmem
    obtain rfl := Option.some.inj hnumbers
    exact .inr (List.eq_of_mem_replicate hmem)
  have hreset : ∀ setup, .reset setup ∈ commands → setup.OneBit := by
    intro setup hmem numbers hnumbers
    have hnone : setup = {} := by simpa [commands] using hmem
    rw [hnone] at hnumbers
    cases hnumbers
  let loaded : Machine := lit.performAll [.reset {}, .load [0xD0, 0x01] 0x200]
  obtain ⟨hdecode, hsprite⟩ : decode loaded.fetch = .ok ⟨0xD001, .draw 0 0 1⟩ ∧
      loaded.sprite 0 0 1 = ⟨[0xF0], 0, 0⟩ := by
    decide +kernel
  have hmachine : ((ofMachine lit {}).performAll commands).machine =
      (loaded.draw 0 0 1).next := by
    have hstep : loaded.step = .ok (⟨0xD001, .draw 0 0 1⟩, (loaded.draw 0 0 1).next) :=
      (loaded.step_eq_ok_iff _ _).mpr ⟨hdecode, rfl⟩
    rw [performAll_machine]
    change (loaded.perform .step).2 = _
    rw [Machine.perform, hstep]
  let m := ((ofMachine lit {}).performAll commands).machine
  have hcell (cell : Fin 2048) : m.screen.get cell = (⟨[0xF0], 0, 0⟩ : Sprite).bit cell := by
    have hscreen : m.screen = loaded.screen.draw (loaded.sprite 0 0 1) := by
      simp only [m, hmachine]
      rfl
    have hblank : loaded.screen = Screen.blank := rfl
    rw [hscreen, hsprite, hblank, Screen.get_draw, Screen.get_blank, UInt8.zero_xor]
  have hlit : m.screen.collides (Sprite.dot 3) = true :=
    (m.screen.collides_dot 3).mpr (by rw [hcell]; decide)
  have hdark : m.screen.collides (Sprite.dot 4) ≠ true :=
    mt (m.screen.collides_dot 4).mp (by rw [hcell]; decide)
  have hmet : (m.sprite 0 0 1).bit 3 = 1 := by
    decide +kernel
  obtain ⟨_, _, hone, hpicture, hdraw⟩ :=
    pixels_stay_one_bit_and_collide_where_lit hcreate hsetup commands hreset
  refine ⟨_, hcreate, hone, ?_, _, rfl, (hdraw 0 0 1 _ rfl).mpr ⟨3, hmet, hlit⟩⟩
  obtain ⟨picture, hmade, hpixel⟩ := hpicture 2 [0, 255, 0] [0] ⟨0, 255, 0⟩ ⟨0, 0, 0⟩ rfl rfl
  refine ⟨picture, hmade, ?_, ?_⟩
  · exact (hpixel 1 7 _).mpr ⟨by decide, by decide, (if_pos hlit).symm⟩
  · exact (hpixel 1 8 _).mpr ⟨by decide, by decide, (if_neg hdark).symm⟩

end Processor

end Chip8VM
