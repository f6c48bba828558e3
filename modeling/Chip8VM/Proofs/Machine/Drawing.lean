import Chip8VM.Proofs.Machine.Registers
import Chip8VM.Proofs.Screen.Drawing

/-!
A draw instruction beside the loop that describes it: row by row and column by
column, each bit of the sprite goes to its cell of the screen as the bits before it
have left it. The instruction reads all cells at once and writes them at once, which
makes no difference, because no two bits go to the same cell.
-/

namespace Chip8VM

/-- The cell of the memory at an address, or the last one if the address lies behind it. -/
def Memory.nearestCell (address : Nat) : Fin 4096 :=
  ⟨min address 4095, Nat.lt_succ_of_le (Nat.min_le_right address 4095)⟩

namespace Machine

/-- What a draw instruction does, bit by bit. The registers and I are read beforehand, and the
flag is down at first. -/
def drawing (m : Machine) (x y : Register) (rows : Nat) : Drawing :=
  let column := (m.register x).toNat
  let row := (m.register y).toNat
  (List.range rows).foldl (fun d down =>
    let bits := m.memory.get (Memory.nearestCell (m.index.toNat + down))
    (List.range 8).foldl (fun d across =>
      d.put ⟨Screen.cellAt (column + across) (row + down), bits.toNat.testBit (7 - across)⟩) d)
    ⟨m.screen, 0⟩

/-- The indices of the cells that the bits go to, in the same order. -/
def targets (m : Machine) (x y : Register) (rows : Nat) : List Nat :=
  (List.range rows).flatMap fun down =>
    (List.range 8).map fun across =>
      ((m.register y).toNat + down) % 32 * 64 + ((m.register x).toNat + across) % 64

theorem length_rows_sprite (m : Machine) (x y : Register) (rows : Nat) :
    (m.sprite x y rows).rows.length = rows := by
  simp [sprite, Memory.readBlock]

theorem height_sprite_le (m : Machine) (x y : Register) (rows : Fin 33) :
    (m.sprite x y rows).rows.length ≤ screenHeight := by
  rw [length_rows_sprite]
  exact Nat.le_of_lt_succ rows.isLt

/-- The pixels of the sprite that is drawn, read off the registers and the memory. -/
theorem pixels_sprite (m : Machine) (x y : Register) (rows : Nat) :
    (m.sprite x y rows).pixels = (List.range rows).flatMap fun down =>
      (List.range 8).map fun across =>
        ⟨Screen.cellAt ((m.register x).toNat + across) ((m.register y).toNat + down),
          (m.memory.get (Memory.nearestCell (m.index.toNat + down))).toNat.testBit
            (7 - across)⟩ := by
  have hbits : ∀ down ∈ List.range rows, (m.sprite x y rows).rows.getD down 0 =
      m.memory.get (Memory.nearestCell (m.index.toNat + down)) := by
    intro down hdown
    rw [List.mem_range] at hdown
    simp only [sprite, Memory.readBlock, List.getD_eq_getElem?_getD, List.getElem?_map,
      List.getElem?_range hdown]
    rfl
  rw [Sprite.pixels, length_rows_sprite]
  change List.map _ (List.flatMap _ _) = _
  rw [List.map_flatMap]
  apply List.flatMap_congr
  intro down hdown
  rw [List.map_map]
  apply List.map_congr_left
  intro across hacross
  exact congrArg (fun bits => Pixel.mk _ (UInt8.toNat bits |>.testBit _)) (hbits down hdown)

theorem drawing_eq_foldl_put (m : Machine) (x y : Register) (rows : Nat) :
    m.drawing x y rows = (m.sprite x y rows).pixels.foldl Drawing.put ⟨m.screen, 0⟩ := by
  rw [pixels_sprite, List.foldl_flatMap]
  simp only [List.foldl_map]
  rfl

theorem targets_eq_map (m : Machine) (x y : Register) (rows : Nat) :
    m.targets x y rows = (m.sprite x y rows).pixels.map fun p => p.cell.val := by
  rw [pixels_sprite, List.map_flatMap]
  simp only [List.map_map]
  rfl

theorem flag_draw (m : Machine) (x y : Register) (rows : Nat) :
    (m.draw x y rows).register flagRegister =
      if m.screen.collides (m.sprite x y rows) then 1 else 0 := by
  simp only [draw, register, setRegister]
  exact Vector.getElem_set_self _

theorem register_draw_of_ne (m : Machine) (x y : Register) (rows : Nat) {k : Register}
    (hk : k ≠ flagRegister) : (m.draw x y rows).register k = m.register k := by
  simp only [draw, register, setRegister]
  exact Vector.getElem_set_ne _ _ (Fin.val_ne_of_ne hk.symm)

/-- A draw instruction is the loop over the rows and the columns of its sprite. The
bits go to different cells, all of them on the screen; no other cell, no register but
the flag and nothing else changes, except that the program goes on. -/
theorem draw_is_bit_by_bit (m : Machine) (x y : Register) (rows : Fin 33) :
    let drawn := m.drawing x y rows
    let targets := m.targets x y rows
    ∃ after, m.execute (.draw x y rows) = .ok after ∧
      after.screen = drawn.screen ∧ after.register flagRegister = drawn.flag ∧
      targets.length = 8 * rows ∧ targets.Nodup ∧ (∀ target ∈ targets, target < 2048) ∧
      (∀ cell : Fin 2048, cell.val ∉ targets → after.screen.get cell = m.screen.get cell) ∧
      (∀ k ≠ flagRegister, after.register k = m.register k) ∧
      after.pc.toNat = (m.pc.toNat + 2) % 0x10000 ∧
      after = { m with screen := after.screen, registers := after.registers, pc := after.pc } := by
  intro drawn targets
  have hheight := m.height_sprite_le x y rows
  have hdrawn : drawn = ⟨m.screen.draw (m.sprite x y rows), _⟩ :=
    (m.drawing_eq_foldl_put x y rows).trans (m.screen.foldl_put_pixels hheight)
  have htargets : targets = (m.sprite x y rows).pixels.map fun p => p.cell.val :=
    m.targets_eq_map x y rows
  refine ⟨(m.draw x y rows).next, rfl, ?_, ?_, ?_, ?_, ?_, ?_, ?_, ?_, ?_⟩
  · rw [hdrawn]
    rfl
  · rw [hdrawn, register_next, flag_draw]
  · rw [htargets, List.length_map, Sprite.length_pixels, length_rows_sprite]
  · have hcells := (Sprite.nodup_cells hheight).map fun _ _ => Fin.ext
    rw [List.map_map] at hcells
    exact htargets ▸ hcells
  · intro target htarget
    rw [htargets] at htarget
    obtain ⟨p, -, rfl⟩ := List.mem_map.mp htarget
    exact p.cell.isLt
  · intro cell hcell
    have hdark : (m.sprite x y rows).bit cell = 0 := by
      rw [Sprite.bit_eq hheight, if_neg]
      intro hmem
      exact hcell (htargets ▸ List.mem_map_of_mem hmem)
    change (m.screen.draw (m.sprite x y rows)).get cell = _
    rw [Screen.get_draw, hdark, UInt8.xor_zero]
  · intro k hk
    rw [register_next, register_draw_of_ne _ _ _ _ hk]
  · exact toNat_pc_next (m.draw x y rows)
  · rfl

end Machine

end Chip8VM
