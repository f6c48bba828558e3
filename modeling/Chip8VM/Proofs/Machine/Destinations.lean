import Chip8VM.Proofs.Machine.Addresses
import Chip8VM.Proofs.Machine.Arithmetic
import Chip8VM.Proofs.Machine.Drawing
import Chip8VM.Proofs.Machine.Frame
import Chip8VM.Proofs.Machine.Transfer
import Chip8VM.Proofs.Processor.Subroutine

/-!
The destinations of an instruction, as its form and the digits of its opcode name them.
Whatever else there is in the machine stays as it is, the program counter apart. Sums of
a register and a byte and operations on bits leave the flag register alone, and transfers
of registers leave I alone.
-/

namespace Chip8VM

/-- The registers that instructions of a form write, if x is their first operand. -/
def Form.destinations (x : Register) : Form → List Register
  | loadByte | addByte | assign | or | and | xor | random | readDelay | waitKey => [x]
  | add | sub | subFrom | shiftRight | shiftLeft => [x, flagRegister]
  | draw => [flagRegister]
  | load => (List.finRange 16).filter (· ≤ x)
  | _ => []

/-- The cells in which two screens differ. -/
def Screen.changes (screen other : Screen) : List (Fin 2048) :=
  (List.finRange 2048).filter fun cell => screen.get cell ≠ other.get cell

/-- A sprite changes only cells that it has a pixel for. -/
theorem Screen.length_changes_draw_le (screen : Screen) {sprite : Sprite}
    (hheight : sprite.rows.length ≤ screenHeight) :
    (screen.changes (screen.draw sprite)).length ≤ 8 * sprite.rows.length := by
  have hnodup : (screen.changes (screen.draw sprite)).Nodup := (List.nodup_finRange 2048).filter _
  have hpixels : screen.changes (screen.draw sprite) ⊆ sprite.pixels.map Pixel.cell := by
    intro cell hcell
    have hchanged := of_decide_eq_true (List.mem_filter.mp hcell).2
    by_contra hother
    have hdark : sprite.bit cell = 0 := by
      rw [Sprite.bit_eq hheight, if_neg fun hpixel => hother (List.mem_map_of_mem hpixel)]
    rw [get_draw, hdark, UInt8.xor_zero] at hchanged
    exact hchanged rfl
  have hlength := (List.subperm_of_subset hnodup hpixels).length_le
  rwa [List.length_map, Sprite.length_pixels] at hlength

namespace Machine

variable {m after : Machine} {instruction : Instruction}

theorem register_awaitKey (x k : Register) (hk : k ∉ [x]) :
    (m.awaitKey x).register k = m.register k := by
  obtain hstay | ⟨value, hgo⟩ := m.awaitKey_cases x
  · rw [hstay]
  · rw [hgo]
    exact (m.setsOnly_setRegister x value).kept k hk

theorem register_shift (direction : ShiftDirection) (x k : Register) (hk : k ∉ [x, flagRegister]) :
    (m.shift direction x).register k = m.register k := by
  simp only [List.mem_cons, List.not_mem_nil, or_false, not_or] at hk
  rw [shift, register_setRegister_of_ne _ hk.1, register_setRegister_of_ne _ hk.2]

/-- The fields of the word tell which registers an instruction may write. -/
theorem register_of_execute {w : Nat} (hoperands : instruction.operands = instruction.form.fields w)
    (hexecute : m.execute instruction = .ok after) {k : Register}
    (hk : k ∉ instruction.form.destinations (Word.registerX w)) :
    after.register k = m.register k := by
  cases instruction with
  | ret =>
      obtain ⟨address, rest, hpop, rfl⟩ := (m.ret_eq_ok_iff after).mp hexecute
      rfl
  | loadByte x _ | addByte x _ | random x _ | readDelay x =>
      obtain rfl := Except.ok.inj hexecute
      obtain rfl : x = Word.registerX w := Fin.ext (List.cons.inj hoperands).1
      exact (m.setsOnly_setRegister _ _).kept k hk
  | waitKey x =>
      obtain rfl := Except.ok.inj hexecute
      obtain rfl : x = Word.registerX w := Fin.ext (List.cons.inj hoperands).1
      exact register_awaitKey _ _ hk
  | logic op x y =>
      obtain rfl := Except.ok.inj hexecute
      cases op
      all_goals
        obtain rfl : x = Word.registerX w := Fin.ext (List.cons.inj hoperands).1
        exact (m.setsOnly_setRegister _ _).kept k hk
  | arithmetic op x y =>
      obtain rfl := Except.ok.inj hexecute
      cases op
      all_goals
        obtain rfl : x = Word.registerX w := Fin.ext (List.cons.inj hoperands).1
        exact (m.setsOnly_setWithFlag _ _ _).kept k hk
  | shift direction x =>
      obtain rfl := Except.ok.inj hexecute
      cases direction
      all_goals
        obtain rfl : x = Word.registerX w := Fin.ext (List.cons.inj hoperands).1
        exact register_shift _ _ _ hk
  | draw x y rows =>
      obtain rfl := Except.ok.inj hexecute
      rw [register_next]
      exact register_draw_of_ne m x y rows (by simpa [Form.destinations, Instruction.form] using hk)
  | load x =>
      obtain rfl := Except.ok.inj hexecute
      obtain rfl : x = Word.registerX w := Fin.ext (List.cons.inj hoperands).1
      rw [register_next, register_loadRegisters, if_neg]
      simpa [Form.destinations, Instruction.form] using hk
  | _ =>
      obtain rfl := Except.ok.inj hexecute
      rfl

theorem index_of_execute (hexecute : m.execute instruction = .ok after)
    (hform : instruction.form ∉ [.loadIndex, .addIndex, .glyph]) : after.index = m.index := by
  have hindex := toNat_index_of_execute hexecute
  rw [← UInt16.toNat_inj, hindex]
  cases instruction with
  | loadIndex | addIndex | glyph => exact absurd (by simp [Instruction.form]) hform
  | _ => rfl

theorem memory_of_execute (hexecute : m.execute instruction = .ok after)
    (hform : instruction.form ∉ [.digits, .store]) : after.memory = m.memory := by
  rw [execute_memory hexecute]
  cases instruction with
  | digits | store => exact absurd (by simp [Instruction.form]) hform
  | _ => rfl

theorem stack_of_execute (hexecute : m.execute instruction = .ok after)
    (hform : instruction.form ∉ [.call, .ret]) : after.stack = m.stack := by
  obtain hsame | ⟨target, rfl, -⟩ | ⟨rfl, -⟩ := execute_stack hexecute
  · exact hsame
  · exact absurd (by simp [Instruction.form]) hform
  · exact absurd (by simp [Instruction.form]) hform

/-- A draw changes at most eight cells for each of the rows that its opcode asks for. -/
theorem length_changes_of_draw {w : Nat} {x y : Register} {rows : Fin 33}
    (hoperands : (Instruction.draw x y rows).operands = Form.draw.fields w)
    (hexecute : m.execute (.draw x y rows) = .ok after) :
    (m.screen.changes after.screen).length ≤ 8 * Word.nibble w := by
  have hscreen : after.screen = m.screen.draw (m.sprite x y rows) := by
    rw [← Except.ok.inj hexecute]
    rfl
  have hrows : rows.val = Word.nibble w :=
    (List.cons.inj (List.cons.inj (List.cons.inj hoperands).2).2).1
  have hlength := m.screen.length_changes_draw_le (m.height_sprite_le x y rows)
  rwa [← hscreen, length_rows_sprite, hrows] at hlength

/-- What a step can change. The form that the opcode is read as, which is the documented
one if there is one, and the digits of the opcode tell the destinations of an
instruction; no other register and no other part of the machine changes, apart from the
program counter. A draw changes at most as many cells of the screen as it has pixels. The
sound timer and the keypad are the destinations of no instruction. -/
theorem step_changes_only_destinations {decoded : Decoded}
    (hstep : m.step = .ok (decoded, after)) :
    let form := decoded.instruction.form
    (∀ documented : Form, Word.HasPattern m.fetch documented.pattern → form = documented) ∧
    (∀ k ∉ form.destinations (Word.registerX m.fetch), after.register k = m.register k) ∧
    (form ∉ [.loadIndex, .addIndex, .glyph] → after.index = m.index) ∧
    (form ∉ [.digits, .store] → after.memory = m.memory) ∧
    (form ∉ [.clear, .draw] → after.screen = m.screen) ∧
    (∀ x y rows, decoded.instruction = .draw x y rows →
      (m.screen.changes after.screen).length ≤ 8 * Word.nibble m.fetch) ∧
    (form ∉ [.call, .ret] → after.stack = m.stack) ∧
    (form ≠ .random → after.random = m.random) ∧
    (form ≠ .setDelay → after.delay = m.delay) ∧
    after.sound = m.sound ∧ after.keypad = m.keypad ∧ after.speaker = m.speaker := by
  intro form
  obtain ⟨hdecode, hexecute⟩ := (m.step_eq_ok_iff decoded after).mp hstep
  have hoperands := m.operands_of_decode_fetch hdecode
  have hframe := execute_frame hexecute
  refine ⟨fun _ => m.form_of_decode_fetch hdecode, ?_, index_of_execute hexecute,
    memory_of_execute hexecute, ?_, ?_, stack_of_execute hexecute, ?_, ?_, hframe.sound,
    hframe.keypad, hframe.speaker⟩
  · intro k hk
    exact register_of_execute hoperands hexecute hk
  · intro hform
    simp only [List.mem_cons, List.not_mem_nil, or_false, not_or] at hform
    apply hframe.screen
    · intro hclear
      exact hform.1 (congrArg Instruction.form hclear)
    · intro x y rows hdraw
      exact hform.2 (congrArg Instruction.form hdraw)
  · intro x y rows hdraw
    rw [hdraw] at hoperands hexecute
    exact length_changes_of_draw hoperands hexecute
  · intro hform
    apply hframe.random
    intro x mask hrandom
    exact hform (congrArg Instruction.form hrandom)
  · intro hform
    apply hframe.delay
    intro x hdelay
    exact hform (congrArg Instruction.form hdelay)

/-- A draw of one row, which finds its bits behind itself. -/
theorem one_row_changes_eight_cells_at_most :
    let m : Machine := { Machine.holding [0xD1, 0x21] with index := 0x200 }
    ∃ after, m.step = .ok (⟨0xD121, .draw 1 2 1⟩, after) ∧
      (m.screen.changes after.screen).length ≤ 8 ∧ after.register 1 = m.register 1 ∧
      after.index = m.index ∧ after.memory = m.memory ∧ after.stack = m.stack := by
  intro m
  have hdecode : decode m.fetch = .ok ⟨0xD121, .draw 1 2 1⟩ := by decide +kernel
  have hstep := (m.step_eq_ok_iff _ _).mpr ⟨hdecode, rfl⟩
  have hnibble : Word.nibble m.fetch = 1 := by decide +kernel
  obtain ⟨_, hregisters, hindex, hmemory, _, hscreen, hstack, _⟩ :=
    step_changes_only_destinations hstep
  have hcells := hscreen 1 2 1 rfl
  rw [hnibble] at hcells
  exact ⟨_, hstep, hcells, hregisters 1 (by decide), hindex (by decide), hmemory (by decide),
    hstack (by decide)⟩

end Machine

end Chip8VM
