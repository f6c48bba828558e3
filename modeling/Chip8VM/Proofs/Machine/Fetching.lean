import Chip8VM.Machine.Basic
import Chip8VM.Proofs.Instruction.Encoding
import Chip8VM.Proofs.Instruction.Recognition

/-!
What a machine fetches. A fetched opcode is a word of sixteen bits. If it has the
documented pattern of a form, it is read as an instruction of that form, and the operands
of an instruction are the fields of its word.
-/

namespace Chip8VM.Machine

variable (m : Machine)

theorem fetch_lt : m.fetch < 0x10000 := by
  have hhigh := (m.memory.read m.pc.toNat).toNat_lt
  have hlow := (m.memory.read (m.pc.toNat + 1)).toNat_lt
  rw [fetch, Memory.readWord]
  omega

theorem ofOpcode_fetch : Word.ofOpcode m.fetch = m.fetch :=
  Word.ofOpcode_of_lt m.fetch_lt

theorem form_of_decode_fetch {decoded : Decoded} {form : Form}
    (hdecode : decode m.fetch = .ok decoded) (hpattern : Word.HasPattern m.fetch form.pattern) :
    decoded.instruction.form = form := by
  have hread := Word.exists_decode_iff.mp ⟨decoded, hdecode, rfl⟩
  rw [m.ofOpcode_fetch] at hread
  exact Word.eq_of_hasPattern_readPattern hread (Word.hasPattern_readPattern hpattern)

theorem operands_of_decode_fetch {decoded : Decoded} (hdecode : decode m.fetch = .ok decoded) :
    decoded.instruction.operands = decoded.instruction.form.fields m.fetch := by
  rw [← m.ofOpcode_fetch]
  exact Instruction.operands_of_ofWord? (ofWord?_of_decode hdecode)

/-- An address that is fetched with its instruction is the last three digits of the opcode. -/
theorem toNat_of_decode_fetch {decoded : Decoded} {a : Address}
    (hdecode : decode m.fetch = .ok decoded)
    (haddress : decoded.instruction ∈ [.jump a, .call a, .jumpOffset a, .loadIndex a]) :
    a.toNat = m.fetch % 0x1000 := by
  have hoperands := m.operands_of_decode_fetch hdecode
  simp only [List.mem_cons, List.not_mem_nil, or_false] at haddress
  rcases haddress with hinstruction | hinstruction | hinstruction | hinstruction
  all_goals
    rw [hinstruction] at hoperands
    exact (List.cons.inj hoperands).1

end Chip8VM.Machine
