import Chip8VM.Proofs.Instruction.Encoding
import Chip8VM.Proofs.Text.Reading

/-!
Which words are read as instructions. The pattern of a form gives the four hex
digits of its words: a digit stands for itself and a small letter for any digit.
Reading does not look at the second digit of CLS and RET nor at the last digit
of the skips that compare two registers, and so it also accepts words that no
form's pattern has.
-/

namespace Chip8VM

namespace Word

/-- The hex digits of a word, first the one that names its group. -/
@[simp] def nibbles (w : Nat) : List Nat := [group w, w / 0x100 % 0x10, w / 0x10 % 0x10, nibble w]

/-- Each digit is the one that the pattern asks for in its place, if it asks for
one there. -/
def HasPattern (w : Nat) (pattern : String) : Prop :=
  List.Forall₂ (fun place digit => ∀ value ∈ Text.hexValue? place, digit = value)
    pattern.toList (nibbles w)

instance (w : Nat) (pattern : String) : Decidable (HasPattern w pattern) :=
  inferInstanceAs (Decidable (List.Forall₂ _ _ _))

end Word

namespace Form

/-- The pattern of a form as the instruction set documents it. -/
@[simp] def pattern : Form → String
  | clear => "00E0"
  | ret => "00EE"
  | jump => "1nnn"
  | call => "2nnn"
  | skipEqualByte => "3xkk"
  | skipUnequalByte => "4xkk"
  | skipEqualRegister => "5xy0"
  | loadByte => "6xkk"
  | addByte => "7xkk"
  | assign => "8xy0"
  | or => "8xy1"
  | and => "8xy2"
  | xor => "8xy3"
  | add => "8xy4"
  | sub => "8xy5"
  | shiftRight => "8xy6"
  | subFrom => "8xy7"
  | shiftLeft => "8xyE"
  | skipUnequalRegister => "9xy0"
  | loadIndex => "Annn"
  | jumpOffset => "Bnnn"
  | random => "Cxkk"
  | draw => "Dxyn"
  | skipHeldKey => "Ex9E"
  | skipFreeKey => "ExA1"
  | readDelay => "Fx07"
  | waitKey => "Fx0A"
  | setDelay => "Fx15"
  | sound => "Fx18"
  | addIndex => "Fx1E"
  | glyph => "Fx29"
  | digits => "Fx33"
  | store => "Fx55"
  | load => "Fx65"

/-- The pattern that reading looks for. -/
@[simp] def readPattern : Form → String
  | clear => "0xE0"
  | ret => "0xEE"
  | skipEqualRegister => "5xyn"
  | skipUnequalRegister => "9xyn"
  | form => form.pattern

end Form

namespace Word

/-- The word has the documented pattern of a form. -/
def Documented (w : Nat) : Prop := ∃ form : Form, HasPattern w form.pattern

instance (w : Nat) : Decidable (Documented w) :=
  decidable_of_iff (∃ form ∈ Form.all, HasPattern w form.pattern) (by
    simp only [Form.mem_all, true_and, Documented])

/-- The word is read as a form, but has another digit where the documented
pattern of that form asks for a zero. -/
def Stray (w : Nat) : Prop :=
  ∃ form : Form, HasPattern w form.readPattern ∧ ¬ HasPattern w form.pattern

theorem low_byte_eq (w : Nat) : w % 0x100 = 0x10 * (w / 0x10 % 0x10) + nibble w := by
  simp only [nibble]
  omega

/-- Reading asks for no digit that the documented pattern does not ask for. -/
theorem hasPattern_readPattern {w : Nat} {form : Form} (hpattern : HasPattern w form.pattern) :
    HasPattern w form.readPattern := by
  cases form with
  | clear | ret | skipEqualRegister | skipUnequalRegister =>
      simp [HasPattern, Text.hexValue?] at hpattern
      simp [HasPattern, Text.hexValue?, hpattern]
  | _ => exact hpattern

end Word

namespace Instruction

open Word

theorem form_ofWord?_of_hasPattern {w : Nat} {form : Form}
    (hpattern : HasPattern w form.readPattern) :
    (ofWord? w).map Instruction.form = some form := by
  cases form with
  | clear | ret =>
      simp [HasPattern, Text.hexValue?] at hpattern
      simp [ofWord?, ofSystemWord?, low_byte_eq, hpattern, Instruction.form]
  | assign | or | and | xor | add | sub | shiftRight | subFrom | shiftLeft =>
      simp [HasPattern, Text.hexValue?] at hpattern
      simp [ofWord?, ofRegisterWord?, hpattern, Instruction.form]
  | skipHeldKey | skipFreeKey =>
      simp [HasPattern, Text.hexValue?] at hpattern
      simp [ofWord?, ofKeyWord?, low_byte_eq, hpattern, Instruction.form]
  | readDelay | waitKey | setDelay | sound | addIndex | glyph | digits | store | load =>
      simp [HasPattern, Text.hexValue?] at hpattern
      simp [ofWord?, ofMiscWord?, low_byte_eq, hpattern, Instruction.form]
  | _ =>
      simp [HasPattern, Text.hexValue?] at hpattern
      simp [ofWord?, hpattern, Instruction.form]

theorem hasPattern_of_ofSystemWord? {w : Nat} {i : Instruction} (hgroup : group w = 0x0)
    (hword : ofSystemWord? w = some i) : HasPattern w i.form.readPattern := by
  unfold ofSystemWord? at hword
  split at hword <;> cases hword
  all_goals
    simp [HasPattern, Text.hexValue?, Instruction.form, hgroup, nibble]
    omega

theorem hasPattern_of_ofRegisterWord? {w : Nat} {i : Instruction} (hgroup : group w = 0x8)
    (hword : ofRegisterWord? w = some i) : HasPattern w i.form.readPattern := by
  unfold ofRegisterWord? at hword
  dsimp only at hword
  split at hword <;> cases hword
  all_goals
    simp [HasPattern, Text.hexValue?, Instruction.form, *]

theorem hasPattern_of_ofKeyWord? {w : Nat} {i : Instruction} (hgroup : group w = 0xE)
    (hword : ofKeyWord? w = some i) : HasPattern w i.form.readPattern := by
  unfold ofKeyWord? at hword
  split at hword <;> cases hword
  all_goals
    simp [HasPattern, Text.hexValue?, Instruction.form, hgroup, nibble]
    omega

theorem hasPattern_of_ofMiscWord? {w : Nat} {i : Instruction} (hgroup : group w = 0xF)
    (hword : ofMiscWord? w = some i) : HasPattern w i.form.readPattern := by
  unfold ofMiscWord? at hword
  dsimp only at hword
  split at hword <;> cases hword
  all_goals
    simp [HasPattern, Text.hexValue?, Instruction.form, hgroup, nibble]
    omega

theorem hasPattern_of_ofWord? {w : Nat} {i : Instruction} (hword : ofWord? w = some i) :
    HasPattern w i.form.readPattern := by
  unfold ofWord? at hword
  split at hword
  case h_1 hgroup => exact hasPattern_of_ofSystemWord? hgroup hword
  case h_9 hgroup => exact hasPattern_of_ofRegisterWord? hgroup hword
  case h_15 hgroup => exact hasPattern_of_ofKeyWord? hgroup hword
  case h_16 hgroup => exact hasPattern_of_ofMiscWord? hgroup hword
  case h_17 => cases hword
  all_goals
    obtain rfl := Option.some.inj hword
    simp [HasPattern, Text.hexValue?, Instruction.form, *]

/-- A word is read as an instruction of the form whose pattern reading finds in it. -/
theorem form_ofWord?_iff {w : Nat} {form : Form} :
    (ofWord? w).map Instruction.form = some form ↔ HasPattern w form.readPattern := by
  constructor
  · intro hword
    obtain ⟨i, hi, rfl⟩ := Option.map_eq_some_iff.mp hword
    exact hasPattern_of_ofWord? hi
  · exact form_ofWord?_of_hasPattern

end Instruction

namespace Word

theorem exists_decode_iff {opcode : Int} {form : Form} :
    (∃ decoded, decode opcode = .ok decoded ∧ decoded.instruction.form = form) ↔
      HasPattern (ofOpcode opcode) form.readPattern := by
  rw [← Instruction.form_ofWord?_iff]
  cases hword : Instruction.ofWord? (ofOpcode opcode) with
  | none => simp [decode_of_ofWord?_eq_none hword]
  | some i => simp [decode_of_ofWord? hword]

/-- No word is read as two forms. -/
theorem eq_of_hasPattern_readPattern {w : Nat} {form other : Form}
    (hform : HasPattern w form.readPattern) (hother : HasPattern w other.readPattern) :
    form = other := by
  rw [← Instruction.form_ofWord?_iff] at hform hother
  exact Option.some.inj (hform.symm.trans hother)

theorem not_stray_of_documented {w : Nat} (hdocumented : Documented w) : ¬ Stray w := by
  rintro ⟨form, hread, hother⟩
  obtain ⟨documented, hpattern⟩ := hdocumented
  have hsame := eq_of_hasPattern_readPattern hread (hasPattern_readPattern hpattern)
  apply hother
  rw [hsame]
  exact hpattern

end Word

open Word

/-- The opcodes that are accepted are those with a documented word and besides them
the stray ones: words of CLS and RET with a second digit other than zero, and of SE
and SNE for two registers with a last digit other than zero. No stray word is
documented. An opcode is read as the form whose pattern reading finds in its word,
and every opcode that is neither documented nor stray is an error. -/
theorem decode_accepts_documented_and_stray (opcode : Int) :
    ((∃ decoded, decode opcode = .ok decoded) ↔
      Documented (ofOpcode opcode) ∨ Stray (ofOpcode opcode)) ∧
    ¬ (Documented (ofOpcode opcode) ∧ Stray (ofOpcode opcode)) ∧
    (∀ form : Form,
      (∃ decoded, decode opcode = .ok decoded ∧ decoded.instruction.form = form) ↔
        HasPattern (ofOpcode opcode) form.readPattern) ∧
    (decode opcode = .error (.unrecognizedOpcode opcode) ↔
      ¬ Documented (ofOpcode opcode) ∧ ¬ Stray (ofOpcode opcode)) := by
  have haccepted : (∃ decoded, decode opcode = .ok decoded) ↔
      Documented (ofOpcode opcode) ∨ Stray (ofOpcode opcode) := by
    constructor
    · rintro ⟨decoded, hdecode⟩
      have hread := exists_decode_iff.mp ⟨decoded, hdecode, rfl⟩
      by_cases hpattern : HasPattern (ofOpcode opcode) decoded.instruction.form.pattern
      · exact .inl ⟨_, hpattern⟩
      · exact .inr ⟨_, hread, hpattern⟩
    · intro haccepted
      have hread : ∃ form : Form, HasPattern (ofOpcode opcode) form.readPattern := by
        rcases haccepted with ⟨form, hpattern⟩ | ⟨form, hread, _⟩
        · exact ⟨form, hasPattern_readPattern hpattern⟩
        · exact ⟨form, hread⟩
      obtain ⟨form, hform⟩ := hread
      obtain ⟨decoded, hdecode, _⟩ := exists_decode_iff.mpr hform
      exact ⟨decoded, hdecode⟩
  have herror : decode opcode = .error (.unrecognizedOpcode opcode) ↔
      ¬ ∃ decoded, decode opcode = .ok decoded := by
    cases hword : Instruction.ofWord? (ofOpcode opcode) with
    | none => simp [decode_of_ofWord?_eq_none hword]
    | some i => simp [decode_of_ofWord? hword]
  refine ⟨haccepted, ?_, fun form => exists_decode_iff, ?_⟩
  · rintro ⟨hdocumented, hstray⟩
    exact not_stray_of_documented hdocumented hstray
  · rw [herror, haccepted, not_or]

/-- Stray words of CLS, SE and SNE. -/
theorem accepts_undocumented_words :
    (decode 0x01E0 = .ok ⟨0x01E0, .clear⟩ ∧ ¬ Documented (ofOpcode 0x01E0)) ∧
    (decode 0x5121 = .ok ⟨0x5121, .skipRegister .holds 1 2⟩ ∧
      ¬ Documented (ofOpcode 0x5121)) ∧
    (decode 0x9121 = .ok ⟨0x9121, .skipRegister .fails 1 2⟩ ∧
      ¬ Documented (ofOpcode 0x9121)) := by
  decide

end Chip8VM
