import Chip8VM.Instruction.Mnemonic
import Chip8VM.Instruction.Word
import Mathlib.Data.List.Forall2

/-!
Instructions as words. A word has a field for each operand, smaller than what the
machine could use as an operand; an instruction whose operands fit into the
fields has a word of its own, and reading that word gives the instruction back.
Reading looks at the lowest sixteen bits of an opcode, and whatever it finds there
fits into a word again.
-/

namespace Chip8VM

/-- The number of values that fit into the field of an operand of this kind. -/
def OperandKind.fieldSize : OperandKind → Nat
  | register | target | block | rows => 0x10
  | byte => 0x100
  | address | base => 0x1000

namespace Form

/-- The operands are as many as the form has, and each fits into its field. -/
def Fits (form : Form) (operands : List Nat) : Prop :=
  List.Forall₂ (fun kind n => n < kind.fieldSize) form.operandKinds operands

/-- The operands that a word has for a form. -/
def fields (w : Nat) : Form → List Nat
  | clear | ret => []
  | jump | call | jumpOffset | loadIndex => [w % 0x1000]
  | skipEqualByte | skipUnequalByte | loadByte | addByte | random =>
      [w / 0x100 % 0x10, w % 0x100]
  | skipEqualRegister | skipUnequalRegister | assign | or | and | xor | add | sub | subFrom =>
      [w / 0x100 % 0x10, w / 0x10 % 0x10]
  | draw => [w / 0x100 % 0x10, w / 0x10 % 0x10, w % 0x10]
  | _ => [w / 0x100 % 0x10]

theorem fits_fields (form : Form) (w : Nat) : form.Fits (form.fields w) := by
  cases form with
  | clear | ret => exact .nil
  | jump | call | jumpOffset | loadIndex => exact .cons (Nat.mod_lt _ (by decide)) .nil
  | skipEqualByte | skipUnequalByte | loadByte | addByte | random | skipEqualRegister
  | skipUnequalRegister | assign | or | and | xor | add | sub | subFrom =>
      exact .cons (Nat.mod_lt _ (by decide)) (.cons (Nat.mod_lt _ (by decide)) .nil)
  | draw =>
      exact .cons (Nat.mod_lt _ (by decide)) (.cons (Nat.mod_lt _ (by decide))
        (.cons (Nat.mod_lt _ (by decide)) .nil))
  | _ => exact .cons (Nat.mod_lt _ (by decide)) .nil

/-- The word for a form with some operands, if there is an instruction of that
kind. -/
def encode? (form : Form) (operands : List Nat) : Option Nat :=
  (form.instruction? operands).map Instruction.word

theorem exists_of_fits {form : Form} {operands : List Nat} (hfits : form.Fits operands) :
    ∃ instruction, form.instruction? operands = some instruction ∧
      instruction.form = form ∧ instruction.operands = operands := by
  cases form with
  | clear | ret =>
      obtain rfl := List.forall₂_nil_left_iff.mp hfits
      exact ⟨_, rfl, rfl, rfl⟩
  | jump | call | jumpOffset | loadIndex =>
      obtain ⟨a, _, ha, hnil, rfl⟩ := List.forall₂_cons_left_iff.mp hfits
      obtain rfl := List.forall₂_nil_left_iff.mp hnil
      have hrange : a < 0x10000 := Nat.lt_trans ha (by decide)
      exact ⟨_, dif_pos hrange, rfl, rfl⟩
  | skipEqualByte | skipUnequalByte | loadByte | addByte | random =>
      obtain ⟨x, _, hx, hrest, rfl⟩ := List.forall₂_cons_left_iff.mp hfits
      obtain ⟨b, _, hb, hnil, rfl⟩ := List.forall₂_cons_left_iff.mp hrest
      obtain rfl := List.forall₂_nil_left_iff.mp hnil
      exact ⟨_, dif_pos ⟨hx, hb⟩, rfl, rfl⟩
  | skipEqualRegister | skipUnequalRegister | assign | or | and | xor | add | sub | subFrom =>
      obtain ⟨x, _, hx, hrest, rfl⟩ := List.forall₂_cons_left_iff.mp hfits
      obtain ⟨y, _, hy, hnil, rfl⟩ := List.forall₂_cons_left_iff.mp hrest
      obtain rfl := List.forall₂_nil_left_iff.mp hnil
      exact ⟨_, dif_pos ⟨hx, hy⟩, rfl, rfl⟩
  | draw =>
      obtain ⟨x, _, hx, hrest, rfl⟩ := List.forall₂_cons_left_iff.mp hfits
      obtain ⟨y, _, hy, hlast, rfl⟩ := List.forall₂_cons_left_iff.mp hrest
      obtain ⟨n, _, hn, hnil, rfl⟩ := List.forall₂_cons_left_iff.mp hlast
      obtain rfl := List.forall₂_nil_left_iff.mp hnil
      have hrange : n < 33 := Nat.lt_trans hn (by decide)
      exact ⟨_, dif_pos ⟨hx, hy, hrange⟩, rfl, rfl⟩
  | _ =>
      obtain ⟨x, _, hx, hnil, rfl⟩ := List.forall₂_cons_left_iff.mp hfits
      obtain rfl := List.forall₂_nil_left_iff.mp hnil
      exact ⟨_, dif_pos hx, rfl, rfl⟩

end Form

/-! What is read from a word, by the layout of its operands. The constant holds the
bits that tell the instructions of a group apart. -/

namespace Word

theorem fields_of_address {c : Nat} {a : Address} (hconstant : c % 0x1000 = 0)
    (ha : a.toNat < 0x1000) :
    group (c + a.toNat % 0x1000) = c / 0x1000 % 0x10 ∧ address (c + a.toNat % 0x1000) = a := by
  simp only [group, address, ← UInt16.toNat_inj, UInt16.toNat_ofNat']
  omega

theorem fields_of_register {c : Nat} {x : Register} (hconstant : c % 0x1000 < 0x100) :
    group (c + 0x100 * x) = c / 0x1000 % 0x10 ∧ registerX (c + 0x100 * x) = x ∧
      (c + 0x100 * x) % 0x100 = c % 0x100 ∧ nibble (c + 0x100 * x) = c % 0x10 := by
  simp only [group, registerX, nibble, Fin.ext_iff]
  omega

theorem fields_of_byte {c : Nat} {x : Register} {b : UInt8} (hconstant : c % 0x1000 = 0) :
    group (c + 0x100 * x + b.toNat) = c / 0x1000 % 0x10 ∧
      registerX (c + 0x100 * x + b.toNat) = x ∧ byte (c + 0x100 * x + b.toNat) = b := by
  have hb := b.toNat_lt
  simp only [group, registerX, byte, Fin.ext_iff, ← UInt8.toNat_inj, UInt8.toNat_ofNat']
  omega

theorem fields_of_registers {c : Nat} {x y : Register} (hconstant : c % 0x1000 < 0x10) :
    group (c + 0x100 * x + 0x10 * y) = c / 0x1000 % 0x10 ∧
      registerX (c + 0x100 * x + 0x10 * y) = x ∧ registerY (c + 0x100 * x + 0x10 * y) = y ∧
      nibble (c + 0x100 * x + 0x10 * y) = c % 0x10 := by
  simp only [group, registerX, registerY, nibble, Fin.ext_iff]
  omega

theorem fields_of_rows {c : Nat} {x y : Register} {n : Fin 33} (hconstant : c % 0x1000 = 0)
    (hn : n.val < 0x10) :
    group (c + 0x100 * x + 0x10 * y + n % 0x10) = c / 0x1000 % 0x10 ∧
      registerX (c + 0x100 * x + 0x10 * y + n % 0x10) = x ∧
      registerY (c + 0x100 * x + 0x10 * y + n % 0x10) = y ∧
      rows (c + 0x100 * x + 0x10 * y + n % 0x10) = n := by
  simp only [group, registerX, registerY, rows, Fin.ext_iff]
  omega

theorem toNat_address (w : Nat) : (address w).toNat = w % 0x1000 := by
  simp only [address, UInt16.toNat_ofNat']
  omega

theorem toNat_byte (w : Nat) : (byte w).toNat = w % 0x100 :=
  UInt8.toNat_ofNat'

end Word

namespace Instruction

open Word

/-- Addresses and heights of sprites are the operands that may be too large for
their fields. -/
def Narrow : Instruction → Prop
  | jump a | call a | jumpOffset a | loadIndex a => a.toNat < 0x1000
  | draw _ _ rows => rows.val < 0x10
  | _ => True

theorem fits_iff_narrow (i : Instruction) : i.form.Fits i.operands ↔ i.Narrow := by
  cases i with
  | clear | ret => exact iff_of_true .nil trivial
  | jump a | call a | jumpOffset a | loadIndex a =>
      exact ⟨fun hfits => (List.forall₂_cons.mp hfits).1, fun hnarrow => .cons hnarrow .nil⟩
  | draw x y rows =>
      constructor
      · intro hfits
        exact (List.forall₂_cons.mp (List.forall₂_cons.mp (List.forall₂_cons.mp hfits).2).2).1
      · intro hnarrow
        exact .cons x.isLt (.cons y.isLt (.cons hnarrow .nil))
  | skipByte sense x b =>
      cases sense <;> exact iff_of_true (.cons x.isLt (.cons b.toNat_lt .nil)) trivial
  | loadByte x b | addByte x b | random x b =>
      exact iff_of_true (.cons x.isLt (.cons b.toNat_lt .nil)) trivial
  | skipRegister sense x y =>
      cases sense <;> exact iff_of_true (.cons x.isLt (.cons y.isLt .nil)) trivial
  | logic op x y =>
      cases op <;> exact iff_of_true (.cons x.isLt (.cons y.isLt .nil)) trivial
  | arithmetic op x y =>
      cases op <;> exact iff_of_true (.cons x.isLt (.cons y.isLt .nil)) trivial
  | skipKey sense x => cases sense <;> exact iff_of_true (.cons x.isLt .nil) trivial
  | shift direction x => cases direction <;> exact iff_of_true (.cons x.isLt .nil) trivial
  | addIndex x | glyph x | readDelay x | setDelay x | waitKey x | sound x | digits x | store x
  | load x => exact iff_of_true (.cons x.isLt .nil) trivial

/-- Reading the word of an instruction gives the instruction back. -/
theorem ofWord?_word {i : Instruction} (hnarrow : i.Narrow) : ofWord? i.word = some i := by
  cases i with
  | clear | ret => rfl
  | jump a | call a | jumpOffset a | loadIndex a =>
      have ha : a.toNat < 0x1000 := hnarrow
      simp [word, ofWord?, fields_of_address, ha]
  | draw x y n =>
      have hn : n.val < 0x10 := hnarrow
      simp [word, ofWord?, fields_of_rows, hn]
  | skipByte sense x b => cases sense <;> simp [word, ofWord?, fields_of_byte]
  | loadByte x b | addByte x b | random x b => simp [word, ofWord?, fields_of_byte]
  | skipRegister sense x y => cases sense <;> simp [word, ofWord?, fields_of_registers]
  | logic op x y => cases op <;> simp [word, ofWord?, ofRegisterWord?, fields_of_registers]
  | arithmetic op x y => cases op <;> simp [word, ofWord?, ofRegisterWord?, fields_of_registers]
  | shift direction x =>
      cases direction <;> simp [word, ofWord?, ofRegisterWord?, fields_of_register]
  | skipKey sense x => cases sense <;> simp [word, ofWord?, ofKeyWord?, fields_of_register]
  | addIndex x | glyph x | readDelay x | setDelay x | waitKey x | sound x | digits x | store x
  | load x => simp [word, ofWord?, ofMiscWord?, fields_of_register]

theorem word_lt (i : Instruction) : i.word < 0x10000 := by
  cases i with
  | clear | ret => decide
  | skipByte sense x b =>
      have hb := b.toNat_lt
      cases sense <;> simp only [word] <;> omega
  | loadByte x b | addByte x b | random x b =>
      have hb := b.toNat_lt
      simp only [word]
      omega
  | skipRegister sense x y => cases sense <;> simp only [word] <;> omega
  | logic op x y => cases op <;> simp only [word] <;> omega
  | arithmetic op x y => cases op <;> simp only [word] <;> omega
  | skipKey sense x => cases sense <;> simp only [word] <;> omega
  | shift direction x => cases direction <;> simp only [word] <;> omega
  | _ =>
      simp only [word]
      omega

theorem operands_of_ofSystemWord? {w : Nat} {i : Instruction} (hword : ofSystemWord? w = some i) :
    i.operands = i.form.fields w := by
  unfold ofSystemWord? at hword
  split at hword <;> cases hword <;> rfl

theorem operands_of_ofRegisterWord? {w : Nat} {i : Instruction}
    (hword : ofRegisterWord? w = some i) : i.operands = i.form.fields w := by
  unfold ofRegisterWord? at hword
  dsimp only at hword
  split at hword <;> cases hword <;> rfl

theorem operands_of_ofKeyWord? {w : Nat} {i : Instruction} (hword : ofKeyWord? w = some i) :
    i.operands = i.form.fields w := by
  unfold ofKeyWord? at hword
  split at hword <;> cases hword <;> rfl

theorem operands_of_ofMiscWord? {w : Nat} {i : Instruction} (hword : ofMiscWord? w = some i) :
    i.operands = i.form.fields w := by
  unfold ofMiscWord? at hword
  dsimp only at hword
  split at hword <;> cases hword <;> rfl

/-- What is read from a word has its operands from the fields of the word. -/
theorem operands_of_ofWord? {w : Nat} {i : Instruction} (hword : ofWord? w = some i) :
    i.operands = i.form.fields w := by
  unfold ofWord? at hword
  split at hword
  case h_1 => exact operands_of_ofSystemWord? hword
  case h_9 => exact operands_of_ofRegisterWord? hword
  case h_15 => exact operands_of_ofKeyWord? hword
  case h_16 => exact operands_of_ofMiscWord? hword
  case h_17 => cases hword
  all_goals
    obtain rfl := Option.some.inj hword
    simp [operands, form, Form.fields, toNat_address, toNat_byte, registerX, registerY, rows]

theorem narrow_of_ofWord? {w : Nat} {i : Instruction} (hword : ofWord? w = some i) :
    i.Narrow := by
  rw [← fits_iff_narrow, operands_of_ofWord? hword]
  exact i.form.fits_fields w

end Instruction

theorem Word.ofOpcode_emod (opcode : Int) : ofOpcode (opcode % 0x10000) = ofOpcode opcode := by
  simp only [ofOpcode, Int.emod_emod]

theorem Word.ofOpcode_of_lt {w : Nat} (hw : w < 0x10000) : ofOpcode w = w := by
  simp only [ofOpcode]
  omega

theorem decode_of_ofWord? {opcode : Int} {instruction : Instruction}
    (hword : Instruction.ofWord? (Word.ofOpcode opcode) = some instruction) :
    decode opcode = .ok ⟨opcode, instruction⟩ := by
  simp only [decode, hword]

theorem decode_of_ofWord?_eq_none {opcode : Int}
    (hword : Instruction.ofWord? (Word.ofOpcode opcode) = none) :
    decode opcode = .error (.unrecognizedOpcode opcode) := by
  simp only [decode, hword]

theorem decode_word {i : Instruction} (hnarrow : i.Narrow) :
    decode i.word = .ok ⟨i.word, i⟩ := by
  apply decode_of_ofWord?
  rw [Word.ofOpcode_of_lt i.word_lt]
  exact Instruction.ofWord?_word hnarrow

theorem ofWord?_of_decode {opcode : Int} {decoded : Decoded}
    (hdecode : decode opcode = .ok decoded) :
    Instruction.ofWord? (Word.ofOpcode opcode) = some decoded.instruction := by
  cases hword : Instruction.ofWord? (Word.ofOpcode opcode) with
  | none =>
      rw [decode_of_ofWord?_eq_none hword] at hdecode
      cases hdecode
  | some i =>
      rw [decode_of_ofWord? hword] at hdecode
      cases hdecode
      rfl

theorem narrow_of_decode {opcode : Int} {decoded : Decoded}
    (hdecode : decode opcode = .ok decoded) : decoded.instruction.Narrow :=
  Instruction.narrow_of_ofWord? (ofWord?_of_decode hdecode)

/-- Reading inverts writing, over the whole instruction set. A form with operands
that fit has a word, and that word is read as this form with these operands. An
opcode of any size or sign is read like its lowest sixteen bits, and only the
opcode itself, in the result or in the error, shows the difference; the operands
that are read fit again, and so they have a word that is read in the same way. -/
theorem decode_inverts_encode :
    (∀ (form : Form) (operands : List Nat), form.Fits operands →
      ∃ w instruction, form.encode? operands = some w ∧ decode w = .ok ⟨w, instruction⟩ ∧
        instruction.form = form ∧ instruction.operands = operands) ∧
    (∀ opcode : Int,
      (∃ instruction, decode opcode = .ok ⟨opcode, instruction⟩ ∧
        decode (opcode % 0x10000) = .ok ⟨opcode % 0x10000, instruction⟩ ∧
        instruction.form.Fits instruction.operands ∧
        ∃ w, instruction.form.encode? instruction.operands = some w ∧
          decode w = .ok ⟨w, instruction⟩) ∨
      (decode opcode = .error (.unrecognizedOpcode opcode) ∧
        decode (opcode % 0x10000) = .error (.unrecognizedOpcode (opcode % 0x10000)))) := by
  constructor
  · intro form operands hfits
    obtain ⟨i, hinstruction, rfl, rfl⟩ := Form.exists_of_fits hfits
    have hnarrow := i.fits_iff_narrow.mp hfits
    have hencode : i.form.encode? i.operands = some i.word := by
      rw [Form.encode?, hinstruction, Option.map_some]
    exact ⟨i.word, i, hencode, decode_word hnarrow, rfl, rfl⟩
  · intro opcode
    have hsame := Word.ofOpcode_emod opcode
    cases hword : Instruction.ofWord? (Word.ofOpcode opcode) with
    | none =>
        have hlow : Instruction.ofWord? (Word.ofOpcode (opcode % 0x10000)) = none := by
          rw [hsame, hword]
        exact .inr ⟨decode_of_ofWord?_eq_none hword, decode_of_ofWord?_eq_none hlow⟩
    | some i =>
        have hlow : Instruction.ofWord? (Word.ofOpcode (opcode % 0x10000)) = some i := by
          rw [hsame, hword]
        have hnarrow := Instruction.narrow_of_ofWord? hword
        have hencode : i.form.encode? i.operands = some i.word := by
          rw [Form.encode?, Form.instruction?_form_operands, Option.map_some]
        exact .inl ⟨i, decode_of_ofWord? hword, decode_of_ofWord? hlow,
          i.fits_iff_narrow.mpr hnarrow, i.word, hencode, decode_word hnarrow⟩

/-- The word D125, and an opcode below zero that ends in it. -/
theorem draw_word_reads_back :
    let opcode : Int := -0x72EDB
    Form.draw.Fits [1, 2, 5] ∧
    (∃ instruction, Form.draw.encode? [1, 2, 5] = some 0xD125 ∧
      decode 0xD125 = .ok ⟨0xD125, instruction⟩ ∧ instruction.operands = [1, 2, 5]) ∧
    decode opcode = .ok ⟨opcode, .draw 1 2 5⟩ ∧
    decode (opcode % 0x10000) = .ok ⟨opcode % 0x10000, .draw 1 2 5⟩ := by
  intro opcode
  have hfits : Form.draw.Fits [1, 2, 5] :=
    .cons (by decide) (.cons (by decide) (.cons (by decide) .nil))
  have hword : Form.draw.encode? [1, 2, 5] = some 0xD125 := by decide
  have hopcode : decode opcode = .ok ⟨opcode, .draw 1 2 5⟩ := by decide
  obtain ⟨hencodes, hopcodes⟩ := decode_inverts_encode
  obtain ⟨w, i, hencode, hdecode, _, hoperands⟩ := hencodes .draw [1, 2, 5] hfits
  obtain rfl := Option.some.inj (hword.symm.trans hencode)
  obtain ⟨j, hread, hlow, _⟩ | ⟨herror, _⟩ := hopcodes opcode
  · cases hopcode.symm.trans hread
    exact ⟨hfits, ⟨i, hword, hdecode, hoperands⟩, hopcode, hlow⟩
  · cases hopcode.symm.trans herror

end Chip8VM
