import Chip8VM.Proofs.Instruction.Encoding
import Chip8VM.Proofs.Text.Reading

/-!
The assembly notation read back. A line is read as a verb and some arguments, which
are looked up among the forms, and an operand as the number that its digits stand
for. No line is read as two forms: those that share a verb and have equally many
arguments differ in one for which no word fits both. What an instruction is written
as is therefore read as this instruction and no other one.
-/

namespace Chip8VM

namespace OperandKind

/-- Whether the operand is the number of a register. -/
def isRegister : OperandKind → Bool
  | register | target | block => true
  | byte | address | base | rows => false

/-- The operand that a word stands for. -/
def read? (kind : OperandKind) (word : List Char) : Option Nat :=
  if kind.isRegister then
    match word with
    | 'V' :: digits => Text.readHex? digits
    | _ => none
  else Text.readHex? word

theorem read?_text (kind : OperandKind) (n : Nat) : kind.read? (kind.text n).toList = some n := by
  have hread := fun width => Text.readHex?_hex width n
  cases kind <;> simp [read?, isRegister, text, Text.hexInt, hread]

theorem read?_of_isRegister {kind : OperandKind} (hkind : kind.isRegister = true)
    {word : List Char} {n : Nat} (hread : kind.read? word = some n) :
    ∃ digits, word = 'V' :: digits ∧ Text.readHex? digits = some n := by
  unfold read? at hread
  rw [if_pos hkind] at hread
  split at hread
  · exact ⟨_, rfl, hread⟩
  · cases hread

theorem read?_of_not_isRegister {kind : OperandKind} (hkind : kind.isRegister = false)
    (word : List Char) : kind.read? word = Text.readHex? word := by
  unfold read?
  rw [if_neg (by simp [hkind])]

theorem isWord_of_read? {kind : OperandKind} {word : List Char} {n : Nat}
    (hread : kind.read? word = some n) : Text.IsWord word := by
  cases hkind : kind.isRegister with
  | false =>
      rw [read?_of_not_isRegister hkind] at hread
      exact Text.isWord_of_readHex? hread
  | true =>
      obtain ⟨digits, rfl, hdigits⟩ := read?_of_isRegister hkind hread
      have hword := Text.isWord_of_readHex? hdigits
      exact ⟨List.cons_ne_nil _ _, List.forall_mem_cons.mpr ⟨by decide, hword.2⟩⟩

/-- The letter before the number of a register is not a digit. -/
theorem isRegister_eq_of_read? {kind other : OperandKind} {word : List Char} {n m : Nat}
    (hkind : kind.read? word = some n) (hother : other.read? word = some m) :
    kind.isRegister = other.isRegister := by
  have hletter : ∀ digits, Text.readHex? ('V' :: digits) = none := by
    intro digits
    rw [Text.readHex?, if_neg (List.cons_ne_nil _ _), Text.readDigits?_cons]
    rfl
  cases hfirst : kind.isRegister <;> cases hsecond : other.isRegister
  case false.false | true.true => rfl
  case false.true =>
    obtain ⟨digits, rfl, _⟩ := read?_of_isRegister hsecond hother
    rw [read?_of_not_isRegister hfirst, hletter] at hkind
    cases hkind
  case true.false =>
    obtain ⟨digits, rfl, _⟩ := read?_of_isRegister hfirst hkind
    rw [read?_of_not_isRegister hsecond, hletter] at hother
    cases hother

end OperandKind

namespace Argument

/-- The word can stand in the place of the argument. -/
def Fits : Argument → List Char → Prop
  | fixed text, word => word = text.toList
  | operand kind, word => ∃ n, kind.read? word = some n

/-- The arguments differ in a way that lets no word fit both. -/
def apart : Argument → Argument → Bool
  | fixed text, fixed other => text ≠ other
  | fixed text, operand kind | operand kind, fixed text => kind.read? text.toList = none
  | operand kind, operand other => kind.isRegister ≠ other.isRegister

theorem not_apart_of_fits {argument other : Argument} {word : List Char}
    (hargument : argument.Fits word) (hother : other.Fits word) :
    argument.apart other = false := by
  cases argument with
  | fixed text =>
      obtain rfl : word = text.toList := hargument
      cases other with
      | fixed text' =>
          have hsame : text = text' := String.toList_inj.mp hother
          simp [apart, hsame]
      | operand kind =>
          obtain ⟨n, hread⟩ := hother
          simp [apart, hread]
  | operand kind =>
      obtain ⟨n, hread⟩ := hargument
      cases other with
      | fixed text =>
          obtain rfl : word = text.toList := hother
          simp [apart, hread]
      | operand kind' =>
          obtain ⟨m, hread'⟩ := hother
          simp [apart, OperandKind.isRegister_eq_of_read? hread hread']

theorem not_apart_of_forall₂_fits {arguments others : List Argument} {words : List (List Char)}
    (harguments : List.Forall₂ Fits arguments words) (hothers : List.Forall₂ Fits others words) :
    ∀ pair ∈ arguments.zip others, pair.1.apart pair.2 = false := by
  induction harguments generalizing others with
  | nil => simp
  | cons hfits _ ih =>
      cases hothers with
      | cons hfits' hrest =>
          rw [List.zip_cons_cons, List.forall_mem_cons]
          exact ⟨not_apart_of_fits hfits hfits', ih hrest⟩

/-- What stands in the places of some arguments are words, if the fixed texts are. -/
theorem isWord_of_forall₂_fits {arguments : List Argument} {words : List (List Char)}
    (hfixed : ∀ text, fixed text ∈ arguments → Text.IsWord text.toList)
    (hfits : List.Forall₂ Fits arguments words) : ∀ word ∈ words, Text.IsWord word := by
  induction hfits with
  | nil => simp
  | @cons argument word _ _ hword _ ih =>
      have hrest := ih fun text htext => hfixed text (List.mem_cons_of_mem _ htext)
      cases argument with
      | fixed text =>
          obtain rfl : word = text.toList := hword
          exact List.forall_mem_cons.mpr ⟨hfixed text List.mem_cons_self, hrest⟩
      | operand kind =>
          obtain ⟨n, hread⟩ := hword
          exact List.forall_mem_cons.mpr ⟨OperandKind.isWord_of_read? hread, hrest⟩

/-- The operands that some words stand for in the places of these arguments. -/
def readOperands? : List Argument → List (List Char) → Option (List Nat)
  | [], [] => some []
  | fixed text :: arguments, word :: words =>
      if word = text.toList then readOperands? arguments words else none
  | operand kind :: arguments, word :: words => do
      let n ← kind.read? word
      let operands ← readOperands? arguments words
      return n :: operands
  | [], _ :: _ => none
  | _ :: _, [] => none

theorem forall₂_fits_of_readOperands? {arguments : List Argument} {words : List (List Char)}
    {operands : List Nat} (hread : readOperands? arguments words = some operands) :
    List.Forall₂ Fits arguments words := by
  induction arguments generalizing words operands with
  | nil =>
      cases words with
      | nil => exact .nil
      | cons => cases hread
  | cons argument arguments ih =>
      cases words with
      | nil => cases argument <;> cases hread
      | cons word words =>
          cases argument with
          | fixed text =>
              rw [readOperands?] at hread
              split at hread
              case isTrue hword => exact .cons hword (ih hread)
              case isFalse => cases hread
          | operand kind =>
              obtain ⟨n, hword, hrest⟩ := Option.bind_eq_some_iff.mp hread
              obtain ⟨operands, hwords, _⟩ := Option.bind_eq_some_iff.mp hrest
              exact .cons ⟨n, hword⟩ (ih hwords)

theorem readOperands?_texts {arguments : List Argument} {operands : List Nat}
    (hlength : operands.length = (arguments.filterMap kind?).length) :
    readOperands? arguments
      ((texts arguments (operands.map fun (n : Nat) => (n : Int))).map String.toList) =
        some operands := by
  induction arguments generalizing operands with
  | nil =>
      obtain rfl := List.length_eq_zero_iff.mp hlength
      rfl
  | cons argument arguments ih =>
      cases argument with
      | fixed text =>
          rw [texts, List.map_cons, readOperands?, if_pos rfl]
          exact ih hlength
      | operand kind =>
          cases operands with
          | nil => cases hlength
          | cons n operands =>
              have hrest := ih (Nat.succ.inj hlength)
              rw [List.map_cons, texts, List.map_cons, readOperands?, kind.read?_text, hrest]
              rfl

end Argument

namespace Form

/-- The instruction of this form that a verb and some arguments stand for. -/
def read? (form : Form) : List (List Char) → Option Instruction
  | [] => none
  | verb :: words =>
      if verb = form.verb.toList then
        (Argument.readOperands? form.arguments words).bind form.instruction?
      else none

theorem read?_eq_some {form : Form} {line : List (List Char)} {i : Instruction}
    (hread : form.read? line = some i) :
    ∃ words, line = form.verb.toList :: words ∧
      List.Forall₂ Argument.Fits form.arguments words := by
  cases line with
  | nil => cases hread
  | cons verb words =>
      rw [read?] at hread
      split at hread
      case isFalse => cases hread
      case isTrue hverb =>
        obtain ⟨operands, hoperands, _⟩ := Option.bind_eq_some_iff.mp hread
        exact ⟨words, by rw [hverb], Argument.forall₂_fits_of_readOperands? hoperands⟩

/-- Two forms can be told apart by their verbs, by the number of their arguments or
by the words that fit an argument. -/
theorem exists_apart {form other : Form} (hverb : form.verb = other.verb)
    (hlength : form.arguments.length = other.arguments.length) (hne : form ≠ other) :
    ∃ pair ∈ form.arguments.zip other.arguments, pair.1.apart pair.2 = true := by
  have hall : ∀ form ∈ all, ∀ other ∈ all, form.verb = other.verb →
      form.arguments.length = other.arguments.length → form ≠ other →
      ∃ pair ∈ form.arguments.zip other.arguments, pair.1.apart pair.2 = true := by
    -- The forms are few enough for a look at every pair of them.
    decide +kernel
  exact hall form form.mem_all other other.mem_all hverb hlength hne

/-- No line is read as two forms. -/
theorem eq_of_read? {form other : Form} {line : List (List Char)} {i j : Instruction}
    (hform : form.read? line = some i) (hother : other.read? line = some j) : form = other := by
  obtain ⟨words, rfl, hfits⟩ := read?_eq_some hform
  obtain ⟨_, hline, hfits'⟩ := read?_eq_some hother
  obtain ⟨hverb, rfl⟩ := List.cons.inj hline
  by_contra hne
  have hlength := hfits.length_eq.trans hfits'.length_eq.symm
  obtain ⟨pair, hpair, hapart⟩ := exists_apart (String.toList_inj.mp hverb) hlength hne
  rw [Argument.not_apart_of_forall₂_fits hfits hfits' pair hpair] at hapart
  cases hapart

theorem isWord_verb (form : Form) : Text.IsWord form.verb.toList := by
  cases form <;> decide

theorem isWord_of_fixed {form : Form} {text : String} (hfixed : .fixed text ∈ form.arguments) :
    Text.IsWord text.toList := by
  cases form <;> simp [arguments] at hfixed <;> subst hfixed <;> decide

/-- The words of a line of assembly are the verb and the texts of the arguments. -/
theorem words_mnemonic {form : Form} {operands : List Int}
    (hwords : ∀ text ∈ Argument.texts form.arguments operands, Text.IsWord text.toList) :
    Text.words (form.mnemonic operands).toList =
      form.verb.toList :: (Argument.texts form.arguments operands).map String.toList := by
  unfold mnemonic
  split
  case h_1 htexts =>
    rw [htexts]
    exact Text.words_of_isWord form.isWord_verb
  case h_2 =>
    have hlist : ∀ word ∈ (Argument.texts form.arguments operands).map String.toList,
        Text.IsWord word := List.forall_mem_map.mpr hwords
    rw [String.toList_append, String.toList_append, String.toList_intercalate, List.append_assoc]
    exact (Text.words_append form.isWord_verb (by decide) _).trans
      (congrArg _ (Text.words_intercalate hlist))

end Form

/-- The instruction that a line of assembly stands for. -/
def assemble? (line : String) : Option Instruction :=
  Form.all.findSome? fun form => form.read? (Text.words line.toList)

theorem assemble?_of_read? {line : String} {form : Form} {i : Instruction}
    (hread : form.read? (Text.words line.toList) = some i) : assemble? line = some i := by
  have hfound : (assemble? line).isSome := by
    rw [assemble?, List.findSome?_isSome_iff]
    exact ⟨form, form.mem_all, by rw [hread, Option.isSome_some]⟩
  obtain ⟨j, hj⟩ := Option.isSome_iff_exists.mp hfound
  obtain ⟨other, _, hother⟩ := List.exists_of_findSome?_eq_some hj
  obtain rfl := Form.eq_of_read? hread hother
  rw [hj, ← hother, hread]

/-- What an instruction is written as stands for this instruction. -/
theorem assemble?_mnemonic (i : Instruction) : assemble? i.mnemonic = some i := by
  have hoperands := Argument.readOperands?_texts i.length_operands
  have hwords := Argument.isWord_of_forall₂_fits (fun _ => Form.isWord_of_fixed)
    (Argument.forall₂_fits_of_readOperands? hoperands)
  have hline := Form.words_mnemonic (List.forall_mem_map.mp hwords)
  apply assemble?_of_read?
  rw [Instruction.mnemonic, hline, Form.read?, if_pos rfl, hoperands, Option.bind_some,
    Form.instruction?_form_operands]

example : assemble? "DRW VA, V1, F" = some (.draw 0xA 0x1 0xF) := by decide

/-- The mnemonics of two opcodes are the same text if and only if the opcodes are
read as the same form with the same operands, and from its mnemonic an instruction
can be assembled into a word that is read as this instruction again. -/
theorem mnemonics_are_unambiguous :
    (∀ (a b : Int) (first second : Decoded),
      decode a = .ok first → decode b = .ok second →
        (first.instruction.mnemonic = second.instruction.mnemonic ↔
          first.instruction.form = second.instruction.form ∧
            first.instruction.operands = second.instruction.operands)) ∧
    (∀ (opcode : Int) (decoded : Decoded), decode opcode = .ok decoded →
      ∃ instruction, assemble? decoded.instruction.mnemonic = some instruction ∧
        decode instruction.word = .ok ⟨instruction.word, decoded.instruction⟩) := by
  constructor
  · intro a b first second _ _
    constructor
    · intro htext
      have hsame : some first.instruction = some second.instruction := by
        rw [← assemble?_mnemonic, htext, assemble?_mnemonic]
      rw [Option.some.inj hsame]
      exact ⟨rfl, rfl⟩
    · rintro ⟨hform, hoperands⟩
      rw [Form.form_operands_inj hform hoperands]
  · intro opcode decoded hdecode
    exact ⟨decoded.instruction, assemble?_mnemonic _, decode_word (narrow_of_decode hdecode)⟩

/-- LD F, VB and LD VB, 0F are different texts, and the first can be assembled. -/
theorem glyph_and_byte_loads_differ :
    decode 0xFB29 = .ok ⟨0xFB29, .glyph 0xB⟩ ∧
    decode 0x6B0F = .ok ⟨0x6B0F, .loadByte 0xB 0x0F⟩ ∧
    (Instruction.glyph 0xB).mnemonic ≠ (Instruction.loadByte 0xB 0x0F).mnemonic ∧
    ∃ instruction, assemble? (Instruction.glyph 0xB).mnemonic = some instruction ∧
      decode instruction.word = .ok ⟨instruction.word, .glyph 0xB⟩ := by
  have hglyph : decode 0xFB29 = .ok ⟨0xFB29, .glyph 0xB⟩ := by decide
  have hbyte : decode 0x6B0F = .ok ⟨0x6B0F, .loadByte 0xB 0x0F⟩ := by decide
  have hforms : (Instruction.glyph 0xB).form ≠ (Instruction.loadByte 0xB 0x0F).form := by decide
  obtain ⟨hunambiguous, hassembled⟩ := mnemonics_are_unambiguous
  have hsame := hunambiguous 0xFB29 0x6B0F _ _ hglyph hbyte
  have hassembly := hassembled 0xFB29 _ hglyph
  exact ⟨hglyph, hbyte, fun htext => hforms (hsame.mp htext).1, hassembly⟩

end Chip8VM
