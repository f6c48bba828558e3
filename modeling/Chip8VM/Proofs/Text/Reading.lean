import Chip8VM.Text.Hex

/-!
Text that is read back. A hexadecimal number is read from its digits, whatever
zeros stand before them, and a line is read as the words between its blanks and
commas.
-/

namespace Chip8VM.Text

/-- The value of an upper-case hex digit. -/
def hexValue? (c : Char) : Option Nat :=
  if '0' ≤ c ∧ c ≤ '9' then some (c.toNat - 48)
  else if 'A' ≤ c ∧ c ≤ 'F' then some (c.toNat - 55)
  else none

theorem hexValue?_hexDigit {n : Nat} (hn : n < 16) : hexValue? (hexDigit n) = some n := by
  have hall : ∀ value < 16, hexValue? (hexDigit value) = some value := by decide
  exact hall n hn

/-- The number that the digits stand for when they follow those of another one. -/
def readDigits? (n : Nat) (digits : List Char) : Option Nat :=
  digits.foldlM (fun n c => (hexValue? c).map (0x10 * n + ·)) n

/-- The number that is written with these digits, of which there is one at least. -/
def readHex? (digits : List Char) : Option Nat :=
  if digits = [] then none else readDigits? 0 digits

theorem readDigits?_cons (n : Nat) (c : Char) (digits : List Char) :
    readDigits? n (c :: digits) =
      (hexValue? c).bind fun value => readDigits? (0x10 * n + value) digits := by
  cases hvalue : hexValue? c <;> simp [readDigits?, hvalue]

theorem readDigits?_append (n : Nat) (first second : List Char) :
    readDigits? n (first ++ second) =
      (readDigits? n first).bind fun m => readDigits? m second := by
  simp [readDigits?, List.foldlM_append]

theorem readDigits?_zeros (count : Nat) :
    readDigits? 0 (List.replicate count '0') = some 0 := by
  induction count with
  | zero => rfl
  | succ count ih =>
      rw [List.replicate_succ, readDigits?_cons]
      exact ih

theorem readDigits?_hexDigits (n : Nat) : readDigits? 0 (hexDigits n) = some n := by
  induction n using hexDigits.induct with
  | case1 n hn =>
      rw [hexDigits_of_lt hn, readDigits?_cons, hexValue?_hexDigit hn]
      simp [readDigits?]
  | case2 n hn ih =>
      have hlast : n % 16 < 16 := Nat.mod_lt n (by decide)
      rw [hexDigits_of_ge (by omega), readDigits?_append, ih, Option.bind_some,
        readDigits?_cons, hexValue?_hexDigit hlast]
      simp [readDigits?, Nat.div_add_mod]

theorem hexDigits_ne_nil (n : Nat) : hexDigits n ≠ [] := by
  unfold hexDigits
  split <;> simp

/-- A number is read back from its digits, whatever width it was written with. -/
theorem readHex?_hex (width n : Nat) : readHex? (hex width n).toList = some n := by
  have hdigits : zeroFill width (hexDigits n) ≠ [] := by
    simp [zeroFill, hexDigits_ne_nil]
  rw [hex, String.toList_ofList, readHex?, if_neg hdigits, zeroFill, readDigits?_append,
    readDigits?_zeros, Option.bind_some, readDigits?_hexDigits]

theorem isSome_hexValue?_of_readDigits? {n m : Nat} {digits : List Char}
    (hread : readDigits? n digits = some m) : ∀ c ∈ digits, (hexValue? c).isSome := by
  induction digits generalizing n with
  | nil => simp
  | cons c rest ih =>
      rw [readDigits?_cons] at hread
      obtain ⟨value, hvalue, hrest⟩ := Option.bind_eq_some_iff.mp hread
      intro d hd
      cases List.mem_cons.mp hd with
      | inl hhead => rw [hhead, hvalue, Option.isSome_some]
      | inr htail => exact ih hrest d htail

/-! Words. -/

def isSeparator (c : Char) : Bool := c = ' ' || c = ','

/-- The words of a line. -/
def words (line : List Char) : List (List Char) :=
  (line.splitOnP isSeparator).filter (· ≠ [])

/-- Some characters that are read as one word. -/
def IsWord (chars : List Char) : Prop :=
  chars ≠ [] ∧ ∀ c ∈ chars, isSeparator c = false

instance (chars : List Char) : Decidable (IsWord chars) :=
  decidable_of_iff ((!chars.isEmpty && chars.all (! isSeparator ·)) = true) (by
    simp [IsWord])

theorem words_of_isWord {word : List Char} (hword : IsWord word) : words word = [word] := by
  rw [words, List.splitOnP_eq_singleton hword.2]
  simp [hword.1]

theorem words_separator {c : Char} (hc : isSeparator c = true) (line : List Char) :
    words (c :: line) = words line := by
  have hsplit := List.splitOnP_append_cons [] line hc
  rw [List.nil_append] at hsplit
  simp [words, hsplit]

theorem words_append {word : List Char} (hword : IsWord word) {c : Char}
    (hc : isSeparator c = true) (line : List Char) :
    words (word ++ c :: line) = word :: words line := by
  rw [words, List.splitOnP_append_cons_of_forall_mem hword.2 c hc]
  simp [words, hword.1]

/-- Words with commas and blanks between them are read one by one. -/
theorem words_intercalate {list : List (List Char)} (hwords : ∀ word ∈ list, IsWord word) :
    words ([',', ' '].intercalate list) = list := by
  induction list with
  | nil => decide
  | cons word rest ih =>
      have hword := hwords word List.mem_cons_self
      cases rest with
      | nil => simpa using words_of_isWord hword
      | cons next rest =>
          have hrest := ih fun other hother => hwords other (List.mem_cons_of_mem word hother)
          rw [List.intercalate_cons_cons, List.append_assoc, List.cons_append,
            words_append hword (by decide), List.cons_append, words_separator (by decide),
            List.nil_append, hrest]

theorem isWord_of_readHex? {digits : List Char} {n : Nat} (hread : readHex? digits = some n) :
    IsWord digits := by
  unfold readHex? at hread
  split at hread
  case isTrue => cases hread
  case isFalse hne =>
    refine ⟨hne, fun c hc => ?_⟩
    have hvalue := isSome_hexValue?_of_readDigits? hread c hc
    cases hseparator : isSeparator c with
    | false => rfl
    | true =>
        simp only [isSeparator, Bool.or_eq_true, decide_eq_true_eq] at hseparator
        rcases hseparator with rfl | rfl <;> cases hvalue

end Chip8VM.Text
