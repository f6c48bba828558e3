import Chip8VM.Machine.Execute
import Mathlib.Data.List.FinRange

/-!
The keypad, key by key. The keys are counted from the lowest to the highest, so the
first held key that is found is the lowest one. Only the numbers from zero to fifteen
are numbers of keys. A machine that waits for a key finds all of them free or takes the
lowest.
-/

namespace Chip8VM

theorem Key.ofInt?_eq_some_iff (number : Int) (key : Key) :
    Key.ofInt? number = some key ↔ number = key.val := by
  unfold Key.ofInt?
  split
  next hrange =>
    rw [Option.some.injEq, Fin.ext_iff]
    change number.toNat = key.val ↔ _
    omega
  next houtside =>
    simp only [reduceCtorEq, false_iff]
    omega

namespace Keypad

variable (keypad : Keypad)

theorem get_press (pressed key : Key) :
    (keypad.press pressed).get key = true ↔ keypad.get key = true ∨ pressed = key := by
  change (keypad.set pressed.val true pressed.isLt)[key.val] = true ↔ _
  rw [Vector.getElem_set pressed.isLt key.isLt, Fin.ext_iff]
  split
  next hsame => simp [hsame]
  next hother => simp [hother, Vector.get]

/-- To release a key that is free changes nothing. -/
theorem release_of_free {key : Key} (hfree : keypad.get key = false) :
    keypad.release key = keypad := by
  have hsame : keypad.set key.val keypad[key.val] key.isLt = keypad :=
    Vector.set_getElem_self key.isLt
  rw [release, ← hfree]
  exact hsame

theorem mem_held_iff (key : Key) : key ∈ keypad.held ↔ keypad.get key = true := by
  rw [held, List.mem_filter]
  exact and_iff_right (List.mem_finRange key)

theorem held_eq_nil_iff : keypad.held = [] ↔ ∀ key, keypad.get key = false := by
  simp only [List.eq_nil_iff_forall_not_mem, mem_held_iff, Bool.not_eq_true]

theorem lowest?_eq_none_iff : keypad.lowest? = none ↔ ∀ key, keypad.get key = false := by
  rw [lowest?, List.head?_eq_none_iff, held_eq_nil_iff]

/-- The lowest key is the least of the keys that are held. -/
theorem lowest?_eq_some_iff (key : Key) :
    keypad.lowest? = some key ↔
      keypad.get key = true ∧ ∀ other, keypad.get other = true → key ≤ other := by
  have hsorted : keypad.held.Pairwise (· < ·) := (List.pairwise_lt_finRange 16).filter _
  simp only [lowest?, ← mem_held_iff]
  cases hheld : keypad.held with
  | nil => simp
  | cons first rest =>
      rw [hheld, List.pairwise_cons] at hsorted
      have hleast : ∀ other ∈ first :: rest, first ≤ other := by
        intro other hother
        rcases List.mem_cons.mp hother with rfl | hrest
        · exact Fin.le_refl _
        · exact Fin.le_of_lt (hsorted.1 other hrest)
      rw [List.head?_cons, Option.some.injEq]
      constructor
      · rintro rfl
        exact ⟨List.mem_cons_self, hleast⟩
      · rintro ⟨hmem, hlower⟩
        exact Fin.le_antisymm (hleast key hmem) (hlower first List.mem_cons_self)

theorem free_or_exists_lowest :
    (∀ key, keypad.get key = false) ∨
      ∃ key, keypad.lowest? = some key ∧ keypad.get key = true ∧
        ∀ other, keypad.get other = true → key ≤ other := by
  cases hlowest : keypad.lowest? with
  | none => exact .inl (keypad.lowest?_eq_none_iff.mp hlowest)
  | some key => exact .inr ⟨key, rfl, (keypad.lowest?_eq_some_iff key).mp hlowest⟩

theorem holds_iff (number : Nat) :
    keypad.holds number = true ↔ ∃ key : Key, key.val = number ∧ keypad.get key = true := by
  unfold holds
  split
  next hkey =>
    constructor
    · intro hheld
      exact ⟨⟨number, hkey⟩, rfl, hheld⟩
    · rintro ⟨key, rfl, hheld⟩
      exact hheld
  next hnone =>
    simp only [Bool.false_eq_true, false_iff, not_exists, not_and]
    intro key hnumber
    exact absurd (hnumber ▸ key.isLt) hnone

end Keypad

namespace Machine

variable {m : Machine}

theorem awaitKey_of_free (hfree : ∀ key, m.keypad.get key = false) (x : Register) :
    m.awaitKey x = m := by
  rw [awaitKey, m.keypad.lowest?_eq_none_iff.mpr hfree]

theorem awaitKey_of_lowest {key : Key} (hlowest : m.keypad.lowest? = some key) (x : Register) :
    m.awaitKey x = (m.setRegister x (UInt8.ofNat key)).next := by
  rw [awaitKey, hlowest]

end Machine

end Chip8VM
