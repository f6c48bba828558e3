import Chip8VM.Pacing.Agenda

/-!
The order of an agenda's beats. Only the comparisons between the two lanes
matter to it: agendas with as many beats left and with the same comparisons
have the same order. An agenda can be cut in two wherever the beats on one side
come before those on the other.
-/

namespace Chip8VM.Agenda

variable {τ : Type} [Quantity τ]

theorem next?_eq_tick_iff (agenda : Agenda τ) :
    agenda.next? = some .tick ↔
      0 < agenda.ticks.left ∧
      (agenda.instructions.left = 0 ∨
        Quantity.le agenda.ticks.due agenda.instructions.due = true) := by
  unfold next? tickFirst
  cases agenda.ticks.left with
  | zero => simp
  | succ ticks =>
      cases Quantity.le agenda.ticks.due agenda.instructions.due with
      | true => simp
      | false => cases agenda.instructions.left <;> simp

theorem next?_eq_instruction_iff (agenda : Agenda τ) :
    agenda.next? = some .instruction ↔
      0 < agenda.instructions.left ∧
      (agenda.ticks.left = 0 ∨
        Quantity.le agenda.ticks.due agenda.instructions.due = false) := by
  unfold next? tickFirst
  cases agenda.ticks.left with
  | zero => simp [Nat.pos_iff_ne_zero]
  | succ ticks =>
      cases Quantity.le agenda.ticks.due agenda.instructions.due with
      | true => simp
      | false => cases agenda.instructions.left <;> simp

theorem next?_eq_none_iff (agenda : Agenda τ) :
    agenda.next? = none ↔ agenda.instructions.left = 0 ∧ agenda.ticks.left = 0 := by
  unfold next? tickFirst
  cases agenda.ticks.left with
  | zero => simp
  | succ ticks =>
      cases Quantity.le agenda.ticks.due agenda.instructions.due with
      | true => simp
      | false => cases agenda.instructions.left <;> simp

/-- Every beat that is left is listed, and none twice. -/
theorem count_toList (agenda : Agenda τ) :
    agenda.toList.count .instruction = agenda.instructions.left ∧
    agenda.toList.count .tick = agenda.ticks.left := by
  induction agenda using toList.induct with
  | case1 agenda beat hnext ih =>
      rw [toList_of_some hnext]
      obtain ⟨hinstructions, hticks⟩ := ih
      cases beat with
      | instruction =>
          have hleft := ((next?_eq_instruction_iff agenda).mp hnext).1
          simp only [advance, Lane.left, Lane.advance] at hinstructions hticks hleft ⊢
          simp [hinstructions, hticks]
          omega
      | tick =>
          have hleft := ((next?_eq_tick_iff agenda).mp hnext).1
          simp only [advance, Lane.left, Lane.advance] at hinstructions hticks hleft ⊢
          simp [hinstructions, hticks]
          omega
  | case2 agenda hnext =>
      obtain ⟨hinstructions, hticks⟩ := (next?_eq_none_iff agenda).mp hnext
      rw [toList_of_none hnext, hinstructions, hticks]
      exact ⟨rfl, rfl⟩

/-- Two agendas whose lanes compare alike, counted from where each stands. -/
structure Alike (first second : Agenda τ) : Prop where
  instructions : first.instructions.left = second.instructions.left
  ticks : first.ticks.left = second.ticks.left
  le_eq : ∀ j k, 0 < j → 0 < k →
    Quantity.le (first.ticks.dueAt (first.ticks.done + j))
      (first.instructions.dueAt (first.instructions.done + k)) =
    Quantity.le (second.ticks.dueAt (second.ticks.done + j))
      (second.instructions.dueAt (second.instructions.done + k))

theorem next?_of_alike {first second : Agenda τ} (halike : Alike first second) :
    first.next? = second.next? := by
  have hle := halike.le_eq 1 1 (by decide) (by decide)
  have htickFirst : first.tickFirst = second.tickFirst := by
    simp only [tickFirst, halike.instructions, Lane.due, hle]
  unfold next?
  rw [htickFirst, halike.instructions, halike.ticks]

theorem advance_alike {first second : Agenda τ} (halike : Alike first second) (beat : Beat) :
    Alike (first.advance beat) (second.advance beat) := by
  obtain ⟨hinstructions, hticks, hle⟩ := halike
  simp only [Lane.left] at hinstructions hticks
  cases beat with
  | instruction =>
      refine ⟨?_, hticks, ?_⟩
      · simp only [advance, Lane.advance, Lane.left]
        omega
      · intro j k hj hk
        have hnext := hle j (k + 1) hj (by omega)
        simpa only [advance, Lane.advance, Lane.dueAt, Nat.add_assoc, Nat.add_comm 1 k] using hnext
  | tick =>
      refine ⟨hinstructions, ?_, ?_⟩
      · simp only [advance, Lane.advance, Lane.left]
        omega
      · intro j k hj hk
        have hnext := hle (j + 1) k (by omega) hk
        simpa only [advance, Lane.advance, Lane.dueAt, Nat.add_assoc, Nat.add_comm 1 j] using hnext

theorem toList_of_alike {first second : Agenda τ} (halike : Alike first second) :
    first.toList = second.toList := by
  induction first using toList.induct generalizing second with
  | case1 first beat hnext ih =>
      have hsecond := (next?_of_alike halike).symm.trans hnext
      rw [toList_of_some hnext, toList_of_some hsecond, ih (advance_alike halike beat)]
  | case2 first hnext =>
      rw [toList_of_none hnext, toList_of_none ((next?_of_alike halike).symm.trans hnext)]

/-- The beats of an agenda up to some cycle of each clock. -/
def upTo (agenda : Agenda τ) (instructions ticks : Nat) : Agenda τ :=
  ⟨{ agenda.instructions with owed := instructions }, { agenda.ticks with owed := ticks }⟩

/-- The beats of an agenda behind some cycle of each clock. -/
def behind (agenda : Agenda τ) (instructions ticks : Nat) : Agenda τ :=
  ⟨{ agenda.instructions with done := instructions }, { agenda.ticks with done := ticks }⟩

/-- A place where an agenda can be cut: each clock is at most at its cycle, of
which it owes no less; and beats on different sides are due in that order. -/
structure Cut (agenda : Agenda τ) (instructions ticks : Nat) : Prop where
  instructions_done : agenda.instructions.done ≤ instructions
  ticks_done : agenda.ticks.done ≤ ticks
  instructions_owed : instructions ≤ agenda.instructions.owed
  ticks_owed : ticks ≤ agenda.ticks.owed
  early_tick : ∀ j k, j ≤ ticks → instructions < k →
    Quantity.le (agenda.ticks.dueAt j) (agenda.instructions.dueAt k) = true
  late_tick : ∀ j k, ticks < j → k ≤ instructions →
    Quantity.le (agenda.ticks.dueAt j) (agenda.instructions.dueAt k) = false

variable {agenda : Agenda τ} {instructions ticks : Nat}

theorem next?_of_upTo (hcut : agenda.Cut instructions ticks) {beat : Beat}
    (hnext : (agenda.upTo instructions ticks).next? = some beat) : agenda.next? = some beat := by
  have hinstructions := hcut.instructions_owed
  have hticks := hcut.ticks_owed
  cases beat with
  | tick =>
      rw [next?_eq_tick_iff] at hnext ⊢
      simp only [upTo, Lane.left, Lane.due] at hnext ⊢
      obtain ⟨hleft, hnone | hle⟩ := hnext
      · have hdone := hcut.instructions_done
        exact ⟨by omega, .inr (hcut.early_tick _ _ (by omega) (by omega))⟩
      · exact ⟨by omega, .inr hle⟩
  | instruction =>
      rw [next?_eq_instruction_iff] at hnext ⊢
      simp only [upTo, Lane.left, Lane.due] at hnext ⊢
      obtain ⟨hleft, hnone | hle⟩ := hnext
      · have hdone := hcut.ticks_done
        exact ⟨by omega, .inr (hcut.late_tick _ _ (by omega) (by omega))⟩
      · exact ⟨by omega, .inr hle⟩

theorem advance_cut (hcut : agenda.Cut instructions ticks) {beat : Beat}
    (hnext : (agenda.upTo instructions ticks).next? = some beat) :
    (agenda.advance beat).Cut instructions ticks := by
  obtain ⟨hinstructions, hticks, howed, howed', hearly, hlate⟩ := hcut
  cases beat with
  | tick =>
      have hleft := ((next?_eq_tick_iff _).mp hnext).1
      simp only [upTo, Lane.left] at hleft
      exact ⟨hinstructions, by simp only [advance, Lane.advance]; omega, howed, howed',
        hearly, hlate⟩
  | instruction =>
      have hleft := ((next?_eq_instruction_iff _).mp hnext).1
      simp only [upTo, Lane.left] at hleft
      exact ⟨by simp only [advance, Lane.advance]; omega, hticks, howed, howed',
        hearly, hlate⟩

/-- At a cut the order falls into two parts, of which each is an agenda's own. -/
theorem toList_cut (hcut : agenda.Cut instructions ticks) :
    agenda.toList =
      (agenda.upTo instructions ticks).toList ++ (agenda.behind instructions ticks).toList := by
  generalize hfirst : agenda.upTo instructions ticks = first
  induction first using toList.induct generalizing agenda with
  | case1 first beat hnext ih =>
      subst hfirst
      have hwhole := next?_of_upTo hcut hnext
      have hrest : (agenda.advance beat).behind instructions ticks =
          agenda.behind instructions ticks := by
        cases beat <;> rfl
      have hupTo : (agenda.advance beat).upTo instructions ticks =
          (agenda.upTo instructions ticks).advance beat := by
        cases beat <;> rfl
      rw [toList_of_some hwhole, toList_of_some hnext, ih (advance_cut hcut hnext) hupTo, hrest]
      rfl
  | case2 first hnext =>
      subst hfirst
      obtain ⟨hinstructions, hticks⟩ := (next?_eq_none_iff _).mp hnext
      simp only [upTo, Lane.left] at hinstructions hticks
      have hbehind : agenda.behind instructions ticks = agenda := by
        have hi := hcut.instructions_done
        have ht := hcut.ticks_done
        have hi' : instructions = agenda.instructions.done := by omega
        have ht' : ticks = agenda.ticks.done := by omega
        simp only [behind, hi', ht']
      rw [toList_of_none hnext, hbehind, List.nil_append]

end Chip8VM.Agenda
