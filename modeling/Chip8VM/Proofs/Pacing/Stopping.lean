import Chip8VM.Proofs.Number.Nonfinite
import Chip8VM.Proofs.Pacing.Independence

/-!
A host that has stopped for good. Once a debt is infinite or no number, no time
that passes makes it a number of cycles again, so every advance fails before
anything is delivered. It does not matter which of the two debts it is, nor what
becomes of the other one.
-/

namespace Chip8VM

/-- A charge that succeeds adds to the debt and changes nothing else; if it fails, the
debt would have been beyond the numbers. -/
theorem Clock.charge_cases {τ : Type} [Quantity τ] (clock : Clock τ) (elapsed : τ) :
    clock.charge elapsed = .error .beyond ∨
      Quantity.isBeyond (clock.debt + elapsed * clock.rate) = false ∧
        clock.charge elapsed = .ok { clock with debt := clock.debt + elapsed * clock.rate } := by
  unfold charge
  by_cases hbeyond : Quantity.isBeyond (clock.debt + elapsed * clock.rate) = true
  · exact .inl (if_pos hbeyond)
  · exact .inr ⟨Bool.eq_false_iff.mpr hbeyond, if_neg hbeyond⟩

/-- Nothing that is charged makes a debt finite again. -/
theorem Clock.nonfinite_charge {clock charged : Clock Number} (hdebt : clock.debt.Nonfinite)
    {elapsed : Number} (hcharge : clock.charge elapsed = .ok charged) :
    charged.debt.Nonfinite := by
  rcases clock.charge_cases elapsed with herror | ⟨hbeyond, hok⟩
  · cases herror.symm.trans hcharge
  · obtain rfl := Except.ok.inj (hok.symm.trans hcharge)
    rcases Number.nonfinite_add hdebt (elapsed * clock.rate) with hsum | hsum
    · rw [hsum] at hbeyond
      cases hbeyond
    · exact hsum

namespace Host

/-- The host with other debts: nothing has been delivered to the processor or counted,
and the rates are the same. -/
def owing {τ : Type} (host : Host τ) (instructionDebt tickDebt : τ) : Host τ :=
  { host with
    instructions := { host.instructions with debt := instructionDebt }
    ticks := { host.ticks with debt := tickDebt } }

/-- Whether a debt is infinite or no number. -/
def Stopped (host : Host Number) : Prop :=
  host.instructions.debt.Nonfinite ∨ host.ticks.debt.Nonfinite

theorem deliverOwed_of_nonfinite (host : Host Number) {instructions ticks : Clock Number}
    (hnonfinite : instructions.debt.Nonfinite ∨ ticks.debt.Nonfinite) :
    ∃ reason, host.deliverOwed instructions ticks =
      (.error (.debt reason), { host with instructions, ticks }) := by
  unfold deliverOwed
  cases hexecuted : Quantity.integerPart instructions.debt with
  | error reason => exact ⟨reason, rfl⟩
  | ok executed =>
      rcases hnonfinite with hdebt | hdebt
      · obtain ⟨reason, hpart⟩ := Number.integerPart_of_nonfinite hdebt
        cases hpart.symm.trans hexecuted
      · obtain ⟨reason, hpart⟩ := Number.integerPart_of_nonfinite hdebt
        have hticks : Quantity.integerPart ticks.debt = .error reason := hpart
        rw [hticks]
        exact ⟨reason, rfl⟩

/-- A delivery for which a number of cycles is missing does not begin. -/
theorem deliverOwed_of_debt_fault {host : Host Number} {instructions ticks : Clock Number}
    {reason : Unmeasured}
    (hfault : (host.deliverOwed instructions ticks).1 = .error (.debt reason)) :
    (host.deliverOwed instructions ticks).2 = { host with instructions, ticks } ∧
      (Number.integerPart instructions.debt = .error reason ∨
        Number.integerPart ticks.debt = .error reason) := by
  unfold deliverOwed at hfault ⊢
  cases hexecuted : Quantity.integerPart instructions.debt with
  | error reason' =>
      rw [hexecuted] at hfault
      cases hfault
      exact ⟨rfl, .inl hexecuted⟩
  | ok executed =>
      cases hticked : Quantity.integerPart ticks.debt with
      | error reason' =>
          rw [hexecuted, hticked] at hfault
          cases hfault
          exact ⟨rfl, .inr hticked⟩
      | ok ticked =>
          rw [hexecuted, hticked] at hfault
          simp only [bind, Except.bind, pure, Except.pure] at hfault
          split at hfault
          next => cases hfault
          next => cases hfault

/-- A stopped host fails in every call, delivers nothing and stays stopped. -/
theorem advance_of_stopped {host : Host Number} (hstopped : host.Stopped) (elapsed : Number) :
    ∃ reason debt debt', host.advance elapsed = (.error (.debt reason), host.owing debt debt') ∧
      (host.owing debt debt').Stopped := by
  unfold advance
  rcases host.instructions.charge_cases elapsed with hcharge | ⟨-, hcharge⟩
  · rw [hcharge]
    exact ⟨_, _, _, rfl, hstopped⟩
  · have hinstructions (hdebt : host.instructions.debt.Nonfinite) :=
      Clock.nonfinite_charge hdebt hcharge
    rcases host.ticks.charge_cases elapsed with hcharge' | ⟨-, hcharge'⟩
    · -- The ticks cannot be charged, so they are owed as before.
      rw [hcharge, hcharge']
      exact ⟨_, _, host.ticks.debt, rfl, hstopped.imp_left hinstructions⟩
    · have hafter := hstopped.imp hinstructions fun hdebt => Clock.nonfinite_charge hdebt hcharge'
      obtain ⟨reason, hdeliver⟩ := host.deliverOwed_of_nonfinite hafter
      rw [hcharge, hcharge']
      exact ⟨reason, _, _, hdeliver, hafter⟩

theorem history_of_stopped {host : Host Number} (hstopped : host.Stopped) (later : List Number) :
    ∀ call ∈ host.history later, (∃ reason, call.1 = .error (.debt reason)) ∧
      ∃ debt debt', call.2 = host.owing debt debt' := by
  induction later generalizing host with
  | nil =>
      intro call hcall
      cases hcall
  | cons elapsed rest ih =>
      obtain ⟨reason, debt, debt', hadvance, hafter⟩ := advance_of_stopped hstopped elapsed
      rw [history, hadvance]
      intro call hcall
      rcases List.mem_cons.mp hcall with rfl | hrest
      · exact ⟨⟨reason, rfl⟩, debt, debt', rfl⟩
      · exact ih hafter call hrest

/-- An advance that finds a debt infinite or undefined has charged both clocks, and one
of the two debts is not finite. -/
theorem advance_of_debt_fault {host : Host Number} {elapsed : Number} {reason : Unmeasured}
    (hreason : reason ≠ .beyond) (hfault : (host.advance elapsed).1 = .error (.debt reason)) :
    (host.advance elapsed).2 =
        host.owing (host.instructions.debt + elapsed * host.instructions.rate)
          (host.ticks.debt + elapsed * host.ticks.rate) ∧
      (host.advance elapsed).2.Stopped := by
  unfold advance at hfault ⊢
  rcases host.instructions.charge_cases elapsed with hcharge | ⟨hbeyond, hcharge⟩
  · rw [hcharge] at hfault
    cases hfault
    exact absurd rfl hreason
  · rcases host.ticks.charge_cases elapsed with hcharge' | ⟨hbeyond', hcharge'⟩
    · rw [hcharge, hcharge'] at hfault
      cases hfault
      exact absurd rfl hreason
    · rw [hcharge, hcharge'] at hfault ⊢
      obtain ⟨hafter, hpart⟩ := deliverOwed_of_debt_fault hfault
      simp only [hafter]
      exact ⟨rfl, hpart.imp (Number.nonfinite_of_integerPart hbeyond)
        (Number.nonfinite_of_integerPart hbeyond')⟩

/-- An advance for which a debt has become infinite or no number adds to both debts and
does nothing else: no instruction is executed and no tick is delivered. From then on
every advance fails for want of a number of cycles, whatever times are given, and none
of them does anything but add to the debts. -/
theorem nonfinite_debt_stops_for_good (host : Host Number) (elapsed : Number)
    (later : List Number)
    (hfault : (host.advance elapsed).1 = .error (.debt .undefined) ∨
      (host.advance elapsed).1 = .error (.debt .infinite)) :
    (host.advance elapsed).2 =
        host.owing (host.instructions.debt + elapsed * host.instructions.rate)
          (host.ticks.debt + elapsed * host.ticks.rate) ∧
      ∀ call ∈ (host.advance elapsed).2.history later,
        (∃ reason, call.1 = .error (.debt reason)) ∧
        ∃ debt debt', call.2 = host.owing debt debt' := by
  have hafter : (host.advance elapsed).2 =
        host.owing (host.instructions.debt + elapsed * host.instructions.rate)
          (host.ticks.debt + elapsed * host.ticks.rate) ∧
      (host.advance elapsed).2.Stopped := by
    rcases hfault with hundefined | hinfinite
    · exact advance_of_debt_fault (by simp) hundefined
    · exact advance_of_debt_fault (by simp) hinfinite
  obtain ⟨hcharged, hstopped⟩ := hafter
  refine ⟨hcharged, fun call hcall => ?_⟩
  obtain ⟨hfails, debt, debt', howing⟩ := history_of_stopped hstopped later call hcall
  rw [hcharged] at howing
  exact ⟨hfails, debt, debt', howing⟩

/-- A program that jumps to itself, beside ticks at a rate beyond all sense. -/
def racing : Host Number where
  processor := .ofMachine (Machine.holding [0x12, 0x00]) {}
  instructions := ⟨.whole 700, .real 0, 0⟩
  ticks := ⟨.real (.ofBits 0x7E37E43C8800759C), .real 0, 0⟩
  logger := {}

/-- In ten billion seconds the debt of the ticks has become infinite, though that of the
instructions has not; a time without bounds that runs backward does not mend it. -/
theorem racing_ticks_stop_the_instructions :
    (racing.advance (.real (.ofBits 0x4202A05F20000000))).1 = .error (.debt .infinite) ∧
    ∀ call ∈ (racing.advance (.real (.ofBits 0x4202A05F20000000))).2.history
        [.whole 1, .real (.ofBits 0xFFF0000000000000)],
      (∃ reason, call.1 = .error (.debt reason)) ∧
      ∃ debt debt', call.2 = racing.owing debt debt' := by
  have hfault : (racing.advance (.real (.ofBits 0x4202A05F20000000))).1 =
      .error (.debt .infinite) := by
    decide +kernel
  exact ⟨hfault, (nonfinite_debt_stops_for_good racing _ _ (.inr hfault)).2⟩

end Host

end Chip8VM
