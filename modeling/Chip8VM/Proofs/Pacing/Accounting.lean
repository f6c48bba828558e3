import Chip8VM.Proofs.Pacing.Exact
import Chip8VM.Proofs.Processor.Failure

/-!
What an advance costs and what it delivers. Both debts are settled in full
before the first beat, so what is lost when an instruction fails is lost for
good. The beats are as many as the cycles that are owed, in whatever order the
comparisons of due times put them; nothing is asked of those, so arithmetic
that rounds is covered too.
-/

namespace Chip8VM.Host

variable {τ : Type} [Quantity τ]

/-- An advance for which both clocks owe a whole number of cycles delivers just
these cycles, none of a negative number, and counts them; or it ends at the first
instruction that fails, with the cycles counted that have come before it and the
machine as they have left it. In either case both clocks have paid for all they
owe. -/
theorem advance_accounts_for_cycles (host : Host τ) (elapsed : τ) {executed ticks : Int}
    (hinstructions : host.instructions.owed elapsed = .ok executed)
    (hticks : host.ticks.owed elapsed = .ok ticks) :
    ∃ (beats : List Beat) (after : Host τ),
      beats.count .instruction = executed.toNat ∧ beats.count .tick = ticks.toNat ∧
      ((host.processor.Completes beats ∧
          host.advance elapsed = (.ok executed, after) ∧
          after.processor = host.processor.performAll (beats.map Beat.command) ∧
          after.instructions =
            (host.instructions.paid elapsed executed).countedBy executed.toNat ∧
          after.ticks = (host.ticks.paid elapsed ticks).countedBy ticks.toNat) ∨
        ∃ before rest cause,
          let reached := host.processor.performAll (before.map Beat.command)
          beats = before ++ .instruction :: rest ∧
          host.processor.Completes before ∧
          (reached.perform .step).1 = .error (.halt cause) ∧
          host.advance elapsed = (.error (.halt cause), after) ∧
          after.processor.machine = reached.machine ∧
          after.instructions =
            (host.instructions.paid elapsed executed).countedBy (before.count .instruction) ∧
          after.ticks = (host.ticks.paid elapsed ticks).countedBy (before.count .tick) ∧
          before.count .instruction < executed.toNat ∧
          before.count .tick ≤ ticks.toNat) := by
  obtain ⟨hexecuted, hticked⟩ := host.count_beats executed ticks
  by_cases hcompletes : host.processor.Completes (host.beats executed ticks)
  · rw [advance_ok_of_owed hinstructions hticks hcompletes]
    exact ⟨host.beats executed ticks, _, hexecuted, hticked,
      .inl ⟨hcompletes, rfl, rfl, host.behind_beats elapsed executed ticks⟩⟩
  · obtain ⟨before, rest, cause, hsplit, hbefore, hfault, hadvance⟩ :=
      advance_error_of_owed hinstructions hticks hcompletes
    rw [hadvance]
    refine ⟨host.beats executed ticks, _, hexecuted, hticked,
      .inr ⟨before, rest, cause, hsplit, hbefore, hfault, rfl,
        Processor.perform_of_fault hfault, rfl, rfl, ?_, ?_⟩⟩
    · rw [← hexecuted, hsplit, List.count_append, List.count_cons_self]
      omega
    · rw [← hticked, hsplit, List.count_append]
      omega

/-- A program whose second instruction stands for nothing, at four instructions
and two ticks in a second. -/
def stalling : Host ℚ where
  processor := .ofMachine (Machine.holding [0x60, 0x01, 0x00, 0x00]) {}
  instructions := ⟨4, 0, 0⟩
  ticks := ⟨2, 0, 0⟩
  logger := {}

/-- Of four instructions and two ticks one each is delivered; both clocks have
paid for all of them. -/
theorem stalling_delivers_one_of_each :
    stalling.instructions.owed 1 = .ok 4 ∧ stalling.ticks.owed 1 = .ok 2 ∧
    ∃ (before : List Beat) (after : Host ℚ),
      before.count .instruction = 1 ∧ before.count .tick = 1 ∧
      stalling.advance 1 = (.error (.halt (.unrecognizedOpcode 0)), after) ∧
      after.processor.machine =
        (stalling.processor.performAll (before.map Beat.command)).machine ∧
      after.instructions = (stalling.instructions.paid 1 4).countedBy 1 ∧
      after.ticks = (stalling.ticks.paid 1 2).countedBy 1 := by
  have hinstructions : stalling.instructions.owed 1 = .ok 4 := by decide +kernel
  have hticks : stalling.ticks.owed 1 = .ok 2 := by decide +kernel
  have hresult : (stalling.advance 1).1 = .error (.halt (.unrecognizedOpcode 0)) := by
    decide +kernel
  have hcount : (stalling.advance 1).2.instructions.count = 1 := by decide +kernel
  have hcount' : (stalling.advance 1).2.ticks.count = 1 := by decide +kernel
  obtain ⟨_, after, -, -, ⟨-, hadvance, -⟩ |
      ⟨before, _, cause, -, -, -, hadvance, hmachine, hpaid, hpaid', -⟩⟩ :=
    stalling.advance_accounts_for_cycles 1 hinstructions hticks
  · rw [hadvance] at hresult
    cases hresult
  · rw [hadvance] at hresult hcount hcount'
    have hbefore : before.count .instruction = 1 := by
      rwa [hpaid, Clock.countedBy, Clock.paid, stalling, Nat.zero_add] at hcount
    have hbefore' : before.count .tick = 1 := by
      rwa [hpaid', Clock.countedBy, Clock.paid, stalling, Nat.zero_add] at hcount'
    rw [hbefore] at hpaid
    rw [hbefore'] at hpaid'
    cases hresult
    exact ⟨hinstructions, hticks, before, after, hbefore, hbefore', hadvance, hmachine, hpaid,
      hpaid'⟩

end Chip8VM.Host
