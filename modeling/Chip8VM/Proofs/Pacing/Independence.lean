import Chip8VM.Proofs.Pacing.Exact

/-!
The two clocks of a host do not influence each other. An advance that succeeds
takes each clock as far as it would get on its own, whatever the other one owes
and whatever the program does with the cycles. So two hosts that agree on one
clock agree on it for as long as neither fails. The same operations are done on
the same numbers in both, so it does not matter whether they round.
-/

namespace Chip8VM

/-- What some time is worth to a clock on its own, and the clock that has paid for
it and counted it. -/
def Clock.elapse {τ : Type} [Quantity τ] (clock : Clock τ) (elapsed : τ) :
    Except Unmeasured (Int × Clock τ) :=
  (clock.owed elapsed).map fun cycles =>
    (cycles, (clock.paid elapsed cycles).countedBy cycles.toNat)

namespace Host

variable {τ : Type} [Quantity τ]

/-- What each of several advances answers and the host that it leaves behind. -/
def history (host : Host τ) : List τ → List (Except PacingFault Int × Host τ)
  | [] => []
  | elapsed :: rest => host.advance elapsed :: (host.advance elapsed).2.history rest

/-- Whether none of several advances fails. -/
def Advances (host : Host τ) (slices : List τ) : Prop :=
  ∀ call ∈ host.history slices, call.1.isOk = true

theorem advances_cons {host : Host τ} {elapsed : τ} {rest : List τ} :
    host.Advances (elapsed :: rest) ↔
      (host.advance elapsed).1.isOk = true ∧ (host.advance elapsed).2.Advances rest :=
  List.forall_mem_cons

/-- An advance takes either clock as far as it would get on its own. -/
theorem advance_elapses {host : Host τ} {elapsed : τ}
    (hok : (host.advance elapsed).1.isOk = true) :
    ∃ executed ticks, (host.advance elapsed).1 = .ok executed ∧
      host.instructions.elapse elapsed = .ok (executed, (host.advance elapsed).2.instructions) ∧
      host.ticks.elapse elapsed = .ok (ticks, (host.advance elapsed).2.ticks) := by
  rcases hadvance : host.advance elapsed with ⟨⟨fault⟩ | ⟨executed⟩, after⟩
  · rw [hadvance] at hok
    cases hok
  · obtain ⟨ticks, hinstructions, hticks, rfl⟩ := behind_of_advance hadvance
    obtain ⟨hexecuted, hticked⟩ := host.behind_beats elapsed executed ticks
    refine ⟨executed, ticks, rfl, ?_, ?_⟩
    · rw [Clock.elapse, hinstructions, hexecuted]
      rfl
    · rw [Clock.elapse, hticks, hticked]
      rfl

/-- Two hosts answer alike for ever if a relation between them, and what is
observed of a call, are kept by every advance that succeeds in both. -/
theorem history_alike {β : Type} (observe : Except PacingFault Int × Host τ → β)
    (alike : Host τ → Host τ → Prop)
    (hstep : ∀ first second elapsed, alike first second →
      (first.advance elapsed).1.isOk = true → (second.advance elapsed).1.isOk = true →
      observe (first.advance elapsed) = observe (second.advance elapsed) ∧
      alike (first.advance elapsed).2 (second.advance elapsed).2)
    {first second : Host τ} {slices : List τ} (halike : alike first second)
    (hfirst : first.Advances slices) (hsecond : second.Advances slices) :
    (first.history slices).map observe = (second.history slices).map observe := by
  induction slices generalizing first second with
  | nil => rfl
  | cons elapsed rest ih =>
      obtain ⟨hok, hrest⟩ := advances_cons.mp hfirst
      obtain ⟨hok', hrest'⟩ := advances_cons.mp hsecond
      obtain ⟨hobserve, hafter⟩ := hstep first second elapsed halike hok hok'
      simp only [history, List.map_cons, hobserve, ih hafter hrest hrest']

/-- Two hosts that agree on the clock of the ticks agree on it after every advance,
and two that agree on the clock of the instructions also give the same answers.
They may differ in all else, in the program too. -/
theorem clocks_are_independent (first second : Host τ) (slices : List τ)
    (hfirst : first.Advances slices) (hsecond : second.Advances slices) :
    (first.ticks = second.ticks →
      (first.history slices).map (fun call => call.2.ticks) =
        (second.history slices).map (fun call => call.2.ticks)) ∧
    (first.instructions = second.instructions →
      (first.history slices).map (fun call => (call.1, call.2.instructions)) =
        (second.history slices).map (fun call => (call.1, call.2.instructions))) := by
  constructor
  · intro hticks
    apply history_alike _ (fun one other => one.ticks = other.ticks) _ hticks hfirst hsecond
    intro one other elapsed hsame hok hok'
    obtain ⟨_, ticks, -, -, helapse⟩ := advance_elapses hok
    obtain ⟨_, ticks', -, -, helapse'⟩ := advance_elapses hok'
    rw [hsame, helapse'] at helapse
    have hafter := congrArg Prod.snd (Except.ok.inj helapse).symm
    exact ⟨hafter, hafter⟩
  · intro hinstructions
    apply history_alike _ (fun one other => one.instructions = other.instructions) _
      hinstructions hfirst hsecond
    intro one other elapsed hsame hok hok'
    obtain ⟨executed, _, hanswer, helapse, -⟩ := advance_elapses hok
    obtain ⟨executed', _, hanswer', helapse', -⟩ := advance_elapses hok'
    rw [hsame, helapse'] at helapse
    obtain ⟨hexecuted, hafter⟩ := Prod.mk.inj (Except.ok.inj helapse)
    rw [hanswer, hanswer', hexecuted, hafter]
    exact ⟨rfl, rfl⟩

/-- A program that jumps to itself. -/
def waiting : Host ℚ where
  processor := .ofMachine (Machine.holding [0x12, 0x00]) {}
  instructions := ⟨4, 0, 0⟩
  ticks := ⟨6, 1 / 2, 3⟩
  logger := {}

/-- A program that counts in a register, faster but beside the same ticks. -/
def counting : Host ℚ :=
  { waiting with
    processor := .ofMachine (Machine.holding [0x70, 0x01, 0x12, 0x00]) {}
    instructions := ⟨9, 1 / 3, 5⟩ }

/-- The first program at the pace of the second one, beside rare ticks. -/
def rarelyTicking : Host ℚ :=
  { waiting with instructions := counting.instructions, ticks := ⟨1, 0, 0⟩ }

/-- Neither another program nor its pace shows in the ticks, nor do other ticks show
in the pace. -/
theorem clocks_of_two_programs :
    waiting.Advances [1 / 3, 1 / 6, 1 / 2] ∧ counting.Advances [1 / 3, 1 / 6, 1 / 2] ∧
    rarelyTicking.Advances [1 / 3, 1 / 6, 1 / 2] ∧
    (waiting.history [1 / 3, 1 / 6, 1 / 2]).map (fun call => call.2.ticks) =
      (counting.history [1 / 3, 1 / 6, 1 / 2]).map (fun call => call.2.ticks) ∧
    (counting.history [1 / 3, 1 / 6, 1 / 2]).map (fun call => (call.1, call.2.instructions)) =
      (rarelyTicking.history [1 / 3, 1 / 6, 1 / 2]).map
        (fun call => (call.1, call.2.instructions)) := by
  have hwaiting : waiting.Advances [1 / 3, 1 / 6, 1 / 2] := by
    unfold Advances
    decide +kernel
  have hcounting : counting.Advances [1 / 3, 1 / 6, 1 / 2] := by
    unfold Advances
    decide +kernel
  have hrarely : rarelyTicking.Advances [1 / 3, 1 / 6, 1 / 2] := by
    unfold Advances
    decide +kernel
  exact ⟨hwaiting, hcounting, hrarely,
    (clocks_are_independent waiting counting _ hwaiting hcounting).1 rfl,
    (clocks_are_independent counting rarelyTicking _ hcounting hrarely).2 rfl⟩

end Host

end Chip8VM
