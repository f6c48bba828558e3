import Chip8VM.Proofs.Pacing.Exact
import Mathlib.Order.Interval.Finset.Nat

/-!
The order of the beats within one advance, in exact arithmetic. Every beat has a
number among those of its kind, and with it a time at which it is due. The beats
come in the order of these times, a tick before an instruction that is due
together with it; whatever the rates and the debts, none is left out and none
comes twice. So what an instruction finds is the ticks that have fallen due by
then, and these only.
-/

namespace Chip8VM

namespace Beat

/-- The beats of a list, each with its number among those of its kind, when so
many of every kind have come before. -/
def numbered (done : Beat → Nat) : List Beat → List (Beat × Nat)
  | [] => []
  | beat :: rest =>
      (beat, done beat + 1) :: numbered (fun kind => done kind + [beat].count kind) rest

/-- A beat is due before another one, or together with it if it is a tick and the
other one an instruction. -/
def Precedes (due : Beat × Nat → ℚ) (one other : Beat × Nat) : Prop :=
  due one < due other ∨ due one = due other ∧ one.1 = .tick ∧ other.1 = .instruction

theorem numbered_append (done : Beat → Nat) (first second : List Beat) :
    numbered done (first ++ second) =
      numbered done first ++ numbered (fun kind => done kind + first.count kind) second := by
  induction first generalizing done with
  | nil => rfl
  | cons beat rest ih =>
      have hcount : ∀ kind, (beat :: rest).count kind = [beat].count kind + rest.count kind := by
        intro kind
        rw [← List.singleton_append, List.count_append]
      simp only [List.cons_append, numbered, ih, hcount, Nat.add_assoc]

/-- The numbers of every kind follow one another. -/
theorem mem_numbered {done : Beat → Nat} {beats : List Beat} {kind : Beat} {number : Nat} :
    (kind, number) ∈ numbered done beats ↔
      done kind < number ∧ number ≤ done kind + beats.count kind := by
  induction beats generalizing done with
  | nil =>
      simp only [numbered, List.not_mem_nil, List.count_nil, false_iff]
      omega
  | cons beat rest ih =>
      rw [numbered, List.mem_cons, ih]
      by_cases hkind : kind = beat
      · subst hkind
        simp only [Prod.mk.injEq, true_and, List.count_cons_self, List.count_nil]
        omega
      · simp [hkind, Ne.symm hkind]

variable {due : Beat × Nat → ℚ} {beats before rest : List Beat}

theorem Precedes.ne {one other : Beat × Nat} (hprecedes : Precedes due one other) :
    one ≠ other := by
  rintro rfl
  rcases hprecedes with hlt | ⟨-, htick, hinstruction⟩
  · exact lt_irrefl _ hlt
  · cases htick.symm.trans hinstruction

/-- In a list that is in order the ticks before an instruction are due by then and
those behind it are not. -/
theorem due_around_instruction
    (hsorted : (numbered (fun _ => 0) beats).Pairwise (Precedes due))
    (hsplit : beats = before ++ .instruction :: rest) {number : Nat}
    (hpos : 0 < number) (hcount : number ≤ beats.count .tick) :
    due (.tick, number) ≤ due (.instruction, before.count .instruction + 1) ↔
      number ≤ before.count .tick := by
  rw [hsplit, numbered_append, List.pairwise_append] at hsorted
  obtain ⟨-, hbehind, hacross⟩ := hsorted
  simp only [Nat.zero_add, numbered] at hbehind hacross
  constructor
  · intro hdue
    by_contra hlate
    have hlater : number ≤ before.count .tick + rest.count .tick := by
      simpa [hsplit] using hcount
    have hmem : (.tick, number) ∈
        numbered (fun kind => before.count kind + [Beat.instruction].count kind) rest :=
      mem_numbered.mpr ⟨lt_of_not_ge hlate, hlater⟩
    rcases (List.pairwise_cons.mp hbehind).1 _ hmem with hlt | ⟨-, hkind, -⟩
    · exact absurd hdue (not_le_of_gt hlt)
    · cases hkind
  · intro hearly
    have hmem : (.tick, number) ∈ numbered (fun _ => 0) before := by
      rw [mem_numbered, Nat.zero_add]
      exact ⟨hpos, hearly⟩
    rcases hacross _ hmem _ List.mem_cons_self with hlt | ⟨heq, -⟩
    · exact hlt.le
    · exact heq.le

/-- The ticks before an instruction are as many as are due by then. -/
theorem count_tick_before (hsorted : (numbered (fun _ => 0) beats).Pairwise (Precedes due))
    (hsplit : beats = before ++ .instruction :: rest) :
    before.count .tick =
      ((Finset.Icc 1 (beats.count .tick)).filter fun number =>
        due (.tick, number) ≤ due (.instruction, before.count .instruction + 1)).card := by
  have hbefore : before.count .tick ≤ beats.count .tick := by
    rw [hsplit, List.count_append]
    exact Nat.le_add_right _ _
  have hearly : (Finset.Icc 1 (beats.count .tick)).filter
      (fun number => due (.tick, number) ≤ due (.instruction, before.count .instruction + 1)) =
      Finset.Icc 1 (before.count .tick) := by
    ext number
    simp only [Finset.mem_filter, Finset.mem_Icc]
    constructor
    · rintro ⟨⟨hpos, hcount⟩, hdue⟩
      exact ⟨hpos, (due_around_instruction hsorted hsplit hpos hcount).mp hdue⟩
    · rintro ⟨hpos, hle⟩
      have hcount := hle.trans hbefore
      exact ⟨⟨hpos, hcount⟩, (due_around_instruction hsorted hsplit hpos hcount).mpr hle⟩
  rw [hearly, Nat.card_Icc, Nat.add_sub_cancel]

end Beat

/-- At a rate above zero each cycle is due later than the one before. -/
theorem Lane.dueAt_strictMono {lane : Lane ℚ} (hrate : 0 < lane.rate) :
    StrictMono lane.dueAt := by
  intro j k hjk
  have hcast : (j : ℚ) < k := Nat.cast_lt.mpr hjk
  exact div_lt_div_of_pos_right (sub_lt_sub_right hcast lane.start) hrate

namespace Agenda

variable {agenda : Agenda ℚ}

def lane (agenda : Agenda ℚ) : Beat → Lane ℚ
  | .instruction => agenda.instructions
  | .tick => agenda.ticks

def dueAt (agenda : Agenda ℚ) (numbered : Beat × Nat) : ℚ :=
  (agenda.lane numbered.1).dueAt numbered.2

/-- The beats that are left, with their numbers. -/
def timetable (agenda : Agenda ℚ) : List (Beat × Nat) :=
  Beat.numbered (fun kind => (agenda.lane kind).done) agenda.toList

theorem dueAt_advance (agenda : Agenda ℚ) (beat : Beat) :
    (agenda.advance beat).dueAt = agenda.dueAt := by
  funext ⟨kind, number⟩
  cases beat <;> cases kind <;> rfl

theorem timetable_of_some {beat : Beat} (hnext : agenda.next? = some beat) :
    agenda.timetable =
      (beat, (agenda.lane beat).done + 1) :: (agenda.advance beat).timetable := by
  have hdone : (fun kind => (agenda.lane kind).done + [beat].count kind) =
      fun kind => ((agenda.advance beat).lane kind).done := by
    funext kind
    cases beat <;> cases kind <;> rfl
  rw [timetable, toList_of_some hnext, Beat.numbered, hdone]
  rfl

theorem mem_timetable {kind : Beat} {number : Nat} (hmem : (kind, number) ∈ agenda.timetable) :
    (agenda.lane kind).done < number ∧ 0 < (agenda.lane kind).left := by
  have hleft : agenda.toList.count kind = (agenda.lane kind).left := by
    cases kind with
    | instruction => exact agenda.count_toList.1
    | tick => exact agenda.count_toList.2
  obtain ⟨hdone, hcount⟩ := Beat.mem_numbered.mp hmem
  exact ⟨hdone, by omega⟩

/-- The beat that comes next precedes all that come later: those of its own kind
because they are due one after the other, and the others because the first of them
does not precede it. -/
theorem next_precedes (hrate : ∀ kind, 0 < (agenda.lane kind).rate) {beat : Beat}
    (hnext : agenda.next? = some beat) {later : Beat × Nat}
    (hlater : later ∈ (agenda.advance beat).timetable) :
    Beat.Precedes agenda.dueAt (beat, (agenda.lane beat).done + 1) later := by
  obtain ⟨kind, number⟩ := later
  have hmono := Lane.dueAt_strictMono (hrate kind)
  obtain ⟨hdone, hleft⟩ := mem_timetable hlater
  cases beat with
  | instruction =>
      cases kind with
      | instruction => exact .inl (hmono hdone)
      | tick =>
          obtain ⟨-, hdue⟩ := (next?_eq_instruction_iff agenda).mp hnext
          have hfirst : agenda.instructions.due < agenda.ticks.due :=
            lt_of_not_ge (of_decide_eq_false (hdue.resolve_left hleft.ne'))
          exact .inl (hfirst.trans_le (hmono.monotone hdone))
  | tick =>
      cases kind with
      | instruction =>
          obtain ⟨-, hdue⟩ := (next?_eq_tick_iff agenda).mp hnext
          have hfirst : agenda.ticks.due ≤ agenda.instructions.due :=
            of_decide_eq_true (hdue.resolve_left hleft.ne')
          rcases (hfirst.trans (hmono.monotone hdone)).lt_or_eq with hlt | heq
          · exact .inl hlt
          · exact .inr ⟨heq, rfl, rfl⟩
      | tick => exact .inl (hmono hdone)

theorem timetable_sorted (hrate : ∀ kind, 0 < (agenda.lane kind).rate) :
    agenda.timetable.Pairwise (Beat.Precedes agenda.dueAt) := by
  induction agenda using toList.induct with
  | case1 agenda beat hnext ih =>
      rw [timetable_of_some hnext, List.pairwise_cons]
      constructor
      · intro later hlater
        exact next_precedes hrate hnext hlater
      · rw [← agenda.dueAt_advance beat]
        apply ih
        intro kind
        have hkept := hrate kind
        cases beat <;> cases kind <;> exact hkept
  | case2 agenda hnext =>
      rw [timetable, toList_of_none hnext]
      exact .nil

end Agenda

/-- The integer part of a number, cut off toward zero. -/
def truncated (q : ℚ) : ℤ := if 0 ≤ q then ⌊q⌋ else ⌈q⌉

theorem Clock.owed_eq_truncated (clock : Clock ℚ) (elapsed : ℚ) :
    clock.owed elapsed = .ok (truncated (clock.debt + elapsed * clock.rate)) := rfl

namespace Host

/-- When a beat of an interval is due, counted from its beginning. -/
def dueAt (host : Host ℚ) : Beat × Nat → ℚ
  | (.instruction, number) => (number - host.instructions.debt) / host.instructions.rate
  | (.tick, number) => (number - host.ticks.debt) / host.ticks.rate

theorem agenda_dueAt (host : Host ℚ) (executed ticks : ℤ) :
    Agenda.dueAt ⟨host.instructions.lane executed, host.ticks.lane ticks⟩ = host.dueAt := by
  funext ⟨kind, number⟩
  cases kind with
  | instruction => exact host.instructions.lane_dueAt executed number
  | tick => exact host.ticks.lane_dueAt ticks number

theorem beats_sorted (host : Host ℚ) (hinstructions : 0 < host.instructions.rate)
    (hticks : 0 < host.ticks.rate) (executed ticks : ℤ) :
    (Beat.numbered (fun _ => 0) (host.beats executed ticks)).Pairwise
      (Beat.Precedes host.dueAt) := by
  let agenda : Agenda ℚ := ⟨host.instructions.lane executed, host.ticks.lane ticks⟩
  have hdone : (fun _ => 0) = fun kind => (agenda.lane kind).done := by
    funext kind
    cases kind <;> rfl
  have hrate : ∀ kind, 0 < (agenda.lane kind).rate := by
    intro kind
    cases kind with
    | instruction => exact hinstructions
    | tick => exact hticks
  rw [hdone, ← host.agenda_dueAt executed ticks]
  exact Agenda.timetable_sorted hrate

/-- An advance gives its processor the beats in the order in which they are due, all of
them or those up to the first instruction that fails, and counts what it has given. The
order has each beat once; so before an instruction come just the ticks that are due by
then, and all that come later are due later. -/
theorem beats_in_order_of_time (host : Host ℚ) (elapsed : ℚ)
    (hinstructions : 0 < host.instructions.rate) (hticks : 0 < host.ticks.rate) :
    let executed := truncated (host.instructions.debt + elapsed * host.instructions.rate)
    let ticks := truncated (host.ticks.debt + elapsed * host.ticks.rate)
    let beats := host.beats executed ticks
    let timetable := Beat.numbered (fun _ => 0) beats
    let after := (host.advance elapsed).2
    (host.processor.Completes beats →
      (host.advance elapsed).1 = .ok executed ∧
      after.processor = host.processor.performAll (beats.map Beat.command) ∧
      after.instructions.count = host.instructions.count + executed.toNat ∧
      after.ticks.count = host.ticks.count + ticks.toNat) ∧
    (¬host.processor.Completes beats → ∃ before rest cause,
      beats = before ++ .instruction :: rest ∧ host.processor.Completes before ∧
      (host.advance elapsed).1 = .error (.halt cause) ∧
      after.processor = host.processor.performAll (before.map Beat.command ++ [.step]) ∧
      after.instructions.count = host.instructions.count + before.count .instruction ∧
      after.ticks.count = host.ticks.count + before.count .tick) ∧
    (∀ number, (.instruction, number) ∈ timetable ↔
      0 < number ∧ number ≤ executed.toNat) ∧
    (∀ number, (.tick, number) ∈ timetable ↔ 0 < number ∧ number ≤ ticks.toNat) ∧
    timetable.Nodup ∧ timetable.Pairwise (Beat.Precedes host.dueAt) ∧
    ∀ before rest, beats = before ++ .instruction :: rest →
      let due := host.dueAt (.instruction, before.count .instruction + 1)
      before.count .tick =
        ((Finset.Icc 1 ticks.toNat).filter fun number =>
          host.dueAt (.tick, number) ≤ due).card ∧
      ∀ number, before.count .tick < number → number ≤ ticks.toNat →
        due < host.dueAt (.tick, number) := by
  intro executed ticks beats timetable after
  obtain ⟨hexecuted, hticked⟩ :
      beats.count .instruction = executed.toNat ∧ beats.count .tick = ticks.toNat :=
    host.count_beats executed ticks
  have hsorted : timetable.Pairwise (Beat.Precedes host.dueAt) :=
    host.beats_sorted hinstructions hticks executed ticks
  have howed := host.instructions.owed_eq_truncated elapsed
  have howed' := host.ticks.owed_eq_truncated elapsed
  refine ⟨fun hcompletes => ?all, fun hfails => ?some, ?_, ?_, hsorted.imp Beat.Precedes.ne,
    hsorted, ?around⟩
  case all =>
    obtain ⟨hcount, hcount'⟩ := host.behind_beats elapsed executed ticks
    simp only [after, advance_ok_of_owed howed howed' hcompletes]
    exact ⟨rfl, rfl, congrArg Clock.count hcount, congrArg Clock.count hcount'⟩
  case some =>
    obtain ⟨before, rest, cause, hsplit, hbefore, -, hadvance⟩ :=
      advance_error_of_owed howed howed' hfails
    simp only [after, hadvance, Processor.performAll_append]
    exact ⟨before, rest, cause, hsplit, hbefore, rfl, rfl, rfl, rfl⟩
  · intro number
    rw [Beat.mem_numbered, hexecuted, Nat.zero_add]
  · intro number
    rw [Beat.mem_numbered, hticked, Nat.zero_add]
  case around =>
    intro before rest hsplit due
    rw [← hticked]
    constructor
    · exact Beat.count_tick_before hsorted hsplit
    · intro number hlate hcount
      have hpos : 0 < number := by omega
      refine lt_of_not_ge (fun hdue => ?_)
      exact absurd ((Beat.due_around_instruction hsorted hsplit hpos hcount).mp hdue)
        (not_le_of_gt hlate)

/-- A program that reads the delay timer into one register after another, at
sixteen instructions and sixty ticks in a second. The timer starts at a hundred; a tick
is owed already, and less than no instruction. -/
def sampling : Host ℚ where
  processor := .ofMachine
    { Machine.holding [0xF1, 0x07, 0xF2, 0x07, 0xF3, 0x07, 0xF4, 0x07, 0x12, 0x08] with
      delay := 100 } {}
  instructions := ⟨16, -1 / 2, 0⟩
  ticks := ⟨60, 1, 0⟩
  logger := {}

/-- In a quarter of a second three instructions are executed. The third is due in
seven thirty-seconds of a second, when fourteen of sixteen ticks are, and so it reads
eighty-six from the timer. -/
theorem third_instruction_behind_fourteen_ticks :
    0 < sampling.instructions.rate ∧ 0 < sampling.ticks.rate ∧
    (∃ before rest, sampling.beats 3 16 = before ++ .instruction :: rest ∧
      before.count .instruction = 2 ∧ before.count .tick = 14 ∧
      ((Finset.Icc 1 16).filter fun number =>
        sampling.dueAt (.tick, number) ≤ sampling.dueAt (.instruction, 3)).card = 14 ∧
      sampling.dueAt (.instruction, 3) < sampling.dueAt (.tick, 15)) ∧
    let after := (sampling.advance (1 / 4)).2
    (sampling.advance (1 / 4)).1 = .ok 3 ∧
    after.processor =
      sampling.processor.performAll ((sampling.beats 3 16).map Beat.command) ∧
    after.instructions.count = 3 ∧ after.ticks.count = 16 ∧
    after.processor.machine.register 3 = 86 := by
  have hinstructions : 0 < sampling.instructions.rate := by decide +kernel
  have hticks : 0 < sampling.ticks.rate := by decide +kernel
  have hexecuted :
      truncated (sampling.instructions.debt + 1 / 4 * sampling.instructions.rate) = 3 := by
    decide +kernel
  have hticked : truncated (sampling.ticks.debt + 1 / 4 * sampling.ticks.rate) = 16 := by
    decide +kernel
  have hresult : (sampling.advance (1 / 4)).1 = .ok 3 := by decide +kernel
  let before : List Beat :=
    .replicate 6 .tick ++ .instruction :: .replicate 4 .tick ++ .instruction :: .replicate 4 .tick
  have hsplit : sampling.beats 3 16 = before ++ .instruction :: [.tick, .tick] := by
    decide +kernel
  obtain ⟨hall, hsome, -, -, -, -, haround⟩ :=
    sampling.beats_in_order_of_time (1 / 4) hinstructions hticks
  rw [hexecuted, hticked] at hall hsome haround
  have hcompletes : sampling.processor.Completes (sampling.beats 3 16) := by
    by_contra hfails
    obtain ⟨_, _, cause, -, -, hhalted, -⟩ := hsome hfails
    cases hresult.symm.trans hhalted
  obtain ⟨-, hprocessor, hcount, hcount'⟩ := hall hcompletes
  obtain ⟨hearly, hlate⟩ := haround before [.tick, .tick] hsplit
  exact ⟨hinstructions, hticks,
    ⟨before, [.tick, .tick], hsplit, rfl, rfl, hearly.symm, hlate 15 (by decide) (by decide)⟩,
    hresult, hprocessor, hcount, hcount', by decide +kernel⟩

end Host

end Chip8VM
