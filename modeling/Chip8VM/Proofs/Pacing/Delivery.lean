import Chip8VM.Pacing.Host
import Chip8VM.Proofs.Pacing.Agenda
import Chip8VM.Proofs.Processor.Command

/-!
What a host has done when beats have been delivered. If none of them fails, the
processor has been given their commands, in their order, and each clock has
counted its own; nothing else of the host has changed. Running an agenda is
delivering the list of its beats, and to advance is to pay for what both clocks
owe and then to deliver it.
-/

namespace Chip8VM

/-- Whether no instruction fails as beats are delivered to a processor. -/
def Processor.Completes (p : Processor) (beats : List Beat) : Prop :=
  ∀ cause, .error (.halt cause) ∉ p.answers (beats.map Beat.command)

namespace Processor

theorem completes_nil (p : Processor) : p.Completes [] := by
  intro cause hmem
  cases hmem

theorem completes_cons {p : Processor} {beat : Beat} {rest : List Beat} :
    p.Completes (beat :: rest) ↔
      (∀ cause, (p.perform beat.command).1 ≠ .error (.halt cause)) ∧
      (p.perform beat.command).2.Completes rest := by
  constructor
  · intro hcompletes
    constructor
    · intro cause hanswer
      exact hcompletes cause (hanswer ▸ List.mem_cons_self)
    · intro cause hmem
      exact hcompletes cause (List.mem_cons_of_mem _ hmem)
  · rintro ⟨hanswer, hrest⟩ cause hmem
    rcases List.mem_cons.mp hmem with hhead | htail
    · exact hanswer cause hhead.symm
    · exact hrest cause htail

theorem completes_append {p : Processor} {first second : List Beat} :
    p.Completes (first ++ second) ↔
      p.Completes first ∧ (p.performAll (first.map Beat.command)).Completes second := by
  induction first generalizing p with
  | nil => exact ⟨fun h => ⟨p.completes_nil, h⟩, fun h => h.2⟩
  | cons beat rest ih =>
      rw [List.cons_append, completes_cons, ih, completes_cons, and_assoc]
      rfl

end Processor

namespace Clock

variable {τ : Type}

/-- A clock that has counted some more cycles. -/
def countedBy (clock : Clock τ) (cycles : Nat) : Clock τ :=
  { clock with count := clock.count + cycles }

variable [Quantity τ]

/-- The whole cycles that a clock owes after some time, negative if time has run
backward. There are none to be had from a debt without an integer part. -/
def owed (clock : Clock τ) (elapsed : τ) : Except Unmeasured Int := do
  let charged ← clock.charge elapsed
  Quantity.integerPart charged.debt

/-- The clock after some time, with only the rest of its debt when so many cycles
are paid for. -/
def paid (clock : Clock τ) (elapsed : τ) (cycles : Int) : Clock τ :=
  { clock with debt := clock.debt + elapsed * clock.rate - Quantity.ofInt cycles }

theorem charge_of_owed {clock : Clock τ} {elapsed : τ} {cycles : Int}
    (howed : clock.owed elapsed = .ok cycles) :
    ∃ charged, clock.charge elapsed = .ok charged ∧
      Quantity.integerPart charged.debt = .ok cycles ∧
      charged.settle cycles = clock.paid elapsed cycles := by
  unfold owed charge at howed
  unfold charge
  by_cases hbeyond : Quantity.isBeyond (clock.debt + elapsed * clock.rate)
  · simp [hbeyond, bind, Except.bind] at howed
  · simp only [hbeyond, Bool.false_eq_true, if_false, bind, Except.bind] at howed ⊢
    exact ⟨_, rfl, howed, rfl⟩

end Clock

namespace Host

variable {τ : Type}

/-- The host behind beats of which none has failed. -/
def behind (host : Host τ) (beats : List Beat) : Host τ where
  processor := host.processor.performAll (beats.map Beat.command)
  instructions := host.instructions.countedBy (beats.count .instruction)
  ticks := host.ticks.countedBy (beats.count .tick)
  logger := host.logger

/-- The host when an instruction has failed behind some beats: it is not counted. -/
def stopped (host : Host τ) (before : List Beat) : Host τ :=
  { host.behind before with
    processor := ((host.behind before).processor.perform .step).2 }

/-- Delivers beats until one of them fails. -/
def deliverAll (host : Host τ) : List Beat → Except Halt Unit × Host τ
  | [] => (.ok (), host)
  | beat :: rest =>
      match host.deliver beat with
      | (.ok (), after) => after.deliverAll rest
      | (.error cause, after) => (.error cause, after)

/-- The beats of a list that reach the processor. If one of them fails, it is the
last to do so. -/
def delivered (host : Host τ) : List Beat → List Beat
  | [] => []
  | beat :: rest =>
      match host.deliver beat with
      | (.ok (), after) => beat :: after.delivered rest
      | (.error _, _) => [beat]

theorem run_eq_deliverAll [Quantity τ] (host : Host τ) (agenda : Agenda τ) :
    host.run agenda = host.deliverAll agenda.toList := by
  induction agenda using Agenda.toList.induct generalizing host with
  | case1 agenda beat hnext ih =>
      rw [run, Agenda.toList_of_some hnext, deliverAll]
      split
      next habsent => rw [hnext] at habsent; cases habsent
      next other hother =>
        obtain rfl : beat = other := Option.some.inj (hnext.symm.trans hother)
        rcases host.deliver beat with ⟨⟨_⟩ | ⟨_⟩, after⟩
        · rfl
        · exact ih after
  | case2 agenda hnext =>
      rw [run, Agenda.toList_of_none hnext, deliverAll]
      split
      next => rfl
      next other hother => rw [hnext] at hother; cases hother

theorem behind_nil (host : Host τ) : host.behind [] = host := rfl

theorem behind_append (host : Host τ) (first second : List Beat) :
    host.behind (first ++ second) = (host.behind first).behind second := by
  simp only [behind, Clock.countedBy, List.map_append, Processor.performAll_append,
    List.count_append, Nat.add_assoc]

/-- A beat fails only if it is an instruction that does, and then nothing is
counted. -/
theorem deliver_eq (host : Host τ) (beat : Beat) :
    (host.deliver beat = (.ok (), host.behind [beat]) ∧
      ∀ cause, (host.processor.perform beat.command).1 ≠ .error (.halt cause)) ∨
    ∃ cause, beat = .instruction ∧
      (host.processor.perform .step).1 = .error (.halt cause) ∧
      host.deliver beat = (.error cause, host.stopped []) := by
  cases beat with
  | tick =>
      left
      refine ⟨rfl, ?_⟩
      intro cause hanswer
      cases hanswer
  | instruction =>
      rcases hstep : host.processor.step with ⟨⟨cause⟩ | ⟨decoded⟩, after⟩
      · have hperform : host.processor.perform .step = (.error (.halt cause), after) := by
          simp only [Processor.perform, hstep]
        right
        refine ⟨cause, rfl, congrArg Prod.fst hperform, ?_⟩
        simp only [deliver, hstep, stopped, behind_nil, hperform]
      · have hperform : host.processor.perform .step = (.ok (.executed decoded), after) := by
          simp only [Processor.perform, hstep]
        have hafter : host.processor.performAll [.step] = after := congrArg Prod.snd hperform
        left
        constructor
        · simp only [deliver, hstep, behind, List.map_cons, List.map_nil, Beat.command, hafter]
          rfl
        · intro cause hanswer
          rw [Beat.command, hperform] at hanswer
          cases hanswer

theorem deliverAll_of_completes (host : Host τ) {beats : List Beat}
    (hcompletes : host.processor.Completes beats) :
    host.deliverAll beats = (.ok (), host.behind beats) ∧ host.delivered beats = beats := by
  induction beats generalizing host with
  | nil => exact ⟨rfl, rfl⟩
  | cons beat rest ih =>
      obtain ⟨hanswer, hrest⟩ := Processor.completes_cons.mp hcompletes
      rcases host.deliver_eq beat with ⟨hdeliver, -⟩ | ⟨cause, rfl, hfails, -⟩
      · have hbehind : host.behind (beat :: rest) = (host.behind [beat]).behind rest :=
          host.behind_append [beat] rest
        obtain ⟨hall, hdelivered⟩ := ih (host.behind [beat]) hrest
        rw [deliverAll, delivered, hdeliver, hbehind]
        exact ⟨hall, congrArg (beat :: ·) hdelivered⟩
      · exact absurd hfails (hanswer cause)

/-- A delivery in which an instruction fails ends there. -/
theorem deliverAll_of_not_completes (host : Host τ) {beats : List Beat}
    (hfails : ¬host.processor.Completes beats) :
    ∃ before rest cause, beats = before ++ .instruction :: rest ∧
      host.processor.Completes before ∧
      ((host.behind before).processor.perform .step).1 = .error (.halt cause) ∧
      host.deliverAll beats = (.error cause, host.stopped before) := by
  induction beats generalizing host with
  | nil => exact absurd host.processor.completes_nil hfails
  | cons beat rest ih =>
      rw [deliverAll]
      rcases host.deliver_eq beat with ⟨hdeliver, hanswer⟩ | ⟨cause, rfl, hanswer, hdeliver⟩
      · have hrest : ¬(host.behind [beat]).processor.Completes rest := fun hrest =>
          hfails (Processor.completes_cons.mpr ⟨hanswer, hrest⟩)
        obtain ⟨before, later, cause, hsplit, hbefore, hstep, hall⟩ := ih _ hrest
        have hbehind : (host.behind [beat]).behind before = host.behind (beat :: before) :=
          (host.behind_append [beat] before).symm
        have hstopped : (host.behind [beat]).stopped before = host.stopped (beat :: before) := by
          rw [stopped, hbehind, stopped]
        rw [hdeliver]
        refine ⟨beat :: before, later, cause, congrArg (beat :: ·) hsplit,
          Processor.completes_cons.mpr ⟨hanswer, hbefore⟩, ?_, ?_⟩
        · rw [← hbehind]
          exact hstep
        · rw [← hstopped]
          exact hall
      · rw [hdeliver]
        exact ⟨[], rest, cause, rfl, host.processor.completes_nil, hanswer, rfl⟩

section Advance

variable [Quantity τ]

/-- The host that has paid for what its clocks owe, before any of it is
delivered. -/
def paid (host : Host τ) (elapsed : τ) (executed ticks : Int) : Host τ :=
  { host with
    instructions := host.instructions.paid elapsed executed
    ticks := host.ticks.paid elapsed ticks }

/-- The beats of so many cycles of either clock, in the order in which they are
delivered. -/
def beats (host : Host τ) (executed ticks : Int) : List Beat :=
  Agenda.toList ⟨host.instructions.lane executed, host.ticks.lane ticks⟩

/-- What an advance answers after its delivery. -/
def answerOf (executed : Int) (result : Except Halt Unit) : Except PacingFault Int :=
  (result.map fun _ => executed).mapError .halt

theorem count_beats (host : Host τ) (executed ticks : Int) :
    (host.beats executed ticks).count .instruction = executed.toNat ∧
    (host.beats executed ticks).count .tick = ticks.toNat :=
  Agenda.count_toList _

theorem behind_beats (host : Host τ) (elapsed : τ) (executed ticks : Int) :
    let after := (host.paid elapsed executed ticks).behind (host.beats executed ticks)
    after.instructions = (host.instructions.paid elapsed executed).countedBy executed.toNat ∧
    after.ticks = (host.ticks.paid elapsed ticks).countedBy ticks.toNat := by
  obtain ⟨hexecuted, hticked⟩ := host.count_beats executed ticks
  rw [← hexecuted, ← hticked]
  exact ⟨rfl, rfl⟩

theorem advance_of_owed {host : Host τ} {elapsed : τ} {executed ticks : Int}
    (hinstructions : host.instructions.owed elapsed = .ok executed)
    (hticks : host.ticks.owed elapsed = .ok ticks) {result : Except Halt Unit} {after : Host τ}
    (hdeliver : (host.paid elapsed executed ticks).deliverAll (host.beats executed ticks) =
      (result, after)) :
    host.advance elapsed = (answerOf executed result, after) := by
  obtain ⟨charged, hcharge, hpart, hsettle⟩ := Clock.charge_of_owed hinstructions
  obtain ⟨charged', hcharge', hpart', hsettle'⟩ := Clock.charge_of_owed hticks
  simp only [paid, beats] at hdeliver
  simp only [advance, hcharge, hcharge', deliverOwed, hpart, hpart', bind, Except.bind, pure,
    Except.pure, run_eq_deliverAll, hsettle, hsettle', hdeliver]
  cases result with
  | ok done => rfl
  | error cause => rfl

section

variable {host : Host τ} {elapsed : τ} {executed ticks : Int}
  (hinstructions : host.instructions.owed elapsed = .ok executed)
  (hticks : host.ticks.owed elapsed = .ok ticks)
include hinstructions hticks

/-- An advance in which no instruction fails delivers all that is owed. -/
theorem advance_ok_of_owed (hcompletes : host.processor.Completes (host.beats executed ticks)) :
    host.advance elapsed =
      (.ok executed, (host.paid elapsed executed ticks).behind (host.beats executed ticks)) :=
  advance_of_owed hinstructions hticks
    ((host.paid elapsed executed ticks).deliverAll_of_completes hcompletes).1

/-- An advance in which an instruction fails delivers what comes before it. -/
theorem advance_error_of_owed
    (hfails : ¬host.processor.Completes (host.beats executed ticks)) :
    ∃ before rest cause, host.beats executed ticks = before ++ .instruction :: rest ∧
      host.processor.Completes before ∧
      ((host.processor.performAll (before.map Beat.command)).perform .step).1 =
        .error (.halt cause) ∧
      host.advance elapsed =
        (.error (.halt cause), (host.paid elapsed executed ticks).stopped before) := by
  obtain ⟨before, rest, cause, hsplit, hbefore, hfault, hdeliver⟩ :=
    (host.paid elapsed executed ticks).deliverAll_of_not_completes hfails
  exact ⟨before, rest, cause, hsplit, hbefore, hfault,
    advance_of_owed hinstructions hticks hdeliver⟩

end

/-- An advance that does not fail for want of a whole number finds one for either
clock. -/
theorem exists_owed {host : Host τ} {elapsed : τ}
    (hmeasured : ∀ reason, (host.advance elapsed).1 ≠ .error (.debt reason)) :
    ∃ executed ticks, host.instructions.owed elapsed = .ok executed ∧
      host.ticks.owed elapsed = .ok ticks := by
  unfold advance deliverOwed at hmeasured
  unfold Clock.owed
  cases hcharge : host.instructions.charge elapsed with
  | error reason => simp [hcharge] at hmeasured
  | ok charged =>
      cases hcharge' : host.ticks.charge elapsed with
      | error reason => simp [hcharge, hcharge'] at hmeasured
      | ok charged' =>
          simp only [hcharge, hcharge', bind, Except.bind] at hmeasured ⊢
          cases hpart : Quantity.integerPart charged.debt with
          | error reason => simp [hpart] at hmeasured
          | ok executed =>
              cases hpart' : Quantity.integerPart charged'.debt with
              | error reason => simp [hpart, hpart'] at hmeasured
              | ok ticks => exact ⟨executed, ticks, rfl, rfl⟩

/-- An advance that succeeds has delivered all that is owed. -/
theorem behind_of_advance {host after : Host τ} {elapsed : τ} {executed : Int}
    (hadvance : host.advance elapsed = (.ok executed, after)) :
    ∃ ticks, host.instructions.owed elapsed = .ok executed ∧
      host.ticks.owed elapsed = .ok ticks ∧
      after = (host.paid elapsed executed ticks).behind (host.beats executed ticks) := by
  have hmeasured : ∀ reason, (host.advance elapsed).1 ≠ .error (.debt reason) := by
    simp [hadvance]
  obtain ⟨owed, ticks, hinstructions, hticks⟩ := exists_owed hmeasured
  by_cases hcompletes : host.processor.Completes (host.beats owed ticks)
  · cases hadvance.symm.trans (advance_ok_of_owed hinstructions hticks hcompletes)
    exact ⟨ticks, hinstructions, hticks, rfl⟩
  · obtain ⟨_, _, cause, -, -, -, hfails⟩ :=
      advance_error_of_owed hinstructions hticks hcompletes
    cases hadvance.symm.trans hfails

end Advance

end Host

end Chip8VM
