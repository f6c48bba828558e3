import Chip8VM.Proofs.Pacing.Schedule
import Chip8VM.Proofs.Processor.Executions
import Chip8VM.Proofs.Window.Keyboard

/-!
A session, turn by turn. In a turn the events of a frame are taken in, and then the
host is advanced by some time. All turns together ask the processor for one list of
commands, which follows from the events and from the schedule of the host; the turns
end where these commands end, or at the first step among them that fails. The keypad
that a command finds is a matter of the events before it alone.
-/

namespace Chip8VM

open Processor (Command)

/-- Whether a command is a step. -/
def Processor.Command.isStep : Command → Bool
  | .step => true
  | _ => false

/-- The number of steps among some commands. -/
def stepsIn (commands : List Command) : Nat := commands.countP Command.isStep

theorem stepsIn_append (first second : List Command) :
    stepsIn (first ++ second) = stepsIn first + stepsIn second := List.countP_append

theorem ticksIn_append (first second : List Command) :
    ticksIn (first ++ second) = ticksIn first + ticksIn second := List.countP_append

theorem stepsIn_beats (beats : List Beat) :
    stepsIn (beats.map Beat.command) = beats.count .instruction := by
  rw [stepsIn, List.countP_map, List.count]
  congr 1
  funext beat
  cases beat <;> rfl

theorem ticksIn_beats (beats : List Beat) :
    ticksIn (beats.map Beat.command) = beats.count .tick := by
  rw [ticksIn, List.countP_map, List.count]
  congr 1
  funext beat
  cases beat <;> rfl

/-- No transition is a step or a tick. -/
theorem Transition.counts_transitions (transitions : List Transition) :
    stepsIn (transitions.map command) = 0 ∧ ticksIn (transitions.map command) = 0 := by
  have hidle : ∀ asked ∈ transitions.map command, ¬asked.isStep = true ∧ ¬asked.isTick = true := by
    intro asked hmem
    obtain ⟨⟨key, down⟩, -, rfl⟩ := List.mem_map.mp hmem
    cases down <;> exact ⟨nofun, nofun⟩
  exact ⟨List.countP_eq_zero.mpr fun asked hmem => (hidle asked hmem).1,
    List.countP_eq_zero.mpr fun asked hmem => (hidle asked hmem).2⟩

namespace Processor

/-- Whether no instruction fails as commands are given to a processor. -/
def Endures (p : Processor) (commands : List Command) : Prop :=
  ∀ cause, .error (.halt cause) ∉ p.answers commands

theorem endures_nil (p : Processor) : p.Endures [] := fun _ => List.not_mem_nil

theorem answers_append (p : Processor) (first second : List Command) :
    p.answers (first ++ second) = p.answers first ++ (p.performAll first).answers second := by
  induction first generalizing p with
  | nil => rfl
  | cons command rest ih =>
      rw [List.cons_append, answers, answers, ih, List.cons_append]
      rfl

theorem endures_append {p : Processor} {first second : List Command} :
    p.Endures (first ++ second) ↔ p.Endures first ∧ (p.performAll first).Endures second := by
  simp only [Endures, answers_append, List.mem_append, not_or, forall_and]

theorem endures_transitions (p : Processor) (transitions : List Transition) :
    p.Endures (transitions.map Transition.command) := by
  intro cause hmem
  cases (Transition.performAll_commands p transitions).2 _ hmem

end Processor

/-- What happens in a frame of a session: some events, and then some time passes. -/
structure Turn (τ : Type) where
  events : List WindowEvent
  elapsed : τ

namespace Turn

variable {τ : Type}

/-- What a turn asks of the processor if these are its beats. -/
def commands (turn : Turn τ) (beats : List Beat) : List Command :=
  (frameTransitions turn.events).map Transition.command ++ beats.map Beat.command

/-- What several turns ask of the processor, with a list of beats for each of them. -/
def allCommands (turns : List (Turn τ)) (schedule : List (List Beat)) : List Command :=
  (List.zipWith commands turns schedule).flatten

theorem counts_commands (turn : Turn τ) (beats : List Beat) :
    stepsIn (turn.commands beats) = beats.count .instruction ∧
    ticksIn (turn.commands beats) = beats.count .tick := by
  obtain ⟨hsteps, hticks⟩ := Transition.counts_transitions (frameTransitions turn.events)
  rw [commands, stepsIn_append, ticksIn_append, hsteps, hticks, stepsIn_beats, ticksIn_beats,
    Nat.zero_add, Nat.zero_add]
  exact ⟨rfl, rfl⟩

/-- The steps and ticks that turns ask for are the beats of their schedule. -/
theorem counts_allCommands {turns : List (Turn τ)} {schedule : List (List Beat)}
    (hlength : schedule.length = turns.length) :
    stepsIn (allCommands turns schedule) = schedule.flatten.count .instruction ∧
    ticksIn (allCommands turns schedule) = schedule.flatten.count .tick := by
  induction turns generalizing schedule with
  | nil =>
      obtain rfl := List.eq_nil_of_length_eq_zero hlength
      exact ⟨rfl, rfl⟩
  | cons turn rest ih =>
      obtain ⟨beats, schedule, rfl⟩ := List.exists_cons_of_length_eq_add_one hlength
      obtain ⟨hsteps, hticks⟩ := turn.counts_commands beats
      obtain ⟨hsteps', hticks'⟩ := ih (Nat.succ.inj hlength)
      rw [List.flatten_cons, List.count_append, List.count_append, ← hsteps, ← hticks, ← hsteps',
        ← hticks', ← stepsIn_append, ← ticksIn_append]
      exact ⟨rfl, rfl⟩

end Turn

namespace Processor

theorem keypad_beats (p : Processor) (beats : List Beat) :
    (p.performAll (beats.map Beat.command)).machine.keypad = p.machine.keypad := by
  induction beats generalizing p with
  | nil => rfl
  | cons beat rest ih =>
      have hbeat : (p.perform beat.command).2.machine.keypad = p.machine.keypad := by
        have heffect := p.machine.perform_effect beat.command
        rw [(p.perform_machine beat.command).2]
        generalize (p.machine.perform beat.command).1 = answer,
          (p.machine.perform beat.command).2 = after at heffect ⊢
        cases beat with
        | tick =>
            cases heffect with
            | ticked => rfl
            | refused _ => rfl
        | instruction =>
            cases heffect with
            | executed hstep =>
                exact (Machine.execute_frame ((p.machine.step_eq_ok_iff _ _).mp hstep).2).keypad
            | halted _ => rfl
            | refused _ => rfl
      exact (ih _).trans hbeat

/-- Behind some turns the keypad is what their events have made of it, whatever beats
have come between them. -/
theorem keypad_allCommands {τ : Type} (p : Processor) {turns : List (Turn τ)}
    {schedule : List (List Beat)} (hlength : schedule.length = turns.length) :
    (p.performAll (Turn.allCommands turns schedule)).machine.keypad =
      (turns.flatMap fun turn => frameTransitions turn.events).foldl
        (fun keypad transition => transition.apply keypad) p.machine.keypad := by
  induction turns generalizing p schedule with
  | nil =>
      obtain rfl := List.eq_nil_of_length_eq_zero hlength
      rfl
  | cons turn rest ih =>
      obtain ⟨beats, schedule, rfl⟩ := List.exists_cons_of_length_eq_add_one hlength
      have hturn : Turn.allCommands (turn :: rest) (beats :: schedule) =
          turn.commands beats ++ Turn.allCommands rest schedule := rfl
      rw [hturn, performAll_append, ih _ (Nat.succ.inj hlength), Turn.commands, performAll_append,
        keypad_beats, (Transition.performAll_commands p (frameTransitions turn.events)).1,
        List.flatMap_cons, List.foldl_append]

end Processor

namespace Host

variable {τ : Type}

/-- A host has given its processor some commands and has counted the steps and the
ticks among them. -/
structure Follows (host : Host τ) (commands : List Command) (after : Host τ) : Prop where
  processor : after.processor = host.processor.performAll commands
  instructions : after.instructions.count = host.instructions.count + stepsIn commands
  ticks : after.ticks.count = host.ticks.count + ticksIn commands
  logger : after.logger = host.logger

theorem follows_nil (host : Host τ) : host.Follows [] host := ⟨rfl, rfl, rfl, rfl⟩

theorem Follows.trans {host reached after : Host τ} {first second : List Command}
    (hfirst : host.Follows first reached) (hsecond : reached.Follows second after) :
    host.Follows (first ++ second) after where
  processor := by
    rw [hsecond.processor, hfirst.processor, Processor.performAll_append]
  instructions := by
    rw [hsecond.instructions, hfirst.instructions, stepsIn_append, Nat.add_assoc]
  ticks := by rw [hsecond.ticks, hfirst.ticks, ticksIn_append, Nat.add_assoc]
  logger := hsecond.logger.trans hfirst.logger

theorem follows_takeEvents (host : Host τ) (events : List WindowEvent) :
    host.Follows ((frameTransitions events).map Transition.command)
      (Session.takeEvents host events) := by
  obtain ⟨hsteps, hticks⟩ := Transition.counts_transitions (frameTransitions events)
  rw [Session.takeEvents_eq]
  exact ⟨rfl, by rw [hsteps]; rfl, by rw [hticks]; rfl, rfl⟩

theorem follows_behind (host : Host τ) (beats : List Beat) :
    host.Follows (beats.map Beat.command) (host.behind beats) where
  processor := rfl
  instructions := by rw [stepsIn_beats]; rfl
  ticks := by rw [ticksIn_beats]; rfl
  logger := rfl

/-- The host when the next step of its processor has failed: the step is not
counted. -/
def halted (host : Host τ) : Host τ :=
  { host with processor := (host.processor.perform .step).2 }

/-- A host has given its processor some commands of a list, and the next one of the
list is a step that fails. -/
structure StopsIn (host : Host τ) (commands before : List Command) (cause : Halt)
    (reached : Host τ) : Prop where
  split : ∃ later, commands = before ++ .step :: later
  endures : host.processor.Endures before
  follows : host.Follows before reached
  fails : (reached.processor.perform .step).1 = .error (.halt cause)

theorem StopsIn.append {host reached : Host τ} {commands before : List Command} {cause : Halt}
    (hstops : host.StopsIn commands before cause reached) (later : List Command) :
    host.StopsIn (commands ++ later) before cause reached where
  split := by
    obtain ⟨rest, rfl⟩ := hstops.split
    exact ⟨rest ++ later, by rw [List.append_assoc, List.cons_append]⟩
  endures := hstops.endures
  follows := hstops.follows
  fails := hstops.fails

theorem Follows.stopsIn {host reached stopped : Host τ} {first commands before : List Command}
    {cause : Halt} (hfollows : host.Follows first reached) (hendures : host.processor.Endures first)
    (hstops : reached.StopsIn commands before cause stopped) :
    host.StopsIn (first ++ commands) (first ++ before) cause stopped where
  split := by
    obtain ⟨later, rfl⟩ := hstops.split
    exact ⟨later, by rw [List.append_assoc]⟩
  endures := Processor.endures_append.mpr ⟨hendures, hfollows.processor ▸ hstops.endures⟩
  follows := hfollows.trans hstops.follows
  fails := hstops.fails

variable [Quantity τ]

/-- An advance for which both clocks owe a whole number of cycles delivers them, or as
many as come before the first instruction that fails. -/
theorem advance_of_schedule (host : Host τ) {elapsed : τ} {executed ticks : Int}
    (hinstructions : host.instructions.owed elapsed = .ok executed)
    (hticks : host.ticks.owed elapsed = .ok ticks) :
    let due := (host.beats executed ticks).map Beat.command
    (host.processor.Endures due → ∃ after, host.advance elapsed = (.ok executed, after) ∧
      host.Follows due after ∧
      ∀ slices, after.schedule slices = (host.paid elapsed executed ticks).schedule slices) ∧
    (¬host.processor.Endures due → ∃ before cause reached,
      host.advance elapsed = (.error (.halt cause), reached.halted) ∧
      host.StopsIn due before cause reached) := by
  intro due
  -- To pay changes no count, so what follows a host that has paid follows the host itself.
  have hpaid (beats : List Beat) : host.Follows (beats.map Beat.command)
      ((host.paid elapsed executed ticks).behind beats) := by
    obtain ⟨hprocessor, hexecuted, hticked, hlogger⟩ :=
      (host.paid elapsed executed ticks).follows_behind beats
    exact ⟨hprocessor, hexecuted, hticked, hlogger⟩
  constructor
  · intro hendures
    exact ⟨_, advance_ok_of_owed hinstructions hticks hendures, hpaid _, schedule_behind _ _⟩
  · intro hfails
    obtain ⟨before, rest, cause, hsplit, hbefore, hfault, hadvance⟩ :=
      advance_error_of_owed hinstructions hticks hfails
    refine ⟨before.map Beat.command, cause, _, hadvance, ⟨rest.map Beat.command, ?_⟩, hbefore,
      hpaid before, hfault⟩
    simp only [due, hsplit, List.map_append, List.map_cons, Beat.command]

end Host

namespace Session

variable {τ : Type}

/-- In a turn the keypad is what the events up to that turn have made of it. -/
theorem keypad_in_turn (p : Processor) {turns : List (Turn τ)} {schedule : List (List Beat)}
    (hlength : schedule.length = turns.length) {i : Nat} {turn : Turn τ}
    (hturn : turns[i]? = some turn) (before : List Beat) :
    (p.performAll (Turn.allCommands (turns.take i) (schedule.take i) ++
        turn.commands before)).machine.keypad =
      (((turns.take (i + 1)).map Turn.events).flatMap frameTransitions).foldl
        (fun keypad transition => transition.apply keypad) p.machine.keypad := by
  have hearlier : (schedule.take i).length = (turns.take i).length := by
    rw [List.length_take, List.length_take, hlength]
  rw [Processor.performAll_append, Turn.commands, Processor.performAll_append,
    Processor.keypad_beats, (Transition.performAll_commands _ _).1,
    Processor.keypad_allCommands _ hearlier, List.flatMap_map, List.take_add_one, hturn,
    List.flatMap_append, List.foldl_append]
  simp

variable [Quantity τ]

/-- Takes turns until one fails. -/
def takeTurns (host : Host τ) : List (Turn τ) → Except PacingFault Unit × Host τ
  | [] => (.ok (), host)
  | turn :: rest =>
      match (takeEvents host turn.events).advance turn.elapsed with
      | (.ok _, after) => takeTurns after rest
      | (.error fault, after) => (.error fault, after)

/-- The step lemma of the turns: the events are always taken in, and then the beats
that are due are delivered. -/
theorem takeTurn_of_schedule (host : Host τ) (turn : Turn τ) {executed ticks : Int}
    (hinstructions : host.instructions.owed turn.elapsed = .ok executed)
    (hticks : host.ticks.owed turn.elapsed = .ok ticks) :
    let asked := turn.commands (host.beats executed ticks)
    (host.processor.Endures asked → ∃ after,
      (takeEvents host turn.events).advance turn.elapsed = (.ok executed, after) ∧
      host.Follows asked after ∧
      ∀ slices, after.schedule slices =
        (host.paid turn.elapsed executed ticks).schedule slices) ∧
    (¬host.processor.Endures asked → ∃ before cause reached,
      (takeEvents host turn.events).advance turn.elapsed = (.error (.halt cause), reached.halted) ∧
      host.StopsIn asked before cause reached) := by
  intro asked
  have htaken := host.follows_takeEvents turn.events
  have hevents := host.processor.endures_transitions (frameTransitions turn.events)
  obtain ⟨hruns, hfails⟩ :=
    (takeEvents host turn.events).advance_of_schedule hinstructions hticks
  simp only [htaken.processor] at hruns hfails
  constructor
  · intro hendures
    obtain ⟨-, hdue⟩ := Processor.endures_append.mp hendures
    obtain ⟨after, hadvance, hfollows, hschedule⟩ := hruns hdue
    refine ⟨after, hadvance, htaken.trans hfollows, fun slices => ?_⟩
    rw [hschedule]
    exact (host.paid turn.elapsed executed ticks).schedule_counted _ 0 0 slices
  · intro hasked
    obtain ⟨before, cause, reached, hadvance, hstops⟩ :=
      hfails fun hdue => hasked (Processor.endures_append.mpr ⟨hevents, hdue⟩)
    exact ⟨_, cause, reached, hadvance, htaken.stopsIn hevents hstops⟩

/-- Turns whose commands all succeed lead from one host to the next: in each of them the
events are taken in and the host is advanced, and the host behind it has given its
processor what the turns so far ask for. -/
theorem exists_reached_of_endures {host : Host τ} {turns : List (Turn τ)}
    {schedule : List (List Beat)}
    (hschedule : host.schedule (turns.map Turn.elapsed) = .ok schedule)
    (hendures : host.processor.Endures (Turn.allCommands turns schedule)) :
    ∃ reached : ℕ → Host τ, reached 0 = host ∧
      (∀ i turn, turns[i]? = some turn → ∃ executed,
        (takeEvents (reached i) turn.events).advance turn.elapsed =
          (.ok executed, reached (i + 1))) ∧
      (∀ i, host.Follows (Turn.allCommands (turns.take i) (schedule.take i)) (reached i)) ∧
      takeTurns host turns = (.ok (), reached turns.length) := by
  induction turns generalizing host schedule with
  | nil =>
      cases hschedule
      refine ⟨fun _ => host, rfl, nofun, fun i => ?_, rfl⟩
      rw [List.take_nil, List.take_nil]
      exact host.follows_nil
  | cons turn rest ih =>
      obtain ⟨executed, ticks, later, hinstructions, hticks, hlater, rfl⟩ :=
        (host.schedule_cons_eq_ok_iff _ _ _).mp hschedule
      obtain ⟨hfirst, hrest⟩ := Processor.endures_append.mp hendures
      obtain ⟨after, hadvance, hfollows, hsame⟩ :=
        (takeTurn_of_schedule host turn hinstructions hticks).1 hfirst
      obtain ⟨reached, rfl, hadvances, hfollowing, htaken⟩ :=
        ih ((hsame _).trans hlater) (hfollows.processor ▸ hrest)
      refine ⟨Nat.rec host fun i _ => reached i, rfl, fun i => ?_, fun i => ?_, ?_⟩
      · cases i with
        | zero =>
            rintro _ ⟨⟩
            exact ⟨executed, hadvance⟩
        | succ i => exact hadvances i
      · cases i with
        | zero => exact host.follows_nil
        | succ i => exact hfollows.trans (hfollowing i)
      · rw [takeTurns, hadvance]
        exact htaken

/-- Turns whose commands all succeed are all taken. -/
theorem takeTurns_of_endures {host : Host τ} {turns : List (Turn τ)} {schedule : List (List Beat)}
    (hschedule : host.schedule (turns.map Turn.elapsed) = .ok schedule)
    (hendures : host.processor.Endures (Turn.allCommands turns schedule)) :
    ∃ after, takeTurns host turns = (.ok (), after) ∧
      host.Follows (Turn.allCommands turns schedule) after := by
  obtain ⟨reached, -, -, hfollows, htaken⟩ := exists_reached_of_endures hschedule hendures
  have hlength : schedule.length = turns.length := by
    rw [Host.length_of_schedule hschedule, List.length_map]
  refine ⟨_, htaken, ?_⟩
  have hwhole := hfollows turns.length
  rwa [List.take_length, List.take_of_length_le hlength.le] at hwhole

/-- Turns of which a command fails end in the turn of the first one that does. -/
theorem takeTurns_of_not_endures {host : Host τ} {turns : List (Turn τ)}
    {schedule : List (List Beat)}
    (hschedule : host.schedule (turns.map Turn.elapsed) = .ok schedule)
    (hfails : ¬host.processor.Endures (Turn.allCommands turns schedule)) :
    ∃ before cause reached,
      takeTurns host turns = (.error (.halt cause), reached.halted) ∧
      host.StopsIn (Turn.allCommands turns schedule) before cause reached := by
  induction turns generalizing host schedule with
  | nil => exact absurd host.processor.endures_nil hfails
  | cons turn rest ih =>
      obtain ⟨executed, ticks, later, hinstructions, hticks, hlater, rfl⟩ :=
        (host.schedule_cons_eq_ok_iff _ _ _).mp hschedule
      obtain ⟨hruns, hstops⟩ := takeTurn_of_schedule host turn hinstructions hticks
      by_cases hfirst : host.processor.Endures (turn.commands (host.beats executed ticks))
      · obtain ⟨reached, hadvance, hfollows, hsame⟩ := hruns hfirst
        have hrest : ¬reached.processor.Endures (Turn.allCommands rest later) := fun hrest =>
          hfails (Processor.endures_append.mpr ⟨hfirst, hfollows.processor ▸ hrest⟩)
        obtain ⟨before, cause, stopped, htaken, hstopped⟩ := ih ((hsame _).trans hlater) hrest
        refine ⟨_, cause, stopped, ?_, hfollows.stopsIn hfirst hstopped⟩
        rw [takeTurns, hadvance]
        exact htaken
      · obtain ⟨before, cause, stopped, hadvance, hstopped⟩ := hstops hfirst
        refine ⟨before, cause, stopped, ?_, hstopped.append _⟩
        rw [takeTurns, hadvance]

end Session

end Chip8VM
