import Chip8VM.Proofs.Pacing.Measured
import Chip8VM.Proofs.Processor.Failure
import Chip8VM.Proofs.Session.Opening
import Chip8VM.Proofs.Session.Turns
import Chip8VM.Terminal

/-!
Sessions without a window. Each frame is a turn without events, so a session gives its
processor the beats of the schedule that its host has for that many frames. It exits
with 0 and a summary if none of them fails, and with 1 and the number of instructions
done if one does. All this is so under any progress bar that never fails.
-/

namespace Chip8VM

open CommandLine (Options)
open Processor (Command)

theorem Processor.summary_report (p : Processor) (logger : Logger) (level : Level)
    (message : String) : (p.report logger level message).summary = p.summary := by
  rw [summary, summary, report_machine]

/-- A host that has logged what it has run, and what has become of its processor. -/
def Host.summarized {τ : Type} (host : Host τ) (frames : ℤ) : Host τ :=
  let told := host.processor.report host.logger .info (host.framesText frames)
  { host with processor := told.report host.logger .info host.processor.summary }

namespace ProgressBars

/-- Whether a bar counts so many more steps without failing, and could be closed before
and behind each of them. -/
def Lasts (bars : ProgressBars) : bars.Bar → ℕ → Prop
  | bar, 0 => bars.close bar = .ok ()
  | bar, n + 1 =>
      bars.close bar = .ok () ∧ (bars.update bar 1).1 = .ok () ∧ Lasts bars (bars.update bar 1).2 n

/-- Whether the bar of a number of frames never fails, from its beginning to its end. -/
def Accepts (bars : ProgressBars) (frames : ℤ) : Prop :=
  ∃ bar, bars.ofFrames frames none = .ok bar ∧ bars.Lasts bar frames.toNat

/-- A bar that is not seen does not fail. -/
theorem accepts_hidden (frames : ℤ) : hidden.Accepts frames := by
  refine ⟨(), rfl, ?_⟩
  induction frames.toNat with
  | zero => rfl
  | succ n ih => exact ⟨rfl, rfl, ih⟩

end ProgressBars

namespace Session

/-- What is logged when so many instructions are done and the next one fails. -/
def haltedRecord (instructions : ℕ) : LogRecord :=
  ⟨"chip8", .critical, "Halted after " ++ Text.decimal instructions ++ " instructions"⟩

section

variable {τ : Type} [Quantity τ]

/-- A schedule of frames without events asks for its beats and for nothing else. -/
theorem allCommands_of_schedule {host : Host τ} {frameTime : τ} {n : ℕ}
    {schedule : List (List Beat)}
    (hschedule : host.schedule (List.replicate n frameTime) = .ok schedule) :
    Turn.allCommands (List.replicate n ⟨[], frameTime⟩) schedule =
      schedule.flatten.map Beat.command := by
  obtain rfl : schedule.length = n := by
    rw [Host.length_of_schedule hschedule, List.length_replicate]
  clear hschedule
  induction schedule with
  | nil => rfl
  | cons beats rest ih =>
      rw [List.length_cons, List.replicate_succ, List.flatten_cons, List.map_append, ← ih]
      rfl

/-- Frames without a window are turns without events, under a bar that lasts as long as
they do. -/
theorem takeTurns_replicate {bars : ProgressBars} (host : Host τ) (frameTime : τ) {bar : bars.Bar}
    {n : ℕ} (hlasts : bars.Lasts bar n) (executed : ℤ) :
    let advanced := Host.advanceTimes bars host frameTime bar n executed
    takeTurns host (List.replicate n ⟨[], frameTime⟩) =
        (advanced.1.1.map fun _ => (), advanced.1.2) ∧
      bars.close advanced.2 = .ok () := by
  induction n generalizing host bar executed with
  | zero => exact ⟨rfl, hlasts⟩
  | succ n ih =>
      have htaken : takeEvents host [] = host := rfl
      obtain ⟨hclose, hupdate, hrest⟩ := hlasts
      dsimp only
      rw [List.replicate_succ, takeTurns, Host.advanceTimes, htaken]
      rcases host.advance frameTime with ⟨⟨fault⟩ | ⟨more⟩, after⟩
      · exact ⟨rfl, hclose⟩
      · rcases hcounted : bars.update bar 1 with ⟨result, counted⟩
        rw [hcounted] at hupdate hrest
        cases hupdate
        exact ih after hrest (executed + more)

/-- A session without a window takes its turns under a progress bar. -/
theorem runHeadless_of_takeTurns {bars : ProgressBars} {host : Host τ} {frames : ℤ}
    (hbar : bars.Accepts frames) {result : Except PacingFault Unit} {after : Host τ}
    (htaken : takeTurns host (List.replicate frames.toNat ⟨[], Host.frameTime⟩) =
      (result, after)) :
    runHeadless bars host frames =
      (result.mapError .pacing, if result.isOk then after.summarized frames else after) := by
  obtain ⟨bar, hcreate, hlasts⟩ := hbar
  obtain ⟨hturns, hclose⟩ := takeTurns_replicate host Host.frameTime hlasts 0
  rw [runHeadless, Host.runFramesUnder, hcreate]
  dsimp only
  rw [hclose]
  rw [hturns] at htaken
  generalize Host.advanceTimes bars host Host.frameTime bar frames.toNat 0 = advanced at htaken ⊢
  rcases advanced with ⟨⟨⟨fault⟩ | ⟨executed⟩, reached⟩, closed⟩
  · cases htaken
    rfl
  · cases htaken
    -- The summary is one of the processor that has logged the frames already.
    simp only [Processor.summary_report]
    rfl

/-- Without a bar no frame is run. -/
theorem runHeadless_of_refused {bars : ProgressBars} (host : Host τ) {frames : ℤ}
    {error : LibraryError} (hrefused : bars.ofFrames frames none = .error error) :
    runHeadless bars host frames = (.error (.pacing (.progress error)), host) := by
  rw [runHeadless, Host.runFramesUnder, hrefused]

variable {bars : ProgressBars} {host : Host τ} {frames : ℤ} (hbar : bars.Accepts frames)
  {schedule : List (List Beat)}
  (hschedule : host.schedule (List.replicate frames.toNat Host.frameTime) = .ok schedule)
include hbar hschedule

theorem runHeadless_of_endures
    (hendures : host.processor.Endures (schedule.flatten.map Beat.command)) :
    ∃ reached, host.Follows (schedule.flatten.map Beat.command) reached ∧
      runHeadless bars host frames = (.ok (), reached.summarized frames) := by
  rw [← allCommands_of_schedule hschedule] at hendures ⊢
  obtain ⟨reached, htaken, hfollows⟩ :=
    takeTurns_of_endures (by rw [List.map_replicate]; exact hschedule) hendures
  exact ⟨reached, hfollows, runHeadless_of_takeTurns hbar htaken⟩

theorem runHeadless_of_not_endures
    (hfails : ¬host.processor.Endures (schedule.flatten.map Beat.command)) :
    ∃ before cause reached,
      host.StopsIn (schedule.flatten.map Beat.command) before cause reached ∧
      runHeadless bars host frames = (.error (.pacing (.halt cause)), reached.halted) := by
  rw [← allCommands_of_schedule hschedule] at hfails ⊢
  obtain ⟨before, cause, reached, htaken, hstops⟩ :=
    takeTurns_of_not_endures (by rw [List.map_replicate]; exact hschedule) hfails
  exact ⟨before, cause, reached, hstops, runHeadless_of_takeTurns hbar htaken⟩

end

/-- Options of a session without a window: accepted ones, with a number of frames and a
rate that is a positive finite number. -/
structure Headless (options : Options) (frames : ℤ) : Prop extends Accepted options where
  framesGiven : .headless ∉ options.emptied
  frames : options.headless = some frames
  rateGiven : .rate ∉ options.emptied
  finite : ∃ rate, options.rate.toFloat? = some rate ∧ rate.isFinite = true
  positive : Number.le options.rate (.whole 0) = false

variable {options : Options} {frames : ℤ}

theorem hostOf_schedule (hheadless : Headless options frames) (loaded : Machine) :
    ∃ schedule, (hostOf options options.rate loaded).schedule
      (List.replicate frames.toNat Host.frameTime) = .ok schedule := by
  refine Host.schedule_of_regular (Clock.regular_atRate hheadless.finite)
    (Clock.regular_atRate ⟨_, rfl, rfl⟩) fun slice hslice => ?_
  rw [List.eq_of_mem_replicate hslice]
  exact Host.brief_frameTime

theorem run_of_start (libraries : Libraries) {host : Host Number} {rom : Rom}
    (hheadless : Headless options frames) (hstart : start options options.rate rom = .ok host)
    (script : Script Number) :
    run libraries options rom script = conclude (runHeadless libraries.bars host frames) := by
  have hframes : frames? options = .ok (some frames) := by
    rw [frames?, need, if_neg hheadless.framesGiven, hheadless.frames]
    rfl
  rw [run, runAt, hstart]
  dsimp only
  rw [hframes]

theorem summarized_signals (host : Host Number) (frames : ℤ) :
    (host.summarized frames).processor.signals.toList =
      host.processor.signals.toList ++ host.logger.signals .info (host.framesText frames) ++
        host.logger.signals .info host.processor.summary := by
  obtain ⟨-, htold⟩ :=
    host.processor.adds_report host.logger .info (host.framesText frames)
  obtain ⟨-, hsummed⟩ :=
    (host.processor.report host.logger .info (host.framesText frames)).adds_report host.logger
      .info host.processor.summary
  rw [← htold]
  exact hsummed

/-- The last line of a log whose last signal is a record. -/
theorem getLast?_lines {signals : Array Signal} {earlier : List Signal} {entry : LogRecord}
    (hsignals : signals.toList = earlier ++ [.record entry]) (elapsed : Binary64) :
    (lines options signals elapsed).getLast? =
      some (entry.line { colours := false, timestamps := true } elapsed) := by
  rw [lines, hsignals, List.filterMap_append]
  exact List.getLast?_concat

theorem hostOf_performAll (options : Options) (rate : Number) (loaded : Machine)
    (commands : List Command) :
    let p := (hostOf options rate loaded).processor.performAll commands
    p.machine = loaded.performAll commands ∧
    p.signals.toList =
      loadedSignals options ++ loaded.emissions (processorLogger options) commands := by
  obtain ⟨hmachine, hlogger, hsignals⟩ := hostOf_processor options rate loaded
  have hperformed := (hostOf options rate loaded).processor.performAll_machine commands
  have hadds := ((hostOf options rate loaded).processor.adds_performAll commands).2
  rw [hmachine] at hperformed
  rw [hmachine, hlogger, hsignals] at hadds
  exact ⟨hperformed, hadds⟩

/-- Only what is logged of the halt itself is not logged by the processor. -/
theorem eq_haltedRecord {loaded : Machine} {commands : List Command} {instructions : ℕ}
    {entry : LogRecord}
    (hmem : .record entry ∈ loadedSignals options ++
      loaded.emissions (processorLogger options) commands ++
        [.record (haltedRecord instructions)])
    (hname : entry.logger = "chip8") : entry = haltedRecord instructions := by
  have hother : entry.logger ≠ "cpu" := by
    rw [hname]
    decide
  rcases List.mem_append.mp hmem with hprocessor | hlast
  · rcases List.mem_append.mp hprocessor with hloaded | hemitted
    · exact absurd (Logger.name_of_mem_signals hloaded) hother
    · exact absurd (Machine.name_of_mem_emissions hemitted) hother
  · exact Signal.record.inj (List.mem_singleton.mp hlast)

section

variable (libraries : Libraries) {loaded : Machine} {data : List UInt8}
  (hheadless : Headless options frames)
  (hstart : start options options.rate (.ok data) = .ok (hostOf options options.rate loaded))
  (script : Script Number)
include hheadless hstart

theorem run_of_follows {commands : List Command} {reached : Host Number}
    (hfollows : (hostOf options options.rate loaded).Follows commands reached)
    (hruns : runHeadless libraries.bars (hostOf options options.rate loaded) frames =
      (.ok (), reached.summarized frames)) :
    (run libraries options (.ok data) script).1 = .exited 0 ∧
    (run libraries options (.ok data) script).2.toList =
      loadedSignals options ++ loaded.emissions (processorLogger options) commands ++
        (logger options).signals .info (reached.framesText frames) ++
        (logger options).signals .info reached.processor.summary := by
  obtain ⟨-, hsignals⟩ := hostOf_performAll options options.rate loaded commands
  have hlogger : reached.logger = logger options := hfollows.logger
  rw [run_of_start libraries hheadless hstart, hruns, ← hsignals, ← hlogger, ← hfollows.processor]
  exact ⟨rfl, summarized_signals reached frames⟩

theorem run_of_stopsIn {commands before : List Command} {cause : Halt} {reached : Host Number}
    (hstops : (hostOf options options.rate loaded).StopsIn commands before cause reached)
    (hruns : runHeadless libraries.bars (hostOf options options.rate loaded) frames =
      (.error (.pacing (.halt cause)), reached.halted)) :
    (run libraries options (.ok data) script).1 = .exited 1 ∧
    (run libraries options (.ok data) script).2.toList =
      loadedSignals options ++ loaded.emissions (processorLogger options) (before ++ [.step]) ++
        [.record (haltedRecord (stepsIn before))] := by
  obtain ⟨-, hsignals⟩ :=
    hostOf_performAll options options.rate loaded (before ++ [.step])
  have hhalted : reached.halted.processor =
      (hostOf options options.rate loaded).processor.performAll (before ++ [.step]) := by
    rw [Processor.performAll_append, ← hstops.follows.processor]
    rfl
  have hlogger : reached.halted.logger = logger options := hstops.follows.logger
  have hcount : reached.halted.instructions.count = stepsIn before :=
    hstops.follows.instructions.trans (Nat.zero_add _)
  have hrecord := Logger.signals_critical (logger options)
    ("Halted after " ++ Text.decimal (stepsIn before) ++ " instructions")
  have hadds := (reached.halted.processor.adds_report (logger options) .critical
    ("Halted after " ++ Text.decimal (stepsIn before) ++ " instructions")).2
  rw [run_of_start libraries hheadless hstart, hruns, ← hsignals, ← hhalted, conclude, hlogger,
    hcount]
  rw [hrecord] at hadds
  exact ⟨rfl, hadds⟩

end

/-- A session without a window, from its options to its end. What the frames ask of the
processor follows from the rates alone; the program is where it should be when they
begin. If no instruction fails, all that is asked has been done when the session
exits with 0, and the last two messages tell how much that was and what has become of
the machine. If one fails, the session exits with 1, the machine is left as it was
before that instruction, the last line tells how many were done, and no other message
of the session is in the log. This is so for every number of frames whose progress bar
does not fail; without a bar to begin with, no frame is run. A program that is too long
and a file that cannot be read end the session whatever the rate. -/
theorem headless_sessions_end_with_schedule (libraries : Libraries) {options : Options}
    (haccepted : Accepted options) (script : Script Number) :
    ∃ initial, (setup options).machine = .ok initial ∧
      (∀ data frames, data.length ≤ 3584 → Headless options frames →
        let loaded := { initial with memory := initial.memory.writeBlock programStart data }
        let host := hostOf options options.rate loaded
        let ended := run libraries options (.ok data) script
        start options options.rate (.ok data) = .ok host ∧
        (libraries.bars.Accepts frames → ∃ schedule,
          host.schedule (List.replicate frames.toNat Host.frameTime) = .ok schedule ∧
          let asked := schedule.flatten.map Beat.command
          (ended.1 = .exited 0 ↔ host.processor.Endures asked) ∧
          (host.processor.Endures asked → ∃ reached : Host Number,
            runHeadless libraries.bars host frames = (.ok (), reached.summarized frames) ∧
            reached.processor.machine = loaded.performAll asked ∧
            reached.instructions.count = stepsIn asked ∧ reached.ticks.count = ticksIn asked ∧
            ended.2.toList =
              loadedSignals options ++ loaded.emissions (processorLogger options) asked ++
                (logger options).signals .info (reached.framesText frames) ++
                (logger options).signals .info reached.processor.summary) ∧
          (¬host.processor.Endures asked → ∃ before cause reached,
            host.StopsIn asked before cause reached ∧
            runHeadless libraries.bars host frames =
              (.error (.pacing (.halt cause)), reached.halted) ∧
            reached.halted.processor.machine = loaded.performAll before ∧
            ended.1 = .exited 1 ∧
            ended.2.toList =
              loadedSignals options ++
                loaded.emissions (processorLogger options) (before ++ [.step]) ++
                [.record (haltedRecord (stepsIn before))] ∧
            (∀ elapsed, (lines options ended.2 elapsed).getLast? =
              some ((haltedRecord (stepsIn before)).line
                { colours := false, timestamps := true } elapsed)) ∧
            ∀ entry, .record entry ∈ ended.2.toList → entry.logger = "chip8" →
              entry = haltedRecord (stepsIn before))) ∧
        ∀ error, libraries.bars.ofFrames frames none = .error error →
          ended = (.failed (.pacing (.progress error)), host.processor.signals)) ∧
      (∀ data, 3584 < data.length →
        run libraries options (.ok data) script =
          (.failed (.processor .blockDoesNotFit), #[])) ∧
      ∀ error, (run libraries options (.error error) script).1 = .exited 1 ∧
        (run libraries options (.error error) script).2.toList =
          (logger options).signals .error ("Could not read ROM: " ++ error.message) := by
  obtain ⟨initial, hinitial, hcreate⟩ := createProcessor_of_accepted haccepted
  refine ⟨initial, hinitial, ?fitting, ?long, ?unreadable⟩
  case fitting =>
    intro data frames hfits hheadless loaded host ended
    have hstart : start options options.rate (.ok data) = .ok host :=
      start_of_fitting haccepted hcreate hfits hheadless.rateGiven
        (Bool.or_eq_false_iff.mpr ⟨hheadless.positive, rfl⟩)
    refine ⟨hstart, fun hbar => ?_, fun error hrefused => ?_⟩
    · obtain ⟨schedule, hschedule⟩ := hostOf_schedule hheadless loaded
      by_cases hendures : host.processor.Endures (schedule.flatten.map Beat.command)
      · obtain ⟨reached, hfollows, hruns⟩ := runHeadless_of_endures hbar hschedule hendures
        obtain ⟨hexit, hsignals⟩ :=
          run_of_follows libraries hheadless hstart script hfollows hruns
        have hmachine : reached.processor.machine = loaded.performAll _ :=
          hfollows.processor ▸ (hostOf_performAll _ _ _ _).1
        exact ⟨schedule, hschedule, iff_of_true hexit hendures,
          fun _ => ⟨reached, hruns, hmachine, hfollows.instructions.trans (Nat.zero_add _),
            hfollows.ticks.trans (Nat.zero_add _), hsignals⟩,
          fun hfails => absurd hendures hfails⟩
      · obtain ⟨before, cause, reached, hstops, hruns⟩ :=
          runHeadless_of_not_endures hbar hschedule hendures
        obtain ⟨hexit, hsignals⟩ := run_of_stopsIn libraries hheadless hstart script hstops hruns
        have hmachine : reached.halted.processor.machine = loaded.performAll before := by
          rw [Host.halted, Processor.perform_of_fault hstops.fails, hstops.follows.processor]
          exact (hostOf_performAll _ _ _ _).1
        have hother : ended.1 ≠ .exited 0 := fun hzero => by cases hzero.symm.trans hexit
        exact ⟨schedule, hschedule, iff_of_false hother hendures,
          fun hcompletes => absurd hcompletes hendures,
          fun _ => ⟨before, cause, reached, hstops, hruns, hmachine, hexit, hsignals,
            getLast?_lines hsignals, fun _ hmem hname => eq_haltedRecord (hsignals ▸ hmem) hname⟩⟩
    · rw [show ended = _ from run_of_start libraries hheadless hstart script,
        runHeadless_of_refused host hrefused]
      rfl
  case long =>
    intro data hlong
    rw [run, runAt, start_of_long haccepted hcreate options.rate hlong]
  case unreadable =>
    intro error
    rw [run, runAt, start_of_unreadable haccepted hcreate options.rate error]
    exact ⟨rfl, (Processor.adds_report _ _ _ _).2⟩

/-- A program whose second instruction stands for nothing halts in the first frame. -/
theorem second_instruction_halts_headless :
    let options : Options := { rom := "bad.ch8", headless := some 2 }
    let ended := run Terminal.libraries options (.ok [0x60, 0x01, 0x00, 0x00]) ⟨[], ⟨.whole 0, []⟩⟩
    ended.1 = .exited 1 ∧
    ∀ elapsed, (lines options ended.2 elapsed).getLast? =
      some (LogRecord.line ⟨"chip8", .critical, "Halted after 1 instructions"⟩
        { colours := false, timestamps := true } elapsed) := by
  intro options ended
  have haccepted : Accepted options := ⟨by decide, nofun, nofun, by decide⟩
  have hheadless : Headless options 2 :=
    ⟨haccepted, nofun, rfl, nofun, ⟨_, rfl, rfl⟩, rfl⟩
  have hend : ended.1 = .exited 1 := by decide +kernel
  have hlogged : ended.2.toList.getLast? =
      some (.record ⟨"chip8", .critical, "Halted after 1 instructions"⟩) := by decide +kernel
  obtain ⟨_, -, hfitting, -⟩ :=
    headless_sessions_end_with_schedule Terminal.libraries haccepted ⟨[], ⟨.whole 0, []⟩⟩
  obtain ⟨-, hbar, -⟩ := hfitting [0x60, 0x01, 0x00, 0x00] 2 (by decide) hheadless
  obtain ⟨schedule, -, hexit, -, hfailed⟩ := hbar (ProgressBars.accepts_hidden 2)
  obtain ⟨before, _, _, -, -, -, -, hsignals, hlast, -⟩ :=
    hfailed fun hendures => by cases (hexit.mpr hendures).symm.trans hend
  have hrecord : haltedRecord (stepsIn before) =
      ⟨"chip8", .critical, "Halted after 1 instructions"⟩ := by
    rw [show ended.2.toList = _ from hsignals, List.getLast?_concat] at hlogged
    exact Signal.record.inj (Option.some.inj hlogged)
  exact ⟨hend, hrecord ▸ hlast⟩

/-- Bars that compute with their total as a floating-point number. -/
def measuredBars : ProgressBars where
  Bar := Unit
  create total _ _ :=
    if Binary64.inRange total then .ok ()
    else .error ⟨"range", "the number is too large for a progress bar"⟩
  update bar _ := (.ok (), bar)
  close _ := .ok ()

/-- A number of frames that is beyond the range of floating-point numbers is not run
under such a bar, although there is nothing wrong with the rate and the program. -/
theorem huge_number_of_frames_is_not_run :
    let options : Options := { rom := "rom.ch8", headless := some (10 ^ 400) }
    let ended := run ⟨measuredBars, Terminal.toolkit⟩ options (.ok [0x00, 0x00])
      ⟨[], ⟨.whole 0, []⟩⟩
    Headless options (10 ^ 400) ∧ ended.1 ≠ .exited 0 ∧ ended.1 ≠ .exited 1 ∧
    ∃ error, ended.1 = .failed (.pacing (.progress error)) := by
  intro options ended
  have haccepted : Accepted options := ⟨by decide, nofun, nofun, by decide⟩
  have hend : ended.1 = .failed (.pacing (.progress
      ⟨"range", "the number is too large for a progress bar"⟩)) := by decide +kernel
  exact ⟨⟨haccepted, nofun, rfl, nofun, ⟨_, rfl, rfl⟩, rfl⟩, hend ▸ nofun, hend ▸ nofun, _, hend⟩

end Session

end Chip8VM
