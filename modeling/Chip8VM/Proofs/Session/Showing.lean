import Chip8VM.Proofs.Session.Turns
import Chip8VM.Proofs.Window.Opening

/-!
A session in a window that is closed in the end. Every frame before that takes a
turn: its events are taken in, the time since the frame before is run off, and the
screen is drawn. In exact arithmetic neither the frames nor the clock that they read
lose any time, and nothing is run behind the frame that closes the window. A window
without a square for each pixel of the screen cannot be drawn on, so all this takes a
scale of one or more.
-/

namespace Chip8VM

open CommandLine (Options)
open Processor (Command)

/-- The time between the readings of a clock. -/
def intervals : ℚ → List ℚ → List ℚ
  | _, [] => []
  | last, now :: rest => (now - last) :: intervals now rest

theorem length_intervals (last : ℚ) (times : List ℚ) :
    (intervals last times).length = times.length := by
  induction times generalizing last with
  | nil => rfl
  | cons now rest ih => rw [intervals, List.length_cons, ih, List.length_cons]

/-- The intervals make up the time between the first reading and the last. -/
theorem sum_intervals (last : ℚ) (times : List ℚ) :
    (intervals last times).sum = times.getLastD last - last := by
  induction times generalizing last with
  | nil => simp [intervals]
  | cons now rest ih =>
      rw [intervals, List.sum_cons, ih, List.getLastD_cons]
      ring

theorem intervals_nonneg {last : ℚ} {times : List ℚ} (hclock : (last :: times).Pairwise (· ≤ ·)) :
    ∀ interval ∈ intervals last times, 0 ≤ interval := by
  induction times generalizing last with
  | nil => exact fun _ hmem => absurd hmem List.not_mem_nil
  | cons now rest ih =>
      obtain ⟨hlast, hrest⟩ := List.pairwise_cons.mp hclock
      rw [intervals, List.forall_mem_cons]
      exact ⟨sub_nonneg.mpr (hlast now List.mem_cons_self), ih hrest⟩

/-- In exact arithmetic the clocks of a new host run, and owe nothing. -/
theorem Host.settled_of_create {processor : Processor} {rate : ℚ} {logger : Logger} {host : Host ℚ}
    (hcreate : Host.create processor rate (Quantity.ofInt timerFrequency) logger = .ok host) :
    host.Settled ∧ host.processor = processor ∧ host.instructions = ⟨rate, 0, 0⟩ ∧
      host.ticks = ⟨60, 0, 0⟩ := by
  rw [create] at hcreate
  split at hcreate
  next => cases hcreate
  next hrates =>
    obtain rfl := Except.ok.inj hcreate
    obtain ⟨hrate, -⟩ : 0 < rate ∧ ¬timerFrequency = 0 := by
      simpa [Quantity.le, Quantity.ofInt] using hrates
    refine ⟨⟨?_, ?_⟩, rfl, rfl, rfl⟩
    · exact ⟨hrate, le_rfl, one_pos⟩
    · exact ⟨by norm_num [Clock.atRate, Quantity.ofInt, timerFrequency], le_rfl, one_pos⟩

namespace Session

/-- The turns of some frames, with the readings of the clock in them. -/
def turns (last : ℚ) (frames : List (List WindowEvent)) (times : List ℚ) : List (Turn ℚ) :=
  List.zipWith Turn.mk frames (intervals last times)

/-- Frames that leave the window open are turns, and the frame that closes it is none:
only its events are taken in. -/
theorem play_of_takeTurns {toolkit : Toolkit} (hlawful : toolkit.Lawful) {scale : ℤ}
    (hscale : 1 ≤ scale) {scheme : Scheme} {window : Window} (hwindow : window.IsAt scale scheme)
    {closing : List WindowEvent} (hcloses : staysOpen closing = false)
    (later : List (List WindowEvent)) (more : List ℚ) {frames : List (List WindowEvent)}
    (hopen : ∀ events ∈ frames, staysOpen events = true) {times : List ℚ}
    (htimes : times.length = frames.length) {host reached : Host ℚ} {last : ℚ}
    {result : Except PacingFault Unit}
    (htaken : takeTurns host (turns last frames times) = (result, reached)) :
    let played := play toolkit ⟨host, window, last⟩ (.ofList (times ++ more) last)
      (frames ++ closing :: later)
    played.1 = result.mapError .pacing ∧
      played.2.host = if result.isOk then takeEvents reached closing else reached := by
  induction frames generalizing host window last times with
  | nil =>
      obtain rfl := List.eq_nil_of_length_eq_zero htimes
      cases htaken
      dsimp only
      rw [List.nil_append, List.nil_append, play, hcloses]
      exact ⟨rfl, rfl⟩
  | cons events rest ih =>
      obtain ⟨now, times, rfl⟩ := List.exists_cons_of_length_eq_add_one htimes
      obtain ⟨hevents, hrest⟩ := List.forall_mem_cons.mp hopen
      have hturns : turns last (events :: rest) (now :: times) =
          ⟨events, now - last⟩ :: turns now rest times := rfl
      have hnext : (Readings.ofList (now :: (times ++ more)) last).next = now := rfl
      have hlater : (Readings.ofList (now :: (times ++ more)) last).rest =
          .ofList (times ++ more) now := rfl
      dsimp only
      rw [hturns, takeTurns] at htaken
      rw [List.cons_append, List.cons_append, play, if_pos hevents, hnext, hlater, showFrame]
      dsimp only at htaken ⊢
      generalize (takeEvents host events).advance (now - last) = advanced at htaken ⊢
      rcases advanced with ⟨⟨fault⟩ | ⟨executed⟩, after⟩
      · cases htaken
        exact ⟨rfl, rfl⟩
      · obtain ⟨drawn, hdraw, hdrawn, -⟩ :=
          Window.exists_draw hlawful hscale hwindow after.processor.machine.screen
        dsimp only at htaken ⊢
        rw [hdraw]
        exact ih hdrawn hrest (Nat.succ.inj htimes) htaken

theorem runAt_of_window (libraries : Libraries) {rate : ℚ} {options : Options} {rom : Rom}
    {host : Host ℚ} (hstart : start options rate rom = .ok host)
    (hmode : frames? options = .ok none) (script : Script ℚ) :
    runAt libraries rate options rom script =
      conclude (runWindow libraries.toolkit host options script).1 := by
  rw [runAt, hstart]
  dsimp only
  rw [hmode]

/-- What happens to a window that some frames leave open and the next one closes, with a
clock that never runs backward and is read in each frame before that one. -/
structure Viewing where
  frames : List (List WindowEvent)
  closing : List WindowEvent
  later : List (List WindowEvent)
  opened : ℚ
  times : List ℚ
  more : List ℚ
  opens : ∀ events ∈ frames, .quit ∉ events ∧ .keyDown .escape ∉ events
  closes : .quit ∈ closing ∨ .keyDown .escape ∈ closing
  length_times : times.length = frames.length
  ordered : (opened :: times).Pairwise (· ≤ ·)

namespace Viewing

def script (viewing : Viewing) : Script ℚ where
  events := viewing.frames ++ viewing.closing :: viewing.later
  clock := ⟨viewing.opened, viewing.times ++ viewing.more⟩

def turns (viewing : Viewing) : List (Turn ℚ) :=
  Session.turns viewing.opened viewing.frames viewing.times

/-- The time between the opening of the window and the last frame before it is closed. -/
def lasted (viewing : Viewing) : ℚ := viewing.times.getLastD viewing.opened - viewing.opened

/-- The events that are not lost: those before the first one that closes the window. -/
def taken (viewing : Viewing) : List WindowEvent :=
  viewing.frames.flatten ++
    viewing.closing.takeWhile fun event => event ≠ .quit ∧ event ≠ .keyDown .escape

theorem staysOpen_frames (viewing : Viewing) :
    ∀ events ∈ viewing.frames, staysOpen events = true :=
  fun events hmem => (staysOpen_iff events).mpr (viewing.opens events hmem)

theorem surviving_frames (viewing : Viewing) :
    WindowEvent.surviving (viewing.frames ++ [viewing.closing]) = viewing.taken := by
  have hcloses : (fun event : WindowEvent => !event.closes) =
      fun event => decide (event ≠ .quit ∧ event ≠ .keyDown .escape) := by
    funext event
    rw [Bool.eq_iff_iff, Bool.not_eq_true', ← Bool.not_eq_true, event.closes_iff, not_or,
      decide_eq_true_iff]
  rw [taken, ← WindowEvent.surviving_of_staysOpen viewing.staysOpen_frames, ← hcloses]
  simp [WindowEvent.surviving]

theorem map_turns (viewing : Viewing) :
    viewing.turns.map Turn.events = viewing.frames ∧
    viewing.turns.map Turn.elapsed = intervals viewing.opened viewing.times := by
  have hlength : (intervals viewing.opened viewing.times).length = viewing.frames.length := by
    rw [length_intervals, viewing.length_times]
  constructor
  · exact List.ext_getElem (by simp [turns, Session.turns, hlength])
      fun _ _ _ => by simp [turns, Session.turns]
  · exact List.ext_getElem (by simp [turns, Session.turns, hlength])
      fun _ _ _ => by simp [turns, Session.turns]

/-- The beats of all turns are the cycles that the rates are worth over the whole time. -/
theorem exists_schedule (viewing : Viewing) {rate : ℚ} {processor : Processor} {logger : Logger}
    {host : Host ℚ}
    (hcreate : Host.create processor rate (Quantity.ofInt timerFrequency) logger = .ok host) :
    ∃ schedule, host.schedule (viewing.turns.map Turn.elapsed) = .ok schedule ∧
      (schedule.flatten.count .instruction : ℤ) = ⌊rate * viewing.lasted⌋ ∧
      (schedule.flatten.count .tick : ℤ) = ⌊60 * viewing.lasted⌋ := by
  obtain ⟨hsettled, -, hinstructions, hticks⟩ := Host.settled_of_create hcreate
  have hslices := intervals_nonneg viewing.ordered
  have hsum : (intervals viewing.opened viewing.times).sum = viewing.lasted := sum_intervals _ _
  have hlasted : 0 ≤ viewing.lasted := hsum ▸ List.sum_nonneg hslices
  obtain ⟨schedule, hschedule, hflatten⟩ := Host.schedule_exact hsettled hslices
  obtain ⟨hexecuted, hticked⟩ := Host.count_timeline hsettled hlasted
  rw [hsum] at hflatten
  refine ⟨schedule, viewing.map_turns.2 ▸ hschedule, ?_, ?_⟩
  · rw [hflatten, hexecuted, Clock.cycles, hinstructions, zero_add, mul_comm]
  · rw [hflatten, hticked, Clock.cycles, hticks, zero_add, mul_comm]

/-- An instruction of a turn finds each key as its last event up to that turn has left
it. -/
theorem get_keypad_in_turn (viewing : Viewing) (p : Processor) {schedule : List (List Beat)}
    (hlength : schedule.length = viewing.turns.length) {i : ℕ} {turn : Turn ℚ}
    (hturn : viewing.turns[i]? = some turn) (before : List Beat) (k : Key) :
    (p.performAll (Turn.allCommands (viewing.turns.take i) (schedule.take i) ++
        turn.commands before)).machine.keypad.get k =
      ((viewing.frames.take (i + 1)).flatten.filterMap
        (·.state? (.standingFor k))).getLast?.getD (p.machine.keypad.get k) := by
  have hopen : ∀ events ∈ viewing.frames.take (i + 1), staysOpen events = true :=
    fun events hmem => viewing.staysOpen_frames events (List.mem_of_mem_take hmem)
  rw [keypad_in_turn p hlength hturn before, List.map_take, viewing.map_turns.1,
    WindowEvent.get_foldl_frameTransitions, WindowEvent.surviving_of_staysOpen hopen]

/-- In the end each key is as its last event has left it, of those that are not lost. -/
theorem get_keypad_at_end (viewing : Viewing) {host reached : Host ℚ} {schedule : List (List Beat)}
    (hlength : schedule.length = viewing.turns.length)
    (hfollows : host.Follows (Turn.allCommands viewing.turns schedule) reached) (k : Key) :
    (takeEvents reached viewing.closing).processor.machine.keypad.get k =
      (viewing.taken.filterMap (·.state? (.standingFor k))).getLast?.getD
        (host.processor.machine.keypad.get k) := by
  have hkeypad : (takeEvents reached viewing.closing).processor.machine.keypad =
      ((viewing.frames ++ [viewing.closing]).flatMap frameTransitions).foldl
        (fun keypad transition => transition.apply keypad) host.processor.machine.keypad := by
    rw [List.flatMap_append, List.flatMap_singleton, List.foldl_append, ← viewing.map_turns.1,
      List.flatMap_map, ← host.processor.keypad_allCommands hlength, ← hfollows.processor]
    rfl
  rw [hkeypad, WindowEvent.get_foldl_frameTransitions, viewing.surviving_frames]

/-- A session in a window takes its turns, and then what comes before the window is
closed. -/
theorem runWindow_of_takeTurns (viewing : Viewing) {toolkit : Toolkit} (hlawful : toolkit.Lawful)
    {options : Options} (hscale : 1 ≤ options.scale) {window : Window}
    (hwindow : openWindow toolkit options = .ok window) {host reached : Host ℚ}
    {result : Except PacingFault Unit}
    (htaken : takeTurns host viewing.turns = (result, reached)) :
    (runWindow toolkit host options viewing.script).1 =
      (result.mapError .pacing,
        if result.isOk then takeEvents reached viewing.closing else reached) := by
  obtain ⟨scheme, hat⟩ := isAt_of_openWindow hlawful hscale hwindow
  have hcloses : staysOpen viewing.closing = false :=
    (staysOpen_eq_false_iff _).mpr viewing.closes
  obtain ⟨hresult, hhost⟩ := play_of_takeTurns hlawful hscale hat hcloses viewing.later viewing.more
    viewing.staysOpen_frames viewing.length_times htaken
  rw [runWindow, hwindow]
  exact Prod.ext hresult hhost

end Viewing

/-- The window of a session is closed when the session has ended, in whatever way. -/
theorem closed_of_openWindow {τ : Type} [Quantity τ] {toolkit : Toolkit} {options : Options}
    {window : Window} (hwindow : openWindow toolkit options = .ok window) (host : Host τ)
    (script : Script τ) :
    ∃ closed, (runWindow toolkit host options script).2 = some closed ∧ closed.isOpen = false := by
  rw [runWindow, hwindow]
  exact ⟨_, rfl, rfl⟩

/-- A session in a window loses no time and makes none up. The beats of all its turns
together are the cycles that the rates are worth over the time between the first
reading of the clock and the last, and an instruction of a turn finds each key as the
last event of that key up to that turn has left it. If no instruction fails, every frame
up to the one that closes the window is one advance; of the latter only the events
before the window closes are taken in, and nothing is run behind them. If one fails,
nothing is run behind it. In either case the window is closed in the end. -/
theorem window_accounts_for_time {toolkit : Toolkit} (hlawful : toolkit.Lawful) {rate : ℚ}
    {processor : Processor} {logger : Logger} {host : Host ℚ}
    (hcreate : Host.create processor rate (Quantity.ofInt timerFrequency) logger = .ok host)
    {options : Options} (hscale : 1 ≤ options.scale) {window : Window}
    (hwindow : openWindow toolkit options = .ok window) (viewing : Viewing) :
    ∃ schedule, host.schedule (viewing.turns.map Turn.elapsed) = .ok schedule ∧
      viewing.turns.map Turn.events = viewing.frames ∧
      viewing.turns.map Turn.elapsed = intervals viewing.opened viewing.times ∧
      (schedule.flatten.count .instruction : ℤ) = ⌊rate * viewing.lasted⌋ ∧
      (schedule.flatten.count .tick : ℤ) = ⌊60 * viewing.lasted⌋ ∧
      let asked := fun n => Turn.allCommands (viewing.turns.take n) (schedule.take n)
      let ended := runWindow toolkit host options viewing.script
      (∀ i turn before later, viewing.turns[i]? = some turn →
        schedule[i]? = some (before ++ .instruction :: later) →
        ∀ k, (processor.performAll (asked i ++ turn.commands before)).machine.keypad.get k =
          ((viewing.frames.take (i + 1)).flatten.filterMap
            (·.state? (.standingFor k))).getLast?.getD (processor.machine.keypad.get k)) ∧
      (∃ closed, ended.2 = some closed ∧ closed.isOpen = false) ∧
      (processor.Endures (asked viewing.frames.length) → ∃ reached : ℕ → Host ℚ,
        reached 0 = host ∧
        (∀ i turn, viewing.turns[i]? = some turn → ∃ executed,
          (takeEvents (reached i) turn.events).advance turn.elapsed =
            (.ok executed, reached (i + 1))) ∧
        (∀ i, host.Follows (asked i) (reached i)) ∧
        let done := processor.performAll (asked viewing.frames.length)
        let final := takeEvents (reached viewing.frames.length) viewing.closing
        ended.1 = (.ok (), final) ∧
        (final.instructions.count : ℤ) = ⌊rate * viewing.lasted⌋ ∧
        (final.ticks.count : ℤ) = ⌊60 * viewing.lasted⌋ ∧
        final.processor = { done with
          machine := { done.machine with keypad := final.processor.machine.keypad } } ∧
        (∀ k, final.processor.machine.keypad.get k =
          (viewing.taken.filterMap (·.state? (.standingFor k))).getLast?.getD
            (processor.machine.keypad.get k)) ∧
        ∀ bars rom, start options rate rom = .ok host → frames? options = .ok none →
          (runAt ⟨bars, toolkit⟩ rate options rom viewing.script).1 = .exited 0) ∧
      (¬processor.Endures (asked viewing.frames.length) → ∃ before cause reached,
        host.StopsIn (asked viewing.frames.length) before cause reached ∧
        ended.1 = (.error (.pacing (.halt cause)), reached.halted) ∧
        ∀ bars rom, start options rate rom = .ok host → frames? options = .ok none →
          (runAt ⟨bars, toolkit⟩ rate options rom viewing.script).1 = .exited 1) := by
  obtain ⟨-, hprocessor, hinstructions, hticks⟩ := Host.settled_of_create hcreate
  obtain ⟨hevents, helapsed⟩ := viewing.map_turns
  obtain ⟨schedule, hschedule, hexecuted, hticked⟩ := viewing.exists_schedule hcreate
  have hlength : schedule.length = viewing.turns.length := by
    rw [Host.length_of_schedule hschedule, List.length_map]
  have hframes : viewing.turns.length = viewing.frames.length := by
    rw [← hevents, List.length_map]
  obtain ⟨hsteps, hticksIn⟩ := Turn.counts_allCommands hlength
  refine ⟨schedule, hschedule, hevents, helapsed, hexecuted, hticked, ?_⟩
  intro asked ended
  have hasked : asked viewing.frames.length = Turn.allCommands viewing.turns schedule := by
    simp only [asked, ← hframes, List.take_length]
    rw [← hlength, List.take_length]
  have hsession (bars : ProgressBars) {rom : Rom} (hstart : start options rate rom = .ok host)
      (hmode : frames? options = .ok none) :
      runAt ⟨bars, toolkit⟩ rate options rom viewing.script = conclude ended.1 :=
    runAt_of_window ⟨bars, toolkit⟩ hstart hmode viewing.script
  refine ⟨?keypad, closed_of_openWindow hwindow host viewing.script, ?completed, ?failed⟩
  case keypad =>
    intro i turn before later hturn _ k
    exact viewing.get_keypad_in_turn processor hlength hturn before k
  case completed =>
    rw [hasked, ← hprocessor]
    intro hendures
    obtain ⟨reached, hstart, hadvances, hfollows, htaken⟩ :=
      exists_reached_of_endures hschedule hendures
    have hwhole : host.Follows (Turn.allCommands viewing.turns schedule)
        (reached viewing.frames.length) := hasked ▸ hfollows viewing.frames.length
    rw [hframes] at htaken
    have hended : ended.1 = (.ok (), takeEvents (reached viewing.frames.length) viewing.closing) :=
      viewing.runWindow_of_takeTurns hlawful hscale hwindow htaken
    refine ⟨reached, hstart, hadvances, hfollows, hended, ?_, ?_, ?_,
      viewing.get_keypad_at_end hlength hwhole, fun bars rom hbegin hmode => ?_⟩
    -- The frame that closes the window changes no count.
    · change ((reached viewing.frames.length).instructions.count : ℤ) = _
      rw [hwhole.instructions, hinstructions, hsteps, Nat.zero_add, hexecuted]
    · change ((reached viewing.frames.length).ticks.count : ℤ) = _
      rw [hwhole.ticks, hticks, hticksIn, Nat.zero_add, hticked]
    · rw [← hwhole.processor]
      rfl
    · rw [hsession bars hbegin hmode, hended]
      rfl
  case failed =>
    rw [hasked, ← hprocessor]
    intro hfails
    obtain ⟨before, cause, reached, htaken, hstops⟩ := takeTurns_of_not_endures hschedule hfails
    have hended : ended.1 = (.error (.pacing (.halt cause)), reached.halted) :=
      viewing.runWindow_of_takeTurns hlawful hscale hwindow htaken
    refine ⟨before, cause, reached, hstops, hended, fun bars rom hbegin hmode => ?_⟩
    rw [hsession bars hbegin hmode, hended]
    rfl

/-- A quarter of a second in two frames, behind which one key is let go, another one goes
down, and the window is closed. -/
def quarterSecond : Viewing where
  frames := [[.keyDown (.character 'w')], []]
  closing :=
    [.keyUp (.character 'w'), .keyDown (.character 'x'), .quit, .keyDown (.character 'q')]
  later := []
  opened := 100
  times := [100 + 1 / 8, 100 + 1 / 4]
  more := []
  opens := by decide
  closes := by decide
  length_times := rfl
  ordered := by norm_num

/-- A program that skips an instruction if the key 5 is down, at ten instructions in a
second. -/
def skippingAtTen : Host ℚ where
  processor := .ofMachine (Machine.holding [0x60, 0x05, 0xE0, 0x9E]) ⟨"cpu", "INFO"⟩
  instructions := ⟨10, 0, 0⟩
  ticks := ⟨60, 0, 0⟩
  logger := ⟨"chip8", "INFO"⟩

theorem takeTurns_quarterSecond :
    ∃ stopped, takeTurns skippingAtTen quarterSecond.turns = (.ok (), stopped) ∧
      stopped.processor.machine.pc = 0x206 := by
  have hresult : (takeTurns skippingAtTen quarterSecond.turns).1 = .ok () := by decide +kernel
  have hpc : (takeTurns skippingAtTen quarterSecond.turns).2.processor.machine.pc = 0x206 := by
    decide +kernel
  rcases htaken : takeTurns skippingAtTen quarterSecond.turns with ⟨result, stopped⟩
  rw [htaken] at hresult hpc
  obtain rfl : result = .ok () := hresult
  exact ⟨stopped, rfl, hpc⟩

/-- The second instruction finds the key that went down in the first frame. -/
theorem quarter_second_in_window :
    let options : Options := { rom := "skip.ch8", scale := 1 }
    ∃ final closed,
      runWindow Terminal.toolkit skippingAtTen options quarterSecond.script =
        ((.ok (), final), some closed) ∧
      closed.isOpen = false ∧ final.instructions.count = 2 ∧ final.ticks.count = 15 ∧
      final.processor.machine.pc = 0x206 ∧ final.processor.machine.keypad.get 0x0 = true ∧
      final.processor.machine.keypad.get 0x4 = false ∧
      final.processor.machine.keypad.get 0x5 = false := by
  intro options
  have hcreate : Host.create skippingAtTen.processor 10 (Quantity.ofInt timerFrequency)
      skippingAtTen.logger = .ok skippingAtTen := rfl
  obtain ⟨window, hwindow⟩ : ∃ window, openWindow Terminal.toolkit options = .ok window :=
    ⟨_, rfl⟩
  obtain ⟨stopped, htaken, hpc⟩ := takeTurns_quarterSecond
  have hruns := quarterSecond.runWindow_of_takeTurns Terminal.lawful_toolkit (by decide) hwindow
    htaken
  obtain ⟨schedule, -, -, -, -, -, -, ⟨closed, hclosed, hshut⟩, hcompleted, hfailed⟩ :=
    window_accounts_for_time Terminal.lawful_toolkit hcreate (by decide) hwindow quarterSecond
  by_cases hendures : skippingAtTen.processor.Endures
    (Turn.allCommands (quarterSecond.turns.take 2) (schedule.take 2))
  · obtain ⟨reached, -, -, -, hended, hinstructions, hticks, -, hkeys, -⟩ := hcompleted hendures
    have hlasted : quarterSecond.lasted = 1 / 4 := by norm_num [Viewing.lasted, quarterSecond]
    have hfinal := congrArg Prod.snd (hended.symm.trans hruns)
    rw [hlasted] at hinstructions hticks
    norm_num at hinstructions hticks
    exact ⟨_, closed, Prod.ext hended hclosed, hshut, Int.ofNat_inj.mp hinstructions,
      Int.ofNat_inj.mp hticks, (congrArg (·.processor.machine.pc) hfinal).trans hpc, hkeys 0x0,
      hkeys 0x4, hkeys 0x5⟩
  · obtain ⟨_, _, _, -, hended, -⟩ := hfailed hendures
    cases hended.symm.trans hruns

/-- A session that cannot draw its first frame has run what is owed up to then, and ends. -/
theorem runWindow_of_undrawn {τ : Type} [Quantity τ] {toolkit : Toolkit} {options : Options}
    {window : Window} (hwindow : openWindow toolkit options = .ok window) {host after : Host τ}
    {script : Script τ} {events : List WindowEvent} {rest : List (List WindowEvent)}
    (hevents : script.events = events :: rest) (hopen : staysOpen events = true) {executed : ℤ}
    (hadvance : (takeEvents host events).advance (script.clock.rest.next - script.clock.next) =
      (.ok executed, after)) {error : LibraryError}
    (hdraw : window.draw toolkit after.processor.machine.screen = .error error) :
    (runWindow toolkit host options script).1 = (.error (.window error), after) := by
  rw [runWindow, hwindow, hevents]
  dsimp only
  rw [play, if_pos hopen, showFrame]
  dsimp only
  rw [hadvance]
  dsimp only
  rw [hdraw]

/-- At scale zero a window opens, but the first frame cannot be drawn on it: of the two
instructions that are owed, and that do not fail, only one is ever run. -/
theorem scale_zero_ends_in_first_frame :
    let options : Options := { rom := "skip.ch8", scale := 0 }
    let ended := (runWindow Terminal.toolkit skippingAtTen options quarterSecond.script).1
    (∃ window, openWindow Terminal.toolkit options = .ok window) ∧
    (∃ schedule, skippingAtTen.schedule (quarterSecond.turns.map Turn.elapsed) = .ok schedule ∧
      skippingAtTen.processor.Endures (Turn.allCommands quarterSecond.turns schedule)) ∧
    (∃ error, ended.1 = .error (.window error)) ∧
    ended.2.instructions.count = 1 ∧ ⌊10 * quarterSecond.lasted⌋ = 2 := by
  intro options
  have hcreate : Host.create skippingAtTen.processor 10 (Quantity.ofInt timerFrequency)
      skippingAtTen.logger = .ok skippingAtTen := rfl
  obtain ⟨window, hwindow, hwidth, hscale⟩ :
      ∃ window, openWindow Terminal.toolkit options = .ok window ∧
        window.surface.width = 80 ∧ window.scale = 0 := ⟨_, rfl, rfl, rfl⟩
  obtain ⟨schedule, hschedule, -⟩ := quarterSecond.exists_schedule hcreate
  have hendures : skippingAtTen.processor.Endures
      (Turn.allCommands quarterSecond.turns schedule) := by
    by_contra hfails
    obtain ⟨_, _, _, hstops, -⟩ := takeTurns_of_not_endures hschedule hfails
    obtain ⟨_, htaken, -⟩ := takeTurns_quarterSecond
    cases hstops.symm.trans htaken
  have hfirst : ((takeEvents skippingAtTen [.keyDown (.character 'w')]).advance (1 / 8)).1 = .ok 1 ∧
      ((takeEvents skippingAtTen [.keyDown (.character 'w')]).advance
        (1 / 8)).2.instructions.count = 1 := by decide +kernel
  rcases hadvance : (takeEvents skippingAtTen [.keyDown (.character 'w')]).advance (1 / 8) with
    ⟨result, after⟩
  rw [hadvance] at hfirst
  obtain ⟨rfl, hcount⟩ : result = .ok 1 ∧ after.instructions.count = 1 := hfirst
  have hnarrow : window.surface.width ≠ 64 * Picture.side window.scale := by
    rw [hwidth, hscale]
    decide
  obtain ⟨error, hdraw⟩ := Terminal.draw_of_width_ne hnarrow after.processor.machine.screen
  have helapsed :
      quarterSecond.script.clock.rest.next - quarterSecond.script.clock.next = 1 / 8 := by
    norm_num [Viewing.script, quarterSecond, Readings.rest, Readings.ofList]
  have hevents : quarterSecond.script.events =
      [.keyDown (.character 'w')] :: [[], quarterSecond.closing] := rfl
  have hruns := runWindow_of_undrawn hwindow hevents rfl (helapsed ▸ hadvance) hdraw
  refine ⟨⟨window, hwindow⟩, ⟨schedule, hschedule, hendures⟩, ⟨error, ?_⟩, ?_, ?_⟩
  · exact congrArg Prod.fst hruns
  · exact (congrArg (·.2.instructions.count) hruns).trans hcount
  · norm_num [Viewing.lasted, quarterSecond]

end Session

end Chip8VM
