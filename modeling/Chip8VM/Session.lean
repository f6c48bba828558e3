import Chip8VM.CommandLine.Options
import Chip8VM.Window

/-!
A session runs one program from a file, either for a number of frames without a window or in a
window until that is closed. The window is described by what happens to it, a frame of events at a
time, and by the readings of its clock; what it is drawn with, and the progress bar of a session
without one, are up to libraries. The result is how the session ends and what it has logged.
-/

namespace Chip8VM

open CommandLine (Options Switch)

/-- Why a session cannot be carried on; a halted program is not among the reasons. -/
inductive Failure where
  | setup (error : SetupError)
  | processor (fault : Fault)
  | pacing (fault : PacingFault)
  | picture (error : PictureError)
  | window (error : LibraryError)
  /-- The value of an option is needed that was taken away. -/
  | emptied (switch : Switch)
deriving DecidableEq, Repr

def Failure.message : Failure → String
  | setup error => error.message
  | processor fault => fault.message
  | pacing fault => fault.message
  | picture error => error.message
  | window error => error.message
  | emptied switch => "the option " ++ switch.name ++ " has no value"

inductive Ending where
  | exited (code : Nat)
  | failed (failure : Failure)
deriving DecidableEq, Repr

/-- What happens to a window: the events of each frame, and the readings of the clock. Behind the
last frame the window is closed. -/
structure Script (τ : Type) where
  events : List (List WindowEvent)
  clock : Readings τ

/-- The libraries that a session relies on. -/
structure Libraries where
  bars : ProgressBars
  toolkit : Toolkit

/-- The state of a session in a window. `last` is when time was last accounted for. -/
structure Showing (τ : Type) where
  host : Host τ
  window : Window
  last : τ

namespace Session

/-- Fails if the value of an option has been taken away. -/
def need (options : Options) (switch : Switch) : Except Failure Unit :=
  if switch ∈ options.emptied then .error (.emptied switch) else .ok ()

def logger (options : Options) : Logger := ⟨"chip8", options.logLevel⟩

def processorLogger (options : Options) : Logger := ⟨"cpu", options.logLevel⟩

def setup (options : Options) : Setup := { seed := options.seed }

/-- What a signal is in the log: a record, or the note of a beep. -/
def recordOf? (options : Options) : Signal → Option LogRecord
  | .beep => (logger options).record? .debug "Beep"
  | .record record => some record

variable {τ : Type}

/-- How a session ends. A halted program is logged, and is not a failure of the session. -/
def conclude : Except Failure Unit × Host τ → Ending × Array Signal
  | (.ok (), host) => (.exited 0, host.processor.signals)
  | (.error (.pacing (.halt _)), host) =>
      let text := "Halted after " ++ Text.decimal host.instructions.count ++ " instructions"
      (.exited 1, (host.processor.report host.logger .critical text).signals)
  | (.error failure, host) => (.failed failure, host.processor.signals)

def takeEvents (host : Host τ) (events : List WindowEvent) : Host τ :=
  let keypad :=
    (frameTransitions events).foldl (fun keypad transition => transition.apply keypad)
      host.processor.machine.keypad
  { host with processor :=
      { host.processor with machine := { host.processor.machine with keypad := keypad } } }

/-- The number of frames to run without a window, if there is to be none. -/
def frames? (options : Options) : Except Failure (Option Int) := do
  need options .headless
  return options.headless

/-- The window of a session. The colours are looked up before its size is considered. -/
def openWindow (toolkit : Toolkit) (options : Options) : Except Failure Window := do
  need options .colourScheme
  let scheme ← (Scheme.ofName options.colourScheme).mapError .picture
  need options .scale
  (Window.create toolkit options.scale scheme Window.defaultTitle).mapError .window

variable [Quantity τ]

/-- The processor of a session; the log level is asked for before the seed. -/
def createProcessor (options : Options) : Except Failure Processor := do
  need options .logLevel
  need options .seed
  (Processor.create (setup options) (processorLogger options)).mapError .setup

/-- The host of a session, whose second clock ticks at the usual rate. -/
def createHost (options : Options) (rate : τ) (processor : Processor) :
    Except Failure (Host τ) := do
  need options .rate
  (Host.create processor rate (Quantity.ofInt timerFrequency) (logger options)).mapError .pacing

/-- Gets a program ready to run at a number of instructions a second. If that is impossible, the
error is how the session ends. -/
def start (options : Options) (rate : τ) (rom : Rom) : Except (Ending × Array Signal) (Host τ) :=
  match createProcessor options with
  | .error failure => .error (.failed failure, #[])
  | .ok processor =>
      match processor.loadRom options.rom rom with
      | .error (.rom error) =>
          let text := "Could not read ROM: " ++ error.message
          .error (.exited 1, (processor.report (logger options) .error text).signals)
      | .error fault => .error (.failed (.processor fault), processor.signals)
      | .ok loaded =>
          (createHost options rate loaded).mapError fun failure =>
            (.failed failure, loaded.signals)

/-- Runs frames without a window but under a progress bar, and then logs a summary of the
processor. -/
def runHeadless (bars : ProgressBars) (host : Host τ) (frames : Int) :
    Except Failure Unit × Host τ :=
  match host.runFramesUnder bars frames Host.frameTime with
  | (.ok _, after) =>
      let p := after.processor
      (.ok (), { after with processor := p.report after.logger .info p.summary })
  | (.error fault, after) => (.error (.pacing fault), after)

/-- Runs what is owed up to now and draws the screen. -/
def showFrame (toolkit : Toolkit) (showing : Showing τ) (now : τ) :
    Except Failure Unit × Showing τ :=
  match showing.host.advance (now - showing.last) with
  | (.error fault, after) => (.error (.pacing fault), { showing with host := after })
  | (.ok _, after) =>
      let advanced := { showing with host := after, last := now }
      match advanced.window.draw toolkit after.processor.machine.screen with
      | .ok window => (.ok (), { advanced with window })
      | .error error => (.error (.window error), advanced)

/-- Plays the frames of a script. Time is not read in a frame that closes the window. -/
def play (toolkit : Toolkit) (showing : Showing τ) (clock : Readings τ) :
    List (List WindowEvent) → Except Failure Unit × Showing τ
  | [] => (.ok (), showing)
  | events :: rest =>
      let taken := { showing with host := takeEvents showing.host events }
      if staysOpen events then
        match showFrame toolkit taken clock.next with
        | (.ok (), shown) => play toolkit shown clock.rest rest
        | (.error failure, shown) => (.error failure, shown)
      else (.ok (), taken)

/-- Runs a session in a window, if there is one to be had, and closes the window however the
session ends. -/
def runWindow (toolkit : Toolkit) (host : Host τ) (options : Options) (script : Script τ) :
    (Except Failure Unit × Host τ) × Option Window :=
  match openWindow toolkit options with
  | .error failure => ((.error failure, host), none)
  | .ok window =>
      let (result, showing) :=
        play toolkit ⟨host, window, script.clock.next⟩ script.clock.rest script.events
      ((result, showing.host), some showing.window.close)

/-- A session from its options to its end. -/
def runAt (libraries : Libraries) (rate : τ) (options : Options) (rom : Rom) (script : Script τ) :
    Ending × Array Signal :=
  match start options rate rom with
  | .error ended => ended
  | .ok host =>
      conclude <|
        match frames? options with
        | .error failure => (.error failure, host)
        | .ok (some frames) => runHeadless libraries.bars host frames
        | .ok none => (runWindow libraries.toolkit host options script).1

def run (libraries : Libraries) (options : Options) (rom : Rom) (script : Script Number) :
    Ending × Array Signal :=
  runAt libraries options.rate options rom script

/-- The lines of a log that was started `elapsed` seconds ago. -/
def lines (options : Options) (signals : Array Signal) (elapsed : Binary64) : List String :=
  signals.toList.filterMap fun signal =>
    (recordOf? options signal).map fun record =>
      record.line { colours := false, timestamps := true } elapsed

end Session

end Chip8VM
