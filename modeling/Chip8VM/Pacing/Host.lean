import Chip8VM.Pacing.Agenda
import Chip8VM.Processor
import Chip8VM.ProgressBar

/-!
A host drives a processor through time. It has two clocks, one for instructions and one for timer
ticks. Time that passes is turned into cycles of each clock; the fraction of a cycle that remains
is kept as a debt, so that the rate of one clock never influences the other. The number of cycles
is charged before any of them is delivered: if an instruction fails, the rest is never made up for.
-/

namespace Chip8VM

/-- The usual number of instructions in a second. -/
def defaultInstructionRate : Nat := 700

/-- The usual number of timer ticks in a second. -/
def timerFrequency : Nat := 60

structure Clock (τ : Type) where
  /-- Cycles in a second. -/
  rate : τ
  /-- The fraction of a cycle that is owed. -/
  debt : τ
  /-- The cycles delivered so far. -/
  count : Nat

namespace Clock

variable {τ : Type}

def counted (clock : Clock τ) : Clock τ := { clock with count := clock.count + 1 }

variable [Quantity τ]

def atRate (rate : τ) : Clock τ := ⟨rate, Quantity.zero, 0⟩

/-- Adds to the debt what `elapsed` seconds are worth. A debt beyond the numbers is not kept. -/
def charge (clock : Clock τ) (elapsed : τ) : Except Unmeasured (Clock τ) :=
  let debt := clock.debt + elapsed * clock.rate
  if Quantity.isBeyond debt then .error .beyond else .ok { clock with debt }

/-- Takes whole cycles off the debt. -/
def settle (clock : Clock τ) (cycles : Int) : Clock τ :=
  { clock with debt := clock.debt - Quantity.ofInt cycles }

/-- What the clock owes if so many cycles have become due since it stood as it does now. -/
def lane (clock : Clock τ) (cycles : Int) : Lane τ :=
  ⟨clock.debt, clock.rate, cycles.toNat, 0⟩

end Clock

/-- Why a host could not be made, or could not go on. -/
inductive PacingFault where
  | rateNotPositive
  | debt (reason : Unmeasured)
  | progress (error : LibraryError)
  | halt (cause : Halt)
deriving DecidableEq, Repr

def PacingFault.message : PacingFault → String
  | rateNotPositive => "clock rates must be positive"
  | debt .undefined => "the number of cycles is undefined"
  | debt .infinite => "the number of cycles is infinite"
  | debt .beyond => "the number of cycles is too large"
  | progress error => error.message
  | halt cause => cause.message

structure Host (τ : Type) where
  processor : Processor
  instructions : Clock τ
  ticks : Clock τ
  logger : Logger

namespace Host

variable {τ : Type}

/-- Delivers one beat to the processor; an instruction that fails is not counted. -/
def deliver (host : Host τ) : Beat → Except Halt Unit × Host τ
  | .tick => (.ok (), { host with processor := host.processor.tick, ticks := host.ticks.counted })
  | .instruction =>
      match host.processor.step with
      | (.ok _, after) =>
          (.ok (), { host with processor := after, instructions := host.instructions.counted })
      | (.error cause, after) => (.error cause, { host with processor := after })

variable [Quantity τ]

/-- A host whose clocks start without a debt. A rate must not be zero or less. -/
def create (processor : Processor) (instructionRate timerRate : τ) (logger : Logger) :
    Except PacingFault (Host τ) :=
  if Quantity.le instructionRate (Quantity.ofInt 0) || Quantity.le timerRate (Quantity.ofInt 0)
  then .error .rateNotPositive
  else .ok ⟨processor, Clock.atRate instructionRate, Clock.atRate timerRate, logger⟩

/-- Delivers the beats of an agenda until one of them fails. -/
def run (host : Host τ) (agenda : Agenda τ) : Except Halt Unit × Host τ :=
  match _found : agenda.next? with
  | none => (.ok (), host)
  | some beat =>
      match host.deliver beat with
      | (.ok (), after) => after.run (agenda.advance beat)
      | (.error cause, after) => (.error cause, after)
termination_by agenda.left
decreasing_by exact Agenda.left_advance_lt ‹_›

/-- Delivers what two charged clocks owe, and gives the number of instructions owed. Without a
whole number of cycles nothing is delivered, and the debts remain. -/
def deliverOwed (host : Host τ) (instructions ticks : Clock τ) :
    Except PacingFault Int × Host τ :=
  let owed := do
    let instructionCycles ← Quantity.integerPart instructions.debt
    let tickCycles ← Quantity.integerPart ticks.debt
    return (instructionCycles, tickCycles)
  match owed with
  | .error reason => (.error (.debt reason), { host with instructions, ticks })
  | .ok (instructionCycles, tickCycles) =>
      let settled := { host with
        instructions := instructions.settle instructionCycles
        ticks := ticks.settle tickCycles }
      let agenda :=
        ⟨host.instructions.lane instructionCycles, host.ticks.lane tickCycles⟩
      match settled.run agenda with
      | (.ok (), after) => (.ok instructionCycles, after)
      | (.error cause, after) => (.error (.halt cause), after)

/-- Charges both clocks, first the one of the instructions, and delivers what is owed. The number
of instructions is negative if time has run backward. -/
def advance (host : Host τ) (elapsed : τ) : Except PacingFault Int × Host τ :=
  match host.instructions.charge elapsed with
  | .error reason => (.error (.debt reason), host)
  | .ok instructions =>
      match host.ticks.charge elapsed with
      | .error reason => (.error (.debt reason), { host with instructions })
      | .ok ticks => host.deliverOwed instructions ticks

/-- Advances several times by the same time, until it fails, and adds up the instructions. A bar
counts each time when it is done. -/
def advanceTimes (bars : ProgressBars) (host : Host τ) (frameTime : τ) (bar : bars.Bar) :
    Nat → Int → (Except PacingFault Int × Host τ) × bars.Bar
  | 0, executed => ((.ok executed, host), bar)
  | n + 1, executed =>
      match host.advance frameTime with
      | (.error fault, after) => ((.error fault, after), bar)
      | (.ok more, after) =>
          match bars.update bar 1 with
          | (.error error, bar) => ((.error (.progress error), after), bar)
          | (.ok (), bar) => advanceTimes bars after frameTime bar n (executed + more)

/-- The duration of a frame: one timer tick at the usual rate. -/
def frameTime : τ := Quantity.ofInt 1 / Quantity.ofInt timerFrequency

def framesText (host : Host τ) (frames : Int) : String :=
  "Ran " ++ Text.decimal frames ++ " frames: " ++ Text.decimal host.instructions.count ++
    " instructions, " ++ Text.decimal host.ticks.count ++ " timer ticks"

/-- Runs a number of frames of equal duration under a progress bar, and then logs the totals. A
negative number of frames is none. The bar is closed however the frames end, and if that fails it
is what the run fails with. -/
def runFramesUnder (bars : ProgressBars) (host : Host τ) (frames : Int) (frameTime : τ) :
    Except PacingFault Int × Host τ :=
  match bars.ofFrames frames none with
  | .error error => (.error (.progress error), host)
  | .ok bar =>
      let (ended, bar) := advanceTimes bars host frameTime bar frames.toNat 0
      match bars.close bar, ended with
      | .error error, (_, after) => (.error (.progress error), after)
      | .ok (), (.error fault, after) => (.error fault, after)
      | .ok (), (.ok executed, after) =>
          (.ok executed, { after with
            processor := after.processor.report after.logger .info (after.framesText frames) })

/-- Runs frames that nothing is seen of. -/
def runFrames (host : Host τ) (frames : Int) (frameTime : τ) : Except PacingFault Int × Host τ :=
  runFramesUnder .hidden host frames frameTime

end Host

end Chip8VM
