import Chip8VM.Log
import Chip8VM.Machine.Setup
import Chip8VM.Machine.Statement
import Chip8VM.Rom

/-!
The processor: a machine with a logger, and with the signals that it has given so far. A signal is
a beep or a log record. An operation that fails leaves the machine as it was.
-/

namespace Chip8VM

inductive Signal where
  | beep
  | record (record : LogRecord)
deriving DecidableEq, Repr

inductive Fault where
  | halt (cause : Halt)
  | setup (error : SetupError)
  | invalidKey (number : Int)
  /-- A block of bytes lies across an end of the memory. -/
  | blockDoesNotFit
  | rom (error : RomError)
  /-- The path of a file holds a NUL, which no path can. -/
  | malformedPath (path : String)
deriving DecidableEq, Repr

def Fault.message : Fault → String
  | halt cause => cause.message
  | setup error => error.message
  | invalidKey number => invalidKeyMessage number
  | blockDoesNotFit => "the block does not fit into the memory"
  | rom error => error.message
  | malformedPath path => "no file can have the path " ++ Text.quoted path

structure Processor where
  machine : Machine
  logger : Logger
  /-- Oldest first. -/
  signals : Array Signal

def addressText (pc : UInt16) : String := "0x" ++ Text.hex 3 pc.toNat

def traceText (pc : UInt16) (decoded : Decoded) : String :=
  addressText pc ++ ": " ++ Text.hexInt 4 decoded.opcode ++ " " ++ decoded.instruction.mnemonic

def haltText (pc : UInt16) (cause : Halt) : String :=
  addressText pc ++ ": " ++ cause.message

namespace Processor

def ofMachine (machine : Machine) (logger : Logger) : Processor := ⟨machine, logger, #[]⟩

def create (setup : Setup) (logger : Logger) : Except SetupError Processor := do
  return ofMachine (← setup.machine) logger

def emit (p : Processor) (signal : Signal) : Processor :=
  { p with signals := p.signals.push signal }

/-- Logs a message, of whichever logger, unless that logger filters it. -/
def report (p : Processor) (logger : Logger) (level : Level) (message : String) : Processor :=
  match logger.record? level message with
  | some record => p.emit (.record record)
  | none => p

/-- Beeps if an instruction of this form does so and the machine has a speaker. A beep leaves no
trace in the machine. -/
def beepFor (p : Processor) (form : Form) : Processor :=
  if form = .sound ∧ p.machine.speaker then p.emit .beep else p

/-- Executes the next instruction and logs it, or logs why that is impossible. -/
def step (p : Processor) : Except Halt Decoded × Processor :=
  let pc := p.machine.pc
  match p.machine.step with
  | .ok (decoded, after) =>
      let executed := { p.beepFor decoded.instruction.form with machine := after }
      (.ok decoded, executed.report p.logger .debug (traceText pc decoded))
  | .error cause => (.error cause, p.report p.logger .error (haltText pc cause))

/-- Executes a statement. Nothing is logged. -/
def execute (p : Processor) (s : Statement) : Except StatementError Unit × Processor :=
  match p.machine.executeStatement s with
  | .ok after => (.ok (), { p.beepFor s.form with machine := after })
  | .error error => (.error error, p)

def tick (p : Processor) : Processor :=
  { p with machine := p.machine.tick }

def press (p : Processor) (key : Key) : Processor :=
  { p with machine := p.machine.press key }

def release (p : Processor) (key : Key) : Processor :=
  { p with machine := p.machine.release key }

def load (p : Processor) (data : List UInt8) (start : Int) : Except Fault Processor :=
  match Memory.place? p.machine.memory start data with
  | some memory => .ok { p with machine := { p.machine with memory := memory } }
  | none => .error .blockDoesNotFit

/-- Places the bytes of a file where programs start. -/
def loadRom (p : Processor) (path : String) (rom : Rom) : Except Fault Processor :=
  if '\x00' ∈ path.toList then .error (.malformedPath path)
  else
    match rom with
    | .error error => .error (.rom error)
    | .ok data => do
        let loaded ← p.load data programStart
        return loaded.report p.logger .info ("Loaded ROM " ++ path)

def reset (p : Processor) (setup : Setup) : Except Fault Processor :=
  match setup.machine with
  | .ok machine =>
      .ok ({ p with machine := machine }.report p.logger .info "Processor reset")
  | .error error => .error (.setup error)

/-- What the surroundings can ask of a processor. -/
inductive Command where
  | step
  | tick
  | press (number : Int)
  | release (number : Int)
  | load (data : List UInt8) (start : Int)
  | loadRom (path : String) (rom : Rom)
  | reset (setup : Setup)

/-- What a processor answers: the instruction that a step has executed, and otherwise nothing. -/
inductive Answer where
  | done
  | executed (decoded : Decoded)
deriving DecidableEq, Repr

/-- The answer of an operation that says nothing when it succeeds and leaves no trace when it
fails. -/
def answered (p : Processor) : Except Fault Processor → Except Fault Answer × Processor
  | .ok after => (.ok .done, after)
  | .error fault => (.error fault, p)

def withKey (number : Int) (use : Key → Processor) : Except Fault Processor :=
  match Key.ofInt? number with
  | some key => .ok (use key)
  | none => .error (.invalidKey number)

def perform (p : Processor) : Command → Except Fault Answer × Processor
  | .step =>
      match p.step with
      | (.ok decoded, after) => (.ok (.executed decoded), after)
      | (.error cause, after) => (.error (.halt cause), after)
  | .tick => (.ok .done, p.tick)
  | .press number => p.answered (withKey number p.press)
  | .release number => p.answered (withKey number p.release)
  | .load data start => p.answered (p.load data start)
  | .loadRom path rom => p.answered (p.loadRom path rom)
  | .reset setup => p.answered (p.reset setup)

/-- The state after several commands, of which each one that fails is without effect on the
machine. -/
def performAll (p : Processor) (commands : List Command) : Processor :=
  commands.foldl (fun q command => (q.perform command).2) p

def registerSummary (k : Fin 16) (value : UInt8) : String :=
  "V" ++ Text.hex 1 k ++ "=" ++ Text.hex 2 value.toNat

/-- One line that shows the registers and timers. -/
def summary (p : Processor) : String :=
  let m := p.machine
  "PC=" ++ Text.hex 3 m.pc.toNat ++ " I=" ++ Text.hex 3 m.index.toNat ++
    " DT=" ++ Text.decimal m.delay.toNat ++ " ST=" ++ Text.decimal m.sound.toNat ++ " " ++
    String.intercalate " " ((List.finRange 16).map fun k => registerSummary k (m.register k))

end Processor

end Chip8VM
