import Chip8VM.Proofs.Processor.Log
import Chip8VM.Session

/-!
How a session begins. A processor is made, the program file is read and put into its
memory, and only then is the rate looked at. A file that cannot be read is logged and
ends the session; a program that is too long for the memory makes it fail.
-/

namespace Chip8VM

open CommandLine (Options)

/-- From where programs start there are 3584 cells to the end of the memory. -/
theorem Memory.place?_programStart (memory : Memory) (data : List UInt8) :
    memory.place? programStart data =
      if data.length ≤ 3584 then some (memory.writeBlock programStart data) else none := by
  have hfirst : cellBound programStart = programStart := rfl
  have hlast : cellBound (programStart + data.length) = min (programStart + data.length) 4096 := by
    rw [cellBound, if_neg (by omega)]
    omega
  have hstart : programStart = 512 := rfl
  simp only [place?, hfirst, hlast]
  by_cases hfits : data.length ≤ 3584
  · rw [if_pos hfits, if_pos (by omega)]
  · rw [if_neg hfits, if_neg (by omega), if_neg (by omega)]

namespace Session

/-- Options with which a processor can be made and a file can be looked for. -/
structure Accepted (options : Options) : Prop where
  path : '\x00' ∉ options.rom.toList
  logLevel : .logLevel ∉ options.emptied
  seedGiven : .seed ∉ options.emptied
  seed : -0x8000000000000000 ≤ options.seed ∧ options.seed < 0x8000000000000000

/-- What a session logs when it has loaded its program. -/
def loadedSignals (options : Options) : List Signal :=
  (processorLogger options).signals .info ("Loaded ROM " ++ options.rom)

/-- The host of a session that has loaded its program into a machine. -/
def hostOf {τ : Type} [Quantity τ] (options : Options) (rate : τ) (loaded : Machine) : Host τ where
  processor := (Processor.ofMachine loaded (processorLogger options)).report
    (processorLogger options) .info ("Loaded ROM " ++ options.rom)
  instructions := Clock.atRate rate
  ticks := Clock.atRate (Quantity.ofInt timerFrequency)
  logger := logger options

variable {options : Options}

theorem hostOf_processor (options : Options) {τ : Type} [Quantity τ] (rate : τ)
    (loaded : Machine) :
    let p := (hostOf options rate loaded).processor
    p.machine = loaded ∧ p.logger = processorLogger options ∧
      p.signals.toList = loadedSignals options := by
  obtain ⟨hlogger, hsignals⟩ := (Processor.ofMachine loaded (processorLogger options)).adds_report
    (processorLogger options) .info ("Loaded ROM " ++ options.rom)
  exact ⟨Processor.report_machine _ _ _ _, hlogger, hsignals⟩

theorem createProcessor_of_accepted (haccepted : Accepted options) :
    ∃ initial, (setup options).machine = .ok initial ∧
      createProcessor options = .ok (.ofMachine initial (processorLogger options)) := by
  obtain ⟨initial, hinitial⟩ : ∃ initial, (setup options).machine = .ok initial := by
    rw [Setup.machine, setup, Setup.readSeed, if_pos haccepted.seed]
    exact ⟨_, rfl⟩
  refine ⟨initial, hinitial, ?_⟩
  simp only [createProcessor, need, if_neg haccepted.logLevel, if_neg haccepted.seedGiven,
    Processor.create, hinitial]
  rfl

variable {τ : Type} [Quantity τ] {initial : Machine}

section

variable (haccepted : Accepted options)
  (hcreate : createProcessor options = .ok (.ofMachine initial (processorLogger options)))
include haccepted hcreate

/-- A file that cannot be read ends a session before the rate is looked at. -/
theorem start_of_unreadable (rate : τ) (error : RomError) :
    start options rate (.error error) = .error (.exited 1,
      ((Processor.ofMachine initial (processorLogger options)).report (logger options) .error
        ("Could not read ROM: " ++ error.message)).signals) := by
  rw [start, hcreate]
  dsimp only
  rw [Processor.loadRom, if_neg haccepted.path]

/-- So does a program that is too long. -/
theorem start_of_long (rate : τ) {data : List UInt8} (hlong : 3584 < data.length) :
    start options rate (.ok data) = .error (.failed (.processor .blockDoesNotFit), #[]) := by
  rw [start, hcreate]
  dsimp only
  rw [Processor.loadRom, if_neg haccepted.path]
  simp only [Processor.load, Memory.place?_programStart, if_neg (Nat.not_le.mpr hlong)]
  rfl

/-- A program that fits is where it should be when the host is made. -/
theorem start_of_fitting {rate : τ} {data : List UInt8} (hfits : data.length ≤ 3584)
    (hgiven : .rate ∉ options.emptied)
    (hpositive : (Quantity.le rate (Quantity.ofInt 0) ||
      Quantity.le (Quantity.ofInt timerFrequency : τ) (Quantity.ofInt 0)) = false) :
    start options rate (.ok data) = .ok (hostOf options rate
      { initial with memory := initial.memory.writeBlock programStart data }) := by
  rw [start, hcreate]
  dsimp only
  rw [Processor.loadRom, if_neg haccepted.path]
  simp only [Processor.load, Memory.place?_programStart, if_pos hfits, bind, Except.bind]
  simp only [createHost, need, if_neg hgiven, Host.create, hpositive]
  rfl

end

end Session

end Chip8VM
