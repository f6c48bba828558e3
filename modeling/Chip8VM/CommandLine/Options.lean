import Chip8VM.CommandLine.Token
import Chip8VM.Log
import Chip8VM.Pacing.Host
import Chip8VM.Text.Numeral
import Chip8VM.Window

/-!
The options of a run: the program file and what the command line says about speed, picture, seed
and log. The last of several values for one option counts. A double minus behind the equals sign of
an option takes its value away, and then whatever needs the value fails. Exactly one word is the
program file.
-/

namespace Chip8VM.CommandLine

/-- What the options of a command line say; each of them may be left out. -/
structure Settings where
  rate : Number := .whole defaultInstructionRate
  scale : Int := Window.defaultScale
  colourScheme : String := "classic"
  /-- The number of frames to run without a window. -/
  headless : Option Int := none
  seed : Int := 0
  logLevel : String := "INFO"
  /-- The options whose values have been taken away. -/
  emptied : List Switch := []

structure Options extends Settings where
  rom : String

/-- Why a command line leads to no run. -/
inductive Refusal where
  | help
  | misuse
deriving DecidableEq, Repr

/-- What has been read of a command line so far. -/
structure Progress where
  rom : Option String := none
  settings : Settings := {}
  /-- Whether there was a word that has no meaning. -/
  surplus : Bool := false

namespace Progress

/-- The settings with a value for an option, unless the text is not of the option's kind. -/
def assign? (settings : Settings) (switch : Switch) (text : String) : Option Settings :=
  match switch with
  | .help => none
  | .rate => do return { settings with rate := .real (← Text.readFloat? text) }
  | .scale => do return { settings with scale := ← Text.readInt? text }
  | .colourScheme => some { settings with colourScheme := text }
  | .headless => do return { settings with headless := some (← Text.readInt? text) }
  | .seed => do return { settings with seed := ← Text.readInt? text }
  | .logLevel => some { settings with logLevel := text }

def assign (progress : Progress) (switch : Switch) (text : String) : Except Refusal Progress :=
  match assign? progress.settings switch text with
  | some settings =>
      .ok { progress with
        settings := { settings with emptied := settings.emptied.filter (· ≠ switch) } }
  | none => .error .misuse

def withoutValue (progress : Progress) (switch : Switch) : Progress :=
  { progress with
    settings := { progress.settings with emptied := switch :: progress.settings.emptied } }

/-- The options, if a program file was named and no word was left over. -/
def finish (progress : Progress) : Except Refusal Options :=
  match progress.rom, progress.surplus with
  | some rom, false => .ok { progress.settings with rom := rom }
  | _, _ => .error .misuse

def withSurplus (progress : Progress) : Progress := { progress with surplus := true }

/-- Reads the words from left to right. A double minus must stand next to the program file. -/
def read (progress : Progress) : List Token → Except Refusal Options
  | [] => progress.finish
  | .value text :: rest =>
      match progress.rom, rest with
      | none, .separator :: rest => { progress with rom := some text }.read rest
      | none, rest => { progress with rom := some text }.read rest
      | some _, rest => progress.withSurplus.read rest
  | .separator :: rest =>
      match progress.rom, rest with
      | none, .value text :: rest => { progress with rom := some text }.read rest
      | _, rest => progress.withSurplus.read rest
  | .unknown _ :: rest => progress.withSurplus.read rest
  | .helpLetters letters :: _ =>
      if letters.toList ≠ [] ∧ letters.toList.all (· = 'h') then .error .help
      else .error .misuse
  | .switch .help none :: _ => .error .help
  | .switch .help (some _) :: _ => .error .misuse
  | .switch switch (some "--") :: rest => (progress.withoutValue switch).read rest
  | .switch switch (some text) :: rest => do
      let after ← progress.assign switch text
      after.read rest
  | .switch switch none :: .value text :: rest => do
      let after ← progress.assign switch text
      after.read rest
  | .switch _ none :: _ => .error .misuse

end Progress

def parse (arguments : List String) : Except Refusal Options :=
  match tokens? arguments with
  | some tokens => Progress.read {} tokens
  | none => .error .misuse

/-- The answer to a request for help. -/
def helpLines : List String :=
  ["usage: chip8 [-h] [--rate RATE] [--scale SCALE] [--color-scheme COLOR_SCHEME]",
   "             [--headless FRAMES] [--seed SEED] [--log-level LOG_LEVEL]",
   "             rom",
   "",
   "CHIP-8 emulator",
   "",
   "positional arguments:",
   "  rom                   Path to the ROM file",
   "",
   "options:",
   "  -h, --help            show this help message and exit",
   "  --rate RATE           Instructions per second",
   "  --scale SCALE         Window pixels per CHIP-8 pixel",
   "  --color-scheme COLOR_SCHEME",
   "  --headless FRAMES     Run FRAMES 60 Hz frames without a window",
   "  --seed SEED           Seed for the RND instruction",
   "  --log-level LOG_LEVEL"]

end Chip8VM.CommandLine
