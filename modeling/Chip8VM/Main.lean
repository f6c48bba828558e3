import Chip8VM.Terminal

/-!
The program: it reads its options from the command line and the program file from the disk, runs
the session and prints its log. The window is shown on the terminal that the program runs in.
-/

namespace Chip8VM.Program

/-- Seconds on a clock that never runs backward. -/
def secondsNow : IO Float := do
  return (← IO.monoNanosNow).toFloat / 1000000000

/-- What the system reports when a file cannot be read. A folder can be opened, and so the report
does not name it. -/
def romErrorOf (path : String) : IO.Error → RomError
  | .noFileOrDirectory .. => .notFound path
  | .inappropriateType opened .. => if opened.isNone then .isFolder path else .notAFolder path
  | .invalidArgument .. => .nameTooLong path
  | .permissionDenied .. => .refused 13 "Permission denied" path
  | error => .refused 5 (toString error) path

def readRomFile (path : String) : IO Rom := do
  try
    return .ok (← IO.FS.readBinFile path).toList
  catch error =>
    return .error (romErrorOf path error)

def printSignals (options : CommandLine.Options) (start : Float) (signals : Array Signal) :
    IO Unit := do
  let elapsed := Binary64.ofFloat ((← secondsNow) - start)
  for line in Session.lines options signals elapsed do
    IO.println line

/-- Prints what a host has signalled, and forgets it. -/
def flushHost (options : CommandLine.Options) (start : Float) (host : Host Number) :
    IO (Host Number) := do
  printSignals options start host.processor.signals
  return { host with processor := { host.processor with signals := #[] } }

/-- Collects typed characters until the input ends. -/
partial def collectKeys (typed : IO.Ref (List Char)) (ended : IO.Ref Bool) : IO Unit := do
  let line ← (← IO.getStdin).getLine
  if line.isEmpty then ended.set true
  else
    typed.modify (· ++ line.toList)
    collectKeys typed ended

/-- Shows frames until the window is closed or the session cannot go on. -/
partial def showFrames (options : CommandLine.Options) (start : Float) (showing : Showing Number)
    (typed : IO.Ref (List Char)) (ended : IO.Ref Bool) (down : List Char) :
    IO (Except Failure Unit × Showing Number) := do
  let now := (← typed.modifyGet fun chars => (chars, []))
  let quit := if ← ended.get then [WindowEvent.quit] else []
  let events := Terminal.lifted down ++ Terminal.pressed now ++ quit
  let taken := { showing with host := Session.takeEvents showing.host events }
  if staysOpen events then
    match Session.showFrame Terminal.toolkit taken (.real (← secondsNow)) with
    | (.ok (), shown) =>
        let plain := Picture.ofScreen shown.host.processor.machine.screen.lit shown.window.scheme 1
        IO.print (Terminal.pictureText plain)
        let host ← flushHost options start shown.host
        IO.sleep (1000 / timerFrequency).toUInt32
        showFrames options start { shown with host } typed ended now
    | (.error failure, shown) => return (.error failure, shown)
  else return (.ok (), taken)

def runInTerminal (options : CommandLine.Options) (start : Float) (host : Host Number) :
    IO (Except Failure Unit × Host Number) := do
  match Session.openWindow Terminal.toolkit options with
  | .error failure => return (.error failure, host)
  | .ok window =>
      let typed ← IO.mkRef ([] : List Char)
      let ended ← IO.mkRef false
      let _ ← IO.asTask (collectKeys typed ended)
      IO.print Terminal.cleared
      let (result, showing) ←
        showFrames options start ⟨host, window, .real (← secondsNow)⟩ typed ended []
      IO.print Terminal.cleared
      return (result, showing.host)

def finish (options : CommandLine.Options) (start : Float) (result : Ending × Array Signal) :
    IO UInt32 := do
  printSignals options start result.2
  match result.1 with
  | .exited code => return code.toUInt32
  | .failed failure =>
      IO.eprintln failure.message
      return 1

/-- Runs the program and gives its exit code. -/
def run (arguments : List String) : IO UInt32 := do
  match CommandLine.parse arguments with
  | .error .help =>
      for line in CommandLine.helpLines do
        IO.println line
      return 0
  | .error .misuse =>
      for line in CommandLine.helpLines.take 3 do
        IO.eprintln line
      return 2
  | .ok options =>
      let start ← secondsNow
      match Session.start options options.rate (← readRomFile options.rom) with
      | .error ended => finish options start ended
      | .ok host =>
          let host ← flushHost options start host
          let result ←
            match Session.frames? options with
            | .error failure => pure (.error failure, host)
            | .ok (some frames) => pure (Session.runHeadless Terminal.bars host frames)
            | .ok none => runInTerminal options start host
          finish options start (Session.conclude result)

end Chip8VM.Program

def main (arguments : List String) : IO UInt32 :=
  Chip8VM.Program.run arguments
