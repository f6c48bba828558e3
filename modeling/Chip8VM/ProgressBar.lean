import Chip8VM.Library
import Chip8VM.Text.Decimal

/-!
The progress bar of a run without a window: what it is called, how many frames there are, and when
it is told that one of them is done. How a bar is drawn, and whether it can be, is up to a library.
-/

namespace Chip8VM

/-- A library of progress bars. -/
structure ProgressBars where
  /-- What a bar keeps. -/
  Bar : Type
  /-- A bar at its beginning, with a total, a description and a unit. -/
  create (total : Int) (description unit : String) : Except LibraryError Bar
  /-- Counts some more steps. -/
  update (bar : Bar) (steps : Int) : Except LibraryError Unit × Bar
  close (bar : Bar) : Except LibraryError Unit

namespace ProgressBars

/-- Bars that are never seen, for a run that is not to be shown. -/
def hidden : ProgressBars where
  Bar := Unit
  create _ _ _ := .ok ()
  update bar _ := (.ok (), bar)
  close _ := .ok ()

def defaultDescription (frames : Int) : String :=
  "Emulating (" ++ Text.grouped frames ++ " frames)"

/-- The bar of a number of frames. -/
def ofFrames (bars : ProgressBars) (frames : Int) (description : Option String) :
    Except LibraryError bars.Bar :=
  bars.create frames (description.getD (defaultDescription frames)) "frame"

end ProgressBars

end Chip8VM
