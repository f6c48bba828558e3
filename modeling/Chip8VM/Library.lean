/-!
Libraries that a session relies on: one that opens windows and draws on them, and one that draws
progress bars. What they do is not laid down here. Each is a record of the functions that a session
calls, and whatever is said of a session is said for all libraries, or for those that keep to what
they promise.
-/

namespace Chip8VM

/-- What a library says when it cannot do what it is asked for. -/
structure LibraryError where
  /-- The kind of the error, by the name that the library has for it. -/
  kind : String
  message : String
deriving DecidableEq, Repr

end Chip8VM
