import Chip8VM.Text.Quoted

/-!
Program files. A file is its bytes, or the reason why it cannot be read.
-/

namespace Chip8VM

inductive RomError where
  | notFound (path : String)
  | isFolder (path : String)
  | notAFolder (path : String)
  | nameTooLong (path : String)
  /-- Anything else that the system reports, with its number. -/
  | refused (number : Nat) (reason path : String)
deriving DecidableEq, Repr

namespace RomError

def systemMessage (number : Nat) (reason path : String) : String :=
  "[Errno " ++ toString number ++ "] " ++ reason ++ ": " ++ Text.quoted path

def message : RomError → String
  | notFound path => systemMessage 2 "No such file or directory" path
  | isFolder path => systemMessage 21 "Is a directory" path
  | notAFolder path => systemMessage 20 "Not a directory" path
  | nameTooLong path => systemMessage 36 "File name too long" path
  | refused number reason path => systemMessage number reason path

end RomError

abbrev Rom := Except RomError (List UInt8)

end Chip8VM
