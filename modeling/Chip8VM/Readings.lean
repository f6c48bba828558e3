/-!
The successive readings of a clock: a list that is never exhausted, because its last value is
read again and again.
-/

namespace Chip8VM

structure Readings (α : Type) where
  next : α
  later : List α
deriving Repr

namespace Readings

def constant {α : Type} (value : α) : Readings α := ⟨value, []⟩

def ofList {α : Type} (values : List α) (default : α) : Readings α :=
  match values with
  | [] => constant default
  | value :: later => ⟨value, later⟩

def rest {α : Type} (readings : Readings α) : Readings α :=
  ofList readings.later readings.next

end Readings

end Chip8VM
