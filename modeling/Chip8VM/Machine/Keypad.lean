/-!
The keypad of sixteen keys, 0 to F, each held down or free.
-/

namespace Chip8VM

abbrev Key := Fin 16

def keyCount : Nat := 16

def Key.ofInt? (number : Int) : Option Key :=
  if h : 0 ≤ number ∧ number < 16 then some ⟨number.toNat, by omega⟩ else none

abbrev Keypad := Vector Bool 16

namespace Keypad

def released : Keypad := Vector.replicate 16 false

def press (keypad : Keypad) (key : Key) : Keypad := keypad.set key true

def release (keypad : Keypad) (key : Key) : Keypad := keypad.set key false

/-- Whether the key with a number is held; a number above fifteen names no key. -/
def holds (keypad : Keypad) (number : Nat) : Bool :=
  if h : number < 16 then keypad[number] else false

/-- The held keys in ascending order. -/
def held (keypad : Keypad) : List Key :=
  (List.finRange 16).filter fun key => keypad[key]

def lowest? (keypad : Keypad) : Option Key :=
  keypad.held.head?

end Keypad

end Chip8VM
