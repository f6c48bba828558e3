import Chip8VM.Proofs.Machine.Halting

/-!
What instructions leave alone. Most of them only compute with the registers, I and
the memory. Nothing but its own instruction touches the delay timer, the random
key or the screen, and none touches the sound timer and the keypad.
-/

namespace Chip8VM.Machine

/-- The parts of a machine that few instructions touch, before an instruction and
after it. -/
structure Frame (m : Machine) (instruction : Instruction) (after : Machine) : Prop where
  sound : after.sound = m.sound
  keypad : after.keypad = m.keypad
  speaker : after.speaker = m.speaker
  delay : (∀ x, instruction ≠ .setDelay x) → after.delay = m.delay
  random : (∀ x mask, instruction ≠ .random x mask) → after.random = m.random
  screen : instruction ≠ .clear → (∀ x y rows, instruction ≠ .draw x y rows) →
    after.screen = m.screen

private theorem frame_of_elsewhere (m : Machine) (instruction : Instruction) (memory : Memory)
    (registers : Vector UInt8 16) (index pc : UInt16) (stack : CallStack) :
    m.Frame instruction { m with memory, registers, index, pc, stack } :=
  ⟨rfl, rfl, rfl, fun _ => rfl, fun _ => rfl, fun _ _ => rfl⟩

theorem execute_frame {m after : Machine} {instruction : Instruction}
    (hexecute : m.execute instruction = .ok after) : m.Frame instruction after := by
  cases instruction with
  | ret =>
      obtain ⟨address, rest, hpop, rfl⟩ := (m.ret_eq_ok_iff after).mp hexecute
      exact m.frame_of_elsewhere _ _ _ _ _ _
  | waitKey x =>
      obtain rfl := Except.ok.inj hexecute
      obtain hstay | ⟨key, hgo⟩ := m.awaitKey_cases x
      · rw [hstay]
        exact m.frame_of_elsewhere _ _ _ _ _ _
      · rw [hgo]
        exact m.frame_of_elsewhere _ _ _ _ _ _
  | clear =>
      obtain rfl := Except.ok.inj hexecute
      exact ⟨rfl, rfl, rfl, fun _ => rfl, fun _ => rfl, fun hother => absurd rfl hother⟩
  | draw x y rows =>
      obtain rfl := Except.ok.inj hexecute
      exact ⟨rfl, rfl, rfl, fun _ => rfl, fun _ => rfl,
        fun _ hother => absurd rfl (hother x y rows)⟩
  | setDelay x =>
      obtain rfl := Except.ok.inj hexecute
      exact ⟨rfl, rfl, rfl, fun hother => absurd rfl (hother x), fun _ => rfl, fun _ _ => rfl⟩
  | random x mask =>
      obtain rfl := Except.ok.inj hexecute
      exact ⟨rfl, rfl, rfl, fun _ => rfl, fun hother => absurd rfl (hother x mask),
        fun _ _ => rfl⟩
  | load x =>
      obtain rfl := Except.ok.inj hexecute
      simp only [next, advance, loadRegisters]
      exact m.frame_of_elsewhere _ _ _ _ _ _
  | _ =>
      obtain rfl := Except.ok.inj hexecute
      exact m.frame_of_elsewhere _ _ _ _ _ _

end Chip8VM.Machine
