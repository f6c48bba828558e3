import Chip8VM.Machine.Statement

/-!
When a machine halts. Every instruction has its effect in every state, except
that a return needs an address on the stack; so a machine halts only there and
at an opcode that stands for no instruction. The timers have no part in it: a
halted machine stays halted when they count down.
-/

namespace Chip8VM.Machine

/-- The two reasons why the next instruction cannot be executed. -/
def HaltsWith (m : Machine) (cause : Halt) : Prop :=
  (cause = .unrecognizedOpcode m.fetch ∧ ∀ decoded, decode m.fetch ≠ .ok decoded) ∨
  (cause = .stackUnderflow m.pc ∧ m.stack.toList = [] ∧
    ∃ decoded, decode m.fetch = .ok decoded ∧ decoded.instruction = .ret)

private theorem bind_error_iff {ε α β : Type} (first : Except ε α) (next : α → Except ε β)
    (error : ε) :
    first >>= next = .error error ↔
      first = .error error ∨ ∃ value, first = .ok value ∧ next value = .error error := by
  cases first with
  | error other => simp [bind, Except.bind]
  | ok value => simp [bind, Except.bind]

theorem bind_ok_iff {ε α β : Type} (first : Except ε α) (next : α → Except ε β)
    (result : β) :
    first >>= next = .ok result ↔ ∃ value, first = .ok value ∧ next value = .ok result := by
  cases first with
  | error other => simp [bind, Except.bind]
  | ok value => simp [bind, Except.bind]

/-- An opcode that is rejected is named in the error as it was given. -/
theorem decode_eq_error_iff (opcode : Int) (cause : Halt) :
    decode opcode = .error cause ↔
      cause = .unrecognizedOpcode opcode ∧ ∀ decoded, decode opcode ≠ .ok decoded := by
  unfold decode
  cases Instruction.ofWord? (Word.ofOpcode opcode) with
  | none => simp [eq_comm]
  | some instruction => simp

/-- An opcode that is accepted is kept as it was given. -/
theorem opcode_of_decode {opcode : Int} {decoded : Decoded} (hdecode : decode opcode = .ok decoded) :
    decoded.opcode = opcode := by
  unfold decode at hdecode
  split at hdecode
  next =>
    cases hdecode
    rfl
  next => cases hdecode

theorem ret_eq_error_iff (m : Machine) (cause : Halt) :
    m.ret = .error cause ↔ cause = .stackUnderflow m.pc ∧ m.stack.toList = [] := by
  rw [← CallStack.pop?_eq_none_iff]
  unfold ret
  cases m.stack.pop? with
  | none => simp [eq_comm]
  | some popped => simp

theorem ret_eq_ok_iff (m after : Machine) :
    m.ret = .ok after ↔ ∃ address rest, m.stack.pop? = some (address, rest) ∧
      after = { m with stack := rest, pc := address } := by
  unfold ret
  cases m.stack.pop? with
  | none => simp
  | some popped =>
      constructor
      · intro hok
        exact ⟨popped.1, popped.2, rfl, (Except.ok.inj hok).symm⟩
      · rintro ⟨address, rest, hpop, rfl⟩
        cases hpop
        rfl

theorem awaitKey_cases (m : Machine) (x : Register) :
    m.awaitKey x = m ∨ ∃ value, m.awaitKey x = (m.setRegister x value).next := by
  unfold awaitKey
  cases m.keypad.lowest? with
  | none => exact .inl rfl
  | some key => exact .inr ⟨_, rfl⟩

/-- The only instruction that can fail is a return. -/
theorem execute_eq_error_iff (m : Machine) (instruction : Instruction) (cause : Halt) :
    m.execute instruction = .error cause ↔
      instruction = .ret ∧ cause = .stackUnderflow m.pc ∧ m.stack.toList = [] := by
  cases instruction with
  | ret => simpa [execute] using m.ret_eq_error_iff cause
  | _ => simp [execute]

theorem step_eq_ok_iff (m : Machine) (decoded : Decoded) (after : Machine) :
    m.step = .ok (decoded, after) ↔
      decode m.fetch = .ok decoded ∧ m.execute decoded.instruction = .ok after := by
  simp only [step, bind_ok_iff]
  constructor
  · rintro ⟨found, hfound, executed, hexecuted, hresult⟩
    cases hresult
    exact ⟨hfound, hexecuted⟩
  · rintro ⟨hfound, hexecuted⟩
    exact ⟨decoded, hfound, after, hexecuted, rfl⟩

/-- A step fails for one of the two reasons, and for no other. -/
theorem step_eq_error_iff (m : Machine) (cause : Halt) :
    m.step = .error cause ↔ m.HaltsWith cause := by
  simp only [step, bind_error_iff, decode_eq_error_iff, execute_eq_error_iff, HaltsWith]
  constructor
  · rintro (hrejected | ⟨decoded, hfound, ⟨hret, hcause, hempty⟩ | ⟨after, _, hpure⟩⟩)
    · exact .inl hrejected
    · exact .inr ⟨hcause, hempty, decoded, hfound, hret⟩
    · cases hpure
  · rintro (hrejected | ⟨hcause, hempty, decoded, hfound, hret⟩)
    · exact .inl hrejected
    · exact .inr ⟨decoded, hfound, .inl ⟨hret, hcause, hempty⟩⟩

/-- A machine that does not halt executes what stands at its program counter. -/
theorem step_of_not_halts (m : Machine) (hruns : ∀ cause, ¬ m.HaltsWith cause) :
    ∃ decoded after, m.step = .ok (decoded, after) := by
  cases hstep : m.step with
  | error cause => exact absurd ((m.step_eq_error_iff cause).mp hstep) (hruns cause)
  | ok result => exact ⟨result.1, result.2, rfl⟩

/-- The timers are looked at by no part of a step that can fail. -/
theorem haltsWith_tick (m : Machine) (cause : Halt) :
    m.tick.HaltsWith cause ↔ m.HaltsWith cause := Iff.rfl

end Chip8VM.Machine
