import Chip8VM.Proofs.Instruction.Recognition
import Chip8VM.Proofs.Machine.Fetching
import Chip8VM.Proofs.Machine.Keypad
import Chip8VM.Proofs.Machine.Registers
import Chip8VM.Proofs.Processor.Executions
import Chip8VM.Proofs.Processor.Failure

/-!
Waiting for a key. A machine that waits stands at the instruction that waits, with no
key held. Steps leave it as it is, ticks only count its timers down, and no key is there
to be released, so it goes on to wait until a key is pressed. The next step then takes
the lowest of the keys that have been pressed.
-/

namespace Chip8VM

open Processor (Command)

/-- Whether the command is one of those that never end a wait for a key. -/
def Processor.Command.keepsWaiting : Command → Bool
  | .step | .tick | .release _ => true
  | _ => false

theorem Word.hasPattern_waitKey_iff {w : Nat} (hw : w < 0x10000) :
    HasPattern w Form.waitKey.readPattern ↔ w % 0x100 = 0x0A ∧ w / 0x1000 = 0xF := by
  simp [HasPattern, Text.hexValue?, group, nibble]
  omega

theorem Instruction.form_eq_waitKey_iff (i : Instruction) :
    i.form = .waitKey ↔ ∃ x, i = .waitKey x := by
  constructor
  · intro hform
    cases i with
    | waitKey x => exact ⟨x, rfl⟩
    | skipByte sense | skipRegister sense | skipKey sense => cases sense <;> cases hform
    | logic op | arithmetic op => cases op <;> cases hform
    | shift direction => cases direction <;> cases hform
    | _ => cases hform
  · rintro ⟨x, rfl⟩
    rfl

namespace Machine

variable {m : Machine} {decoded : Decoded} {x : Register}

/-- The machine stands at the instruction that waits for a key, to put it in a register. -/
structure StandsAtWait (m : Machine) (decoded : Decoded) (x : Register) : Prop where
  decode_eq : decode m.fetch = .ok decoded
  instruction_eq : decoded.instruction = .waitKey x

theorem exists_standsAtWait_iff (m : Machine) :
    (∃ decoded x, m.StandsAtWait decoded x) ↔ m.fetch % 0x100 = 0x0A ∧ m.fetch / 0x1000 = 0xF := by
  rw [← Word.hasPattern_waitKey_iff m.fetch_lt, ← m.ofOpcode_fetch, ← Word.exists_decode_iff]
  constructor
  · rintro ⟨decoded, x, hdecode, hinstruction⟩
    exact ⟨decoded, hdecode, (Instruction.form_eq_waitKey_iff _).mpr ⟨x, hinstruction⟩⟩
  · rintro ⟨decoded, hdecode, hform⟩
    obtain ⟨x, hinstruction⟩ := (Instruction.form_eq_waitKey_iff _).mp hform
    exact ⟨decoded, x, hdecode, hinstruction⟩

theorem StandsAtWait.step_eq_awaitKey (hstands : m.StandsAtWait decoded x) :
    m.step = .ok (decoded, m.awaitKey x) := by
  rw [step_eq_ok_iff, hstands.instruction_eq]
  exact ⟨hstands.decode_eq, rfl⟩

/-- The machine executes the instruction that waits, and stays as it is. -/
structure Waits (m : Machine) (decoded : Decoded) (x : Register) : Prop extends
    StandsAtWait m decoded x where
  step_eq : m.step = .ok (decoded, m)

/-- If a key is held, the program counter goes on, so that the machine cannot stay the same. -/
theorem awaitKey_eq_self_iff (m : Machine) (x : Register) :
    m.awaitKey x = m ↔ ∀ key, m.keypad.get key = false := by
  constructor
  · intro hsame
    obtain hfree | ⟨key, hlowest, -⟩ := m.keypad.free_or_exists_lowest
    · exact hfree
    · have hpc := toNat_pc_next (m.setRegister x (UInt8.ofNat key))
      rw [← awaitKey_of_lowest hlowest, hsame] at hpc
      change m.pc.toNat = (m.pc.toNat + 2) % 0x10000 at hpc
      omega
  · intro hfree
    exact awaitKey_of_free hfree x

theorem waits_iff (m : Machine) (decoded : Decoded) (x : Register) :
    m.Waits decoded x ↔ m.StandsAtWait decoded x ∧ ∀ key, m.keypad.get key = false := by
  constructor
  · rintro ⟨hstands, hstep⟩
    rw [hstands.step_eq_awaitKey] at hstep
    exact ⟨hstands, (m.awaitKey_eq_self_iff x).mp (Prod.mk.inj (Except.ok.inj hstep)).2⟩
  · rintro ⟨hstands, hfree⟩
    refine ⟨hstands, ?_⟩
    rw [hstands.step_eq_awaitKey, (m.awaitKey_eq_self_iff x).mpr hfree]

theorem waitsForKey_iff (m : Machine) :
    m.waitsForKey = true ↔ ∃ decoded x, m.Waits decoded x := by
  rw [waitsForKey, Bool.and_eq_true, decide_eq_true_iff, List.isEmpty_iff, Keypad.held_eq_nil_iff,
    ← exists_standsAtWait_iff]
  simp only [waits_iff, exists_and_right]

/-- Neither the next instruction nor the keypad is touched by a tick. -/
theorem Waits.tick (hwaits : m.Waits decoded x) : m.tick.Waits decoded x := by
  obtain ⟨hstands, hfree⟩ := (waits_iff m decoded x).mp hwaits
  exact (waits_iff m.tick decoded x).mpr ⟨⟨hstands.decode_eq, hstands.instruction_eq⟩, hfree⟩

theorem Waits.iterate_tick (hwaits : m.Waits decoded x) (ticks : Nat) :
    (Machine.tick^[ticks] m).Waits decoded x := by
  induction ticks generalizing m with
  | zero => exact hwaits
  | succ ticks ih => exact ih hwaits.tick

theorem Waits.release (hwaits : m.Waits decoded x) (key : Key) : m.release key = m := by
  have hfree := ((waits_iff m decoded x).mp hwaits).2 key
  rw [Machine.release, Keypad.release_of_free m.keypad hfree]

theorem Waits.perform (hwaits : m.Waits decoded x) {command : Command}
    (hkeeps : command.keepsWaiting = true) :
    (m.perform command).2 = Machine.tick^[ticksIn [command]] m := by
  cases command with
  | step =>
      simp only [Machine.perform, hwaits.step_eq]
      rfl
  | tick => rfl
  | release number =>
      simp only [Machine.perform]
      split
      next key hkey => exact hwaits.release key
      next hnone => rfl
  | _ => cases hkeeps

/-- The invariant is that the machine waits: each command leaves it as it is or is a tick. -/
theorem Waits.performAll (hwaits : m.Waits decoded x) {commands : List Command}
    (hkeep : ∀ command ∈ commands, command.keepsWaiting = true) :
    m.performAll commands = Machine.tick^[ticksIn commands] m := by
  induction commands generalizing m with
  | nil => rfl
  | cons command rest ih =>
      rw [List.forall_mem_cons] at hkeep
      have hfirst := hwaits.perform hkeep.1
      rw [performAll_cons, hfirst, ih (hwaits.iterate_tick _) hkeep.2,
        ← Function.iterate_add_apply, ← ticksIn_cons]

theorem perform_press (m : Machine) (number : Int) :
    let pressed := (m.perform (.press number)).2
    pressed = { m with keypad := pressed.keypad } ∧
    ∀ key : Key, pressed.keypad.get key = true ↔
      m.keypad.get key = true ∨ number = key.val := by
  simp only [perform]
  split
  next found hfound =>
    rw [Key.ofInt?_eq_some_iff] at hfound
    refine ⟨rfl, fun key => ?_⟩
    rw [press, Keypad.get_press, hfound, Fin.ext_iff, Int.natCast_inj]
  next hnone =>
    refine ⟨rfl, fun key => ?_⟩
    have hother : number ≠ key.val := by
      intro hnumber
      rw [← Key.ofInt?_eq_some_iff, hnone] at hnumber
      cases hnumber
    simp only [hother, or_false]

/-- Keys are pressed one after the other; the numbers that no key has are passed over. -/
theorem performAll_press (m : Machine) (numbers : List Int) :
    let pressed := m.performAll (numbers.map .press)
    pressed = { m with keypad := pressed.keypad } ∧
    ∀ key : Key, pressed.keypad.get key = true ↔
      m.keypad.get key = true ∨ (key.val : Int) ∈ numbers := by
  induction numbers generalizing m with
  | nil => exact ⟨rfl, by simp [performAll]⟩
  | cons number rest ih =>
      obtain ⟨hfirst, hkey⟩ := m.perform_press number
      obtain ⟨hrest, hkeys⟩ := ih (m.perform (.press number)).2
      rw [List.map_cons, performAll_cons]
      constructor
      · rw [hrest, hfirst]
      · intro key
        rw [hkeys, hkey, List.mem_cons, or_assoc, @eq_comm _ number]

/-- As soon as a key is held, the step that has waited ends, with the lowest of the held keys. -/
theorem StandsAtWait.step_of_held (hstands : m.StandsAtWait decoded x)
    (hheld : ∃ key, m.keypad.get key = true) :
    ∃ key after, m.step = .ok (decoded, after) ∧
      m.keypad.get key = true ∧ (∀ other, m.keypad.get other = true → key ≤ other) ∧
      (after.register x).toNat = key.val ∧ m.SetsOnly [x] after := by
  obtain hfree | ⟨key, hlowest, hkey, hleast⟩ := m.keypad.free_or_exists_lowest
  · obtain ⟨key, hkey⟩ := hheld
    rw [hfree key] at hkey
    cases hkey
  · have hgo := awaitKey_of_lowest hlowest x
    refine ⟨key, _, hstands.step_eq_awaitKey, hkey, hleast, ?_, ?_⟩
    · rw [hgo, register_next, register_setRegister_self]
      exact UInt8.toNat_ofNat_of_lt' (Nat.lt_of_lt_of_le key.isLt (by decide))
    · rw [hgo]
      exact m.setsOnly_setRegister x _

theorem Waits.step_of_pressed (hwaits : m.Waits decoded x) {numbers : List Int}
    (hnumbers : ∃ key : Key, (key.val : Int) ∈ numbers) :
    let pressed := m.performAll (numbers.map .press)
    pressed = { m with keypad := pressed.keypad } ∧
    (∀ key : Key, pressed.keypad.get key = true ↔ (key.val : Int) ∈ numbers) ∧
    ∃ key after, pressed.step = .ok (decoded, after) ∧
      (key.val : Int) ∈ numbers ∧ (∀ other : Key, (other.val : Int) ∈ numbers → key ≤ other) ∧
      (after.register x).toNat = key.val ∧ pressed.SetsOnly [x] after := by
  intro pressed
  obtain ⟨hstands, hfree⟩ := (waits_iff m decoded x).mp hwaits
  obtain ⟨hpressed, hor⟩ := m.performAll_press numbers
  have hheld (key : Key) : pressed.keypad.get key = true ↔ (key.val : Int) ∈ numbers := by
    rw [hor, hfree key, Bool.false_eq_true, false_or]
  have hstill : pressed.StandsAtWait decoded x := by
    rw [show pressed = _ from hpressed]
    exact ⟨hstands.decode_eq, hstands.instruction_eq⟩
  refine ⟨hpressed, hheld, ?_⟩
  simp only [← hheld] at hnumbers ⊢
  exact hstill.step_of_held hnumbers

end Machine

namespace Processor

theorem perform_step_of_step (p : Processor) {decoded : Decoded} {after : Machine}
    (hstep : p.machine.step = .ok (decoded, after)) :
    (p.perform .step).1 = .ok (.executed decoded) ∧ (p.perform .step).2.machine = after := by
  rw [(p.perform_machine .step).1, (p.perform_machine .step).2]
  simp only [Machine.perform, hstep, and_self]

/-- A processor says that it waits exactly if it stands at the instruction that waits for
a key and stays as it is when it executes it. Steps, ticks and releases, however many,
then change nothing but the timers, and each step executes that instruction again. As
soon as keys have been pressed, the next step puts the lowest of them in the register
and goes on. -/
theorem waits_until_keys_are_pressed (p : Processor) :
    (p.machine.waitsForKey = true ↔
      ∃ decoded x, decode p.machine.fetch = .ok decoded ∧ decoded.instruction = .waitKey x ∧
        p.machine.step = .ok (decoded, p.machine)) ∧
    (p.machine.waitsForKey = true → ∃ decoded x,
      decode p.machine.fetch = .ok decoded ∧ decoded.instruction = .waitKey x ∧
      ∀ commands : List Command, (∀ command ∈ commands, command.keepsWaiting = true) →
        let waiting := p.performAll commands
        waiting.machine = { p.machine with
          delay := Machine.countDown^[ticksIn commands] p.machine.delay
          sound := Machine.countDown^[ticksIn commands] p.machine.sound } ∧
        waiting.machine.waitsForKey = true ∧
        (waiting.perform .step).1 = .ok (.executed decoded) ∧
        (waiting.perform .step).2.machine = waiting.machine ∧
        ∀ numbers : List Int, (∃ key : Key, (key.val : Int) ∈ numbers) →
          let pressed := waiting.performAll (numbers.map .press)
          let resumed := pressed.perform .step
          pressed.machine = { waiting.machine with keypad := pressed.machine.keypad } ∧
          (∀ key : Key, pressed.machine.keypad.get key = true ↔ (key.val : Int) ∈ numbers) ∧
          resumed.1 = .ok (.executed decoded) ∧
          (∃ key : Key, (key.val : Int) ∈ numbers ∧
            (∀ other : Key, (other.val : Int) ∈ numbers → key ≤ other) ∧
            (resumed.2.machine.register x).toNat = key.val) ∧
          pressed.machine.SetsOnly [x] resumed.2.machine) := by
  refine ⟨?_, fun hwaitsForKey => ?_⟩
  · rw [Machine.waitsForKey_iff]
    constructor
    · rintro ⟨decoded, x, hwaits⟩
      exact ⟨decoded, x, hwaits.decode_eq, hwaits.instruction_eq, hwaits.step_eq⟩
    · rintro ⟨decoded, x, hdecode, hinstruction, hstep⟩
      exact ⟨decoded, x, ⟨hdecode, hinstruction⟩, hstep⟩
  obtain ⟨decoded, x, hwaits⟩ := p.machine.waitsForKey_iff.mp hwaitsForKey
  refine ⟨decoded, x, hwaits.decode_eq, hwaits.instruction_eq, ?_⟩
  intro commands hkeep waiting
  have hticks : waiting.machine = Machine.tick^[ticksIn commands] p.machine := by
    rw [p.performAll_machine, hwaits.performAll hkeep]
  have hstill : waiting.machine.Waits decoded x := by
    rw [hticks]
    exact hwaits.iterate_tick _
  obtain ⟨hanswer, hsame⟩ := waiting.perform_step_of_step hstill.step_eq
  refine ⟨by rw [hticks, Machine.iterate_tick], ?_, hanswer, hsame, ?_⟩
  · exact waiting.machine.waitsForKey_iff.mpr ⟨decoded, x, hstill⟩
  intro numbers hnumbers pressed resumed
  have hpress : pressed.machine = waiting.machine.performAll (numbers.map .press) :=
    waiting.performAll_machine _
  have hresume := hstill.step_of_pressed hnumbers
  rw [← hpress] at hresume
  obtain ⟨hkeypad, hheld, key, after, hstep, hkey, hleast, hregister, hsets⟩ := hresume
  obtain ⟨hresumed, hafter⟩ := pressed.perform_step_of_step hstep
  rw [← hafter] at hregister hsets
  exact ⟨hkeypad, hheld, hresumed, ⟨key, hkey, hleast, hregister⟩, hsets⟩

/-- A wait over two ticks, ended by three keys and a number that no key has. -/
theorem wait_ends_with_lowest_of_three_keys :
    let p := ofMachine { Machine.holding [0xF5, 0x0A] with delay := 3 } {}
    let waiting := p.performAll [.step, .tick, .release 7, .step, .tick]
    let pressed := waiting.performAll [.press 0xC, .press 0x3, .press 0x10, .press 0x9]
    p.machine.waitsForKey = true ∧ waiting.machine.pc = 0x200 ∧ waiting.machine.delay = 1 ∧
    (waiting.perform .step).1 = .ok (.executed ⟨0xF50A, .waitKey 5⟩) ∧
    ((pressed.perform .step).2.machine.register 5).toNat = 0x3 ∧
    (pressed.perform .step).2.machine.pc.toNat = 0x202 := by
  intro p waiting pressed
  have hwaits : p.machine.waitsForKey = true := by decide +kernel
  have hfetch : p.machine.fetch = 0xF50A := by decide +kernel
  obtain ⟨_, hparked⟩ := waits_until_keys_are_pressed p
  obtain ⟨decoded, x, hdecode, hinstruction, hparked⟩ := hparked hwaits
  rw [hfetch] at hdecode
  obtain rfl : (⟨0xF50A, .waitKey 5⟩ : Decoded) = decoded := Except.ok.inj hdecode
  obtain rfl : 5 = x := Instruction.waitKey.inj hinstruction
  obtain ⟨hmachine, _, hanswer, _, hpresses⟩ :=
    hparked [.step, .tick, .release 7, .step, .tick] (by decide)
  obtain ⟨hkeypad, _, _, ⟨key, hkey, hleast, hregister⟩, hsets⟩ :=
    hpresses [0xC, 0x3, 0x10, 0x9] ⟨3, by decide⟩
  rw [(by decide : ticksIn [.step, .tick, .release 7, .step, .tick] = 2)] at hmachine
  have hpc : waiting.machine.pc = 0x200 := congrArg Machine.pc hmachine
  have hdelay : waiting.machine.delay = 1 := by
    have hthree : p.machine.delay = 3 := rfl
    rw [show waiting.machine.delay = _ from congrArg Machine.delay hmachine, hthree]
    decide
  have hpressed : pressed.machine.pc = 0x200 := (congrArg Machine.pc hkeypad).trans hpc
  obtain rfl : key = 3 := by
    have hatmost : key.val ≤ 3 := hleast 3 (by decide)
    simp only [List.mem_cons, List.not_mem_nil, or_false] at hkey
    apply Fin.ext
    change key.val = 3
    omega
  refine ⟨hwaits, hpc, hdelay, hanswer, hregister, hsets.pc.trans ?_⟩
  exact congrArg (fun pc : Address => (pc.toNat + 2) % 0x10000) hpressed

end Processor

end Chip8VM
