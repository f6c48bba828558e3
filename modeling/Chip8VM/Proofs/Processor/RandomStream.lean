import Chip8VM.Proofs.Processor.Executions

/-!
The stream of random bytes. Of all instructions only one draws, and it replaces the
key by the next one of a chain that the seed begins. So the key after a run depends
on how many bytes the run has drawn, and each byte on its position alone, however
the draws are spread over a program and over what the host does in between.
-/

namespace Chip8VM

open Processor (Command)

/-- The byte at a position of the stream that a seed begins. -/
def RandomKey.streamByte (seed : Int) (position : Nat) : UInt8 :=
  (RandomKey.next^[position] (RandomKey.ofSeed seed)).byte

theorem Instruction.eq_random_of_form {instruction : Instruction}
    (hform : instruction.form = .random) : ∃ x mask, instruction = .random x mask := by
  unfold Instruction.form at hform
  split at hform
  all_goals cases hform
  exact ⟨_, _, rfl⟩

namespace Execution

/-- The byte that an instruction would draw. -/
def drawn (e : Execution) : UInt8 := e.before.random.byte

theorem draws {e : Execution} {x : Register} {mask : UInt8}
    (hrandom : e.decoded.instruction = .random x mask) :
    e.after.random = e.before.random.next ∧ e.after.register x = e.drawn &&& mask := by
  have hexecute := e.execute_eq
  rw [hrandom] at hexecute
  rw [← Except.ok.inj hexecute]
  exact ⟨rfl, Vector.getElem_set_self _⟩

end Execution

namespace Machine

/-- The key after a command: the next one if the command draws, and else the same. -/
theorem perform_random (m : Machine) {command : Command}
    (hreset : ∀ setup, command ≠ .reset setup) :
    (m.perform command).2.random =
      RandomKey.next^[(m.executionsOf .random [command]).length] m.random := by
  cases hexecution : m.execution? command with
  | none =>
      rw [executionsOf_cons_of_none hexecution, (perform_idle hreset hexecution).random]
      rfl
  | some e =>
      obtain ⟨rfl, rfl, hperform⟩ := perform_of_execution? hexecution
      rw [executionsOf_cons_of_some hexecution, hperform]
      by_cases hform : e.form = .random
      · obtain ⟨x, mask, hrandom⟩ := Instruction.eq_random_of_form hform
        rw [if_pos hform]
        exact (Execution.draws hrandom).1
      · rw [if_neg hform]
        exact e.frame.random fun x mask hrandom => hform (congrArg Instruction.form hrandom)

theorem performAll_random (m : Machine) {commands : List Command}
    (hreset : ∀ command ∈ commands, ∀ setup, command ≠ .reset setup) :
    (m.performAll commands).random =
      RandomKey.next^[(m.executionsOf .random commands).length] m.random := by
  induction commands generalizing m with
  | nil => rfl
  | cons command rest ih =>
      obtain ⟨hfirst, hrest⟩ := List.forall_mem_cons.mp hreset
      rw [performAll_cons, ih _ hrest, m.executionsOf_cons, List.length_append, Nat.add_comm,
        Function.iterate_add_apply, m.perform_random hfirst]

/-- The byte that is drawn at a position comes from the key of that position. -/
theorem drawn_of_getElem? {m : Machine} {commands : List Command} {position : Nat} {e : Execution}
    (hreset : ∀ command ∈ commands, ∀ setup, command ≠ .reset setup)
    (hdraw : (m.executionsOf .random commands)[position]? = some e) :
    e.form = .random ∧ e.drawn = (RandomKey.next^[position] m.random).byte := by
  obtain ⟨hposition, hget⟩ := List.getElem?_eq_some_iff.mp hdraw
  have hlist := List.take_append_drop position (m.executionsOf .random commands)
  rw [List.drop_eq_getElem_cons hposition, hget] at hlist
  obtain ⟨hform, before, since, rfl, hstep, hbefore, _⟩ := exists_step_of_executionsOf hlist.symm
  obtain ⟨_, hmachine, _⟩ := perform_of_execution? hstep
  refine ⟨hform, ?_⟩
  have hkept : ∀ command ∈ before, ∀ setup, command ≠ .reset setup :=
    fun command hcommand => hreset command (List.mem_append_left _ hcommand)
  rw [Execution.drawn, hmachine, m.performAll_random hkept, hbefore,
    List.length_take_of_le (Nat.le_of_lt hposition)]

end Machine

namespace Processor

theorem random_of_create {setup : Setup} {logger : Logger} {p : Processor}
    (hcreate : create setup logger = .ok p) :
    p.machine.random = RandomKey.ofSeed setup.seed ∧ p.machine.random.fst = 0 ∧
      (p.machine.random.snd.toNat : Int) = setup.seed % 0x100000000 := by
  obtain ⟨hmakes, _⟩ := (create_eq_ok_iff setup logger p).mp hcreate
  exact Setup.key_of_readSeed hmakes.random

/-- The key of a run is the key of the seed, split as often as the run has drawn and
kept as the first part each time. A draw masks the byte that stands in the stream of
the seed at its position, so two runs from one seed draw the same bytes in the same
order. -/
theorem random_bytes_fixed_by_seed_and_position {setup : Setup} {logger : Logger} {p : Processor}
    (hcreate : create setup logger = .ok p) (commands : List Command)
    (hreset : ∀ command ∈ commands, ∀ setup, command ≠ .reset setup) :
    let draws := p.machine.executionsOf .random commands
    (p.machine.random.fst = 0 ∧
      (p.machine.random.snd.toNat : Int) = setup.seed % 0x100000000) ∧
    (p.performAll commands).machine.random =
      (fun key : RandomKey => key.split.1)^[draws.length] p.machine.random ∧
    (∀ position e, draws[position]? = some e →
      e.drawn = RandomKey.streamByte setup.seed position ∧
      ∃ x mask, e.decoded.instruction = .random x mask ∧
        e.after.register x = e.drawn &&& mask) ∧
    ∀ (otherSetup : Setup) (otherLogger : Logger) (q : Processor) (others : List Command),
      create otherSetup otherLogger = .ok q → otherSetup.seed = setup.seed →
      (∀ command ∈ others, ∀ setup, command ≠ .reset setup) →
      ∀ (position : Nat) (e e' : Execution), draws[position]? = some e →
        (q.machine.executionsOf .random others)[position]? = some e' → e'.drawn = e.drawn := by
  intro draws
  obtain ⟨hkey, hzero, hlow⟩ := random_of_create hcreate
  refine ⟨⟨hzero, hlow⟩, ?_, ?_, ?_⟩
  · rw [p.performAll_machine]
    exact p.machine.performAll_random hreset
  · intro position e hdraw
    obtain ⟨hform, hdrawn⟩ := Machine.drawn_of_getElem? hreset hdraw
    obtain ⟨x, mask, hrandom⟩ := Instruction.eq_random_of_form hform
    exact ⟨by rw [hdrawn, hkey, RandomKey.streamByte], x, mask, hrandom,
      (Execution.draws hrandom).2⟩
  · intro otherSetup otherLogger q others hother hseed hkept position e e' hdraw hdraw'
    obtain ⟨_, hdrawn⟩ := Machine.drawn_of_getElem? hreset hdraw
    obtain ⟨_, hdrawn'⟩ := Machine.drawn_of_getElem? hkept hdraw'
    rw [hdrawn, hdrawn', hkey, (random_of_create hother).1, hseed]

/-- Two programs that draw into different registers, one of them with a tick and
another instruction in between, from a seed whose first two bytes are 0D and 35. -/
theorem two_programs_draw_alike :
    let commands : List Command :=
      [.load [0xC3, 0xFF, 0xF0, 0x07, 0xC4, 0x0F] 0x200, .step, .tick, .step, .step]
    let others : List Command := [.load [0xC5, 0x0F, 0xC6, 0xFF] 0x200, .step, .step]
    ∃ p q first second, create { seed := 42 } {} = .ok p ∧
      create { seed := 42, delay := some 9 } {} = .ok q ∧
      (p.machine.executionsOf .random commands)[1]? = some first ∧
      (q.machine.executionsOf .random others)[1]? = some second ∧
      first.drawn = 0x35 ∧ second.drawn = first.drawn := by
  intro commands others
  obtain ⟨p, hcreate, hdraws⟩ : ∃ p, create { seed := 42 } {} = .ok p ∧
      1 < (p.machine.executionsOf .random commands).length := ⟨_, rfl, by decide +kernel⟩
  obtain ⟨q, hcreate', hdraws'⟩ : ∃ q, create { seed := 42, delay := some 9 } {} = .ok q ∧
      1 < (q.machine.executionsOf .random others).length := ⟨_, rfl, by decide +kernel⟩
  obtain ⟨_, _, hbytes, halike⟩ :=
    random_bytes_fixed_by_seed_and_position hcreate commands (by simp [commands])
  have hfirst := List.getElem?_eq_getElem hdraws
  have hsecond := List.getElem?_eq_getElem hdraws'
  have hbyte : RandomKey.streamByte 42 1 = 0x35 := by decide +kernel
  exact ⟨p, q, _, _, hcreate, hcreate', hfirst, hsecond, (hbytes 1 _ hfirst).1.trans hbyte,
    halike _ _ q others hcreate' rfl (by simp [others]) 1 _ _ hfirst hsecond⟩

end Processor

end Chip8VM
