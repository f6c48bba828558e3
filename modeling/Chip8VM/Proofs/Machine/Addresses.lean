import Chip8VM.Proofs.Machine.Fetching
import Chip8VM.Proofs.Machine.Halting
import Chip8VM.Proofs.Machine.Keypad
import Chip8VM.Proofs.Machine.Registers
import Chip8VM.Proofs.Processor.Command
import Mathlib.Data.Fintype.Basic

/-!
The addresses of a program: where it goes on behind an instruction, and where I
points then. The program counter wraps around where it moves on, and so does I where
something is added to it; the targets of jumps and the addresses of glyphs are too low
for that. A key is held or free, but a number above fifteen is the number of no key, so
it counts as free.
-/

namespace Chip8VM.Machine

variable (m : Machine)

/-- The register holds the number of a held key. -/
def NamesHeldKey (x : Register) : Prop :=
  ∃ key : Key, key.val = (m.register x).toNat ∧ m.keypad.get key = true

instance (x : Register) : Decidable (m.NamesHeldKey x) :=
  inferInstanceAs (Decidable (∃ _ : Fin 16, _))

/-- How far an instruction moves the program counter, if it does not set it. It skips the next
instruction or not, and while it waits for a key it does not move at all. -/
def distance : Instruction → Nat
  | .skipByte .holds x value => if m.register x = value then 4 else 2
  | .skipByte .fails x value => if m.register x = value then 2 else 4
  | .skipRegister .holds x y => if m.register x = m.register y then 4 else 2
  | .skipRegister .fails x y => if m.register x = m.register y then 2 else 4
  | .skipKey .holds x => if m.NamesHeldKey x then 4 else 2
  | .skipKey .fails x => if m.NamesHeldKey x then 2 else 4
  | .waitKey _ => if ∀ key, m.keypad.get key = false then 0 else 2
  | _ => 2

/-- Where a program goes on behind an instruction. -/
def successor? : Instruction → Option Nat
  | .jump target | .call target => some target.toNat
  | .jumpOffset base => some (base.toNat + m.registers[0]!.toNat)
  | .ret => m.stack.toList.getLast?.map UInt16.toNat
  | instruction => some ((m.pc.toNat + m.distance instruction) % 0x10000)

/-- Where I points behind an instruction. -/
def indexAfter : Instruction → Nat
  | .loadIndex target => target.toNat
  | .glyph x => 5 * (m.register x).toNat
  | .addIndex x => (m.index.toNat + (m.register x).toNat) % 0x10000
  | _ => m.index.toNat

theorem not_namesHeldKey_of_lt {x : Register} (hnumber : 15 < (m.register x).toNat) :
    ¬ m.NamesHeldKey x := by
  rintro ⟨key, hkey, -⟩
  omega

theorem toNat_pc_skipIf (condition : Bool) :
    (m.skipIf condition).pc.toNat = (m.pc.toNat + if condition then 4 else 2) % 0x10000 := by
  cases condition <;> exact UInt16.toNat_add _ _

/-- Of two skips with the same operands, one for a test and one for its failure, one skips. -/
theorem pc_skipIf_senses (test : Bool) :
    let first := m.skipIf (Sense.holds.accepts test)
    let second := m.skipIf (Sense.fails.accepts test)
    (first.pc = m.pc + 4 ∧ second.pc = m.pc + 2) ∨
      (first.pc = m.pc + 2 ∧ second.pc = m.pc + 4) := by
  cases test with
  | true => exact .inl ⟨rfl, rfl⟩
  | false => exact .inr ⟨rfl, rfl⟩

theorem distance_skipByte (sense : Sense) (x : Register) (value : UInt8) :
    m.distance (.skipByte sense x value) =
      if sense.accepts (m.register x == value) then 4 else 2 := by
  cases sense <;> simp [distance, Sense.accepts]

theorem distance_skipRegister (sense : Sense) (x y : Register) :
    m.distance (.skipRegister sense x y) =
      if sense.accepts (m.register x == m.register y) then 4 else 2 := by
  cases sense <;> simp [distance, Sense.accepts]

theorem namesHeldKey_iff (x : Register) :
    m.NamesHeldKey x ↔ m.keypad.holds (m.register x).toNat = true :=
  (m.keypad.holds_iff _).symm

theorem distance_skipKey (sense : Sense) (x : Register) :
    m.distance (.skipKey sense x) =
      if sense.accepts (m.keypad.holds (m.register x).toNat) then 4 else 2 := by
  have hholds := m.namesHeldKey_iff x
  by_cases hnames : m.NamesHeldKey x
  · rw [hholds.mp hnames]
    cases sense <;> simp [distance, Sense.accepts, hnames]
  · rw [Bool.eq_false_of_not_eq_true (mt hholds.mpr hnames)]
    cases sense <;> simp [distance, Sense.accepts, hnames]

theorem successor?_skipIf {instruction : Instruction} {condition : Bool}
    (hsuccessor : m.successor? instruction = some ((m.pc.toNat + m.distance instruction) % 0x10000))
    (hdistance : m.distance instruction = if condition then 4 else 2) :
    m.successor? instruction = some (m.skipIf condition).pc.toNat := by
  rw [hsuccessor, hdistance, toNat_pc_skipIf]

theorem toNat_pc_awaitKey (x : Register) :
    (m.awaitKey x).pc.toNat = (m.pc.toNat + m.distance (.waitKey x)) % 0x10000 := by
  obtain hfree | ⟨key, hlowest, hheld, -⟩ := m.keypad.free_or_exists_lowest
  · rw [awaitKey_of_free hfree, distance, if_pos hfree]
    exact (Nat.mod_eq_of_lt m.pc.toNat_lt).symm
  · have hnotFree : ¬ ∀ key, m.keypad.get key = false := by
      intro hfree
      rw [hfree key] at hheld
      cases hheld
    rw [awaitKey_of_lowest hlowest, distance, if_neg hnotFree]
    exact toNat_pc_next _

theorem successor?_of_execute {m after : Machine} {instruction : Instruction}
    (hnarrow : instruction.Narrow) (hexecute : m.execute instruction = .ok after) :
    m.successor? instruction = some after.pc.toNat := by
  cases instruction with
  | ret =>
      obtain ⟨address, rest, hpop, rfl⟩ := (m.ret_eq_ok_iff after).mp hexecute
      change m.stack.toList.getLast?.map UInt16.toNat = some address.toNat
      rw [CallStack.toList_pop? hpop, List.getLast?_concat, Option.map_some]
  | jump target | call target =>
      obtain rfl := Except.ok.inj hexecute
      rfl
  | jumpOffset base =>
      obtain rfl := Except.ok.inj hexecute
      have hbase : base.toNat < 0x1000 := hnarrow
      have hoffset := (m.register 0).toNat_lt
      have hsum : ((m.register 0).toUInt16 + base).toNat = base.toNat + (m.register 0).toNat := by
        rw [UInt16.toNat_add, UInt8.toNat_toUInt16]
        omega
      exact congrArg some hsum.symm
  | skipByte sense x value =>
      obtain rfl := Except.ok.inj hexecute
      exact m.successor?_skipIf rfl (m.distance_skipByte sense x value)
  | skipRegister sense x y =>
      obtain rfl := Except.ok.inj hexecute
      exact m.successor?_skipIf rfl (m.distance_skipRegister sense x y)
  | skipKey sense x =>
      obtain rfl := Except.ok.inj hexecute
      exact m.successor?_skipIf rfl (m.distance_skipKey sense x)
  | waitKey x =>
      obtain rfl := Except.ok.inj hexecute
      exact congrArg some (m.toNat_pc_awaitKey x).symm
  | _ =>
      obtain rfl := Except.ok.inj hexecute
      exact congrArg some (toNat_pc_next _).symm

theorem toNat_index_of_execute {m after : Machine} {instruction : Instruction}
    (hexecute : m.execute instruction = .ok after) :
    after.index.toNat = m.indexAfter instruction := by
  cases instruction with
  | ret =>
      obtain ⟨address, rest, hpop, rfl⟩ := (m.ret_eq_ok_iff after).mp hexecute
      rfl
  | waitKey x =>
      obtain rfl := Except.ok.inj hexecute
      obtain hstay | ⟨value, hgo⟩ := m.awaitKey_cases x
      · rw [hstay]
        rfl
      · rw [hgo]
        rfl
  | glyph x =>
      obtain rfl := Except.ok.inj hexecute
      have hdigit := (m.register x).toNat_lt
      have hglyph : (UInt16.ofNat (fontStart + glyphSize * (m.register x).toNat)).toNat =
          5 * (m.register x).toNat := by
        rw [UInt16.toNat_ofNat', fontStart, glyphSize]
        omega
      exact hglyph
  | addIndex x =>
      obtain rfl := Except.ok.inj hexecute
      exact UInt16.toNat_add m.index (m.register x).toUInt16
  | _ =>
      obtain rfl := Except.ok.inj hexecute
      rfl

theorem toList_of_call {m after : Machine} {target : Address}
    (hexecute : m.execute (.call target) = .ok after) :
    after.stack.toList = m.stack.toList ++ [m.pc + 2] := by
  obtain rfl := Except.ok.inj hexecute
  exact m.stack.toList_push _

/-- Where a step goes on and where it leaves I. The last three digits of an opcode are the
target of a jump or a call and the new I of a load; an offset jump goes on at the exact
sum with V0, a return at the newest address on the stack, and any other instruction by
its distance behind itself. A call stores the address behind it. Of two skips that differ
only in whether they act when their test holds or when it fails, exactly one skips. -/
theorem step_goes_on_and_points {m after : Machine} {decoded : Decoded}
    (hstep : m.step = .ok (decoded, after)) :
    (∀ a, decoded.instruction ∈ [.jump a, .call a, .jumpOffset a, .loadIndex a] →
      a.toNat = m.fetch % 0x1000) ∧
    m.successor? decoded.instruction = some after.pc.toNat ∧
    after.index.toNat = m.indexAfter decoded.instruction ∧
    (∀ target, decoded.instruction = .call target → ∃ address,
      after.stack.toList = m.stack.toList ++ [address] ∧
      address.toNat = (m.pc.toNat + 2) % 0x10000) ∧
    (∀ x, 15 < (m.register x).toNat → ¬ m.NamesHeldKey x) ∧
    ∀ (x y : Register) (value : UInt8),
      ∀ skip ∈ [fun sense => Instruction.skipByte sense x value,
        fun sense => .skipRegister sense x y, fun sense => .skipKey sense x],
      ∃ first second, m.execute (skip .holds) = .ok first ∧ m.execute (skip .fails) = .ok second ∧
        ((first.pc = m.pc + 4 ∧ second.pc = m.pc + 2) ∨
          (first.pc = m.pc + 2 ∧ second.pc = m.pc + 4)) := by
  obtain ⟨hdecode, hexecute⟩ := (m.step_eq_ok_iff decoded after).mp hstep
  refine ⟨?_, ?_, toNat_index_of_execute hexecute, ?_, fun _ => m.not_namesHeldKey_of_lt, ?_⟩
  · intro a haddress
    exact m.toNat_of_decode_fetch hdecode haddress
  · exact successor?_of_execute (narrow_of_decode hdecode) hexecute
  · intro target hcall
    rw [hcall] at hexecute
    exact ⟨m.pc + 2, toList_of_call hexecute, m.toNat_pc_next⟩
  · intro x y value skip hskip
    simp only [List.mem_cons, List.not_mem_nil, or_false] at hskip
    rcases hskip with rfl | rfl | rfl
    all_goals exact ⟨_, _, rfl, rfl, m.pc_skipIf_senses _⟩

/-- Key 3 is held, but a register with 13 in it, in hex, does not name it. -/
theorem number_of_no_key_counts_as_free :
    let m : Machine :=
      { Machine.holding [0xE0, 0xA1] with
        registers := Vector.replicate 16 0x13
        keypad := Keypad.released.press 3 }
    ∃ after, m.step = .ok (⟨0xE0A1, .skipKey .fails 0⟩, after) ∧
      ¬ m.NamesHeldKey 0 ∧ after.pc.toNat = 0x204 ∧ after.index.toNat = 0 := by
  intro m
  have hdecode : decode m.fetch = .ok ⟨0xE0A1, .skipKey .fails 0⟩ := by decide +kernel
  have hstep := (m.step_eq_ok_iff _ _).mpr ⟨hdecode, rfl⟩
  obtain ⟨_, hsuccessor, hindex, _, hnames, _⟩ := step_goes_on_and_points hstep
  have hfree : ¬ m.NamesHeldKey 0 := hnames 0 (by decide +kernel)
  have hpc := Option.some.inj hsuccessor
  rw [distance, if_neg hfree] at hpc
  exact ⟨_, hstep, hfree, hpc.symm, hindex⟩

end Chip8VM.Machine
