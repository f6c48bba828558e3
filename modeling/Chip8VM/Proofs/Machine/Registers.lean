import Chip8VM.Machine.Execute

/-!
The registers of a machine, read one by one after some of them have been set. Most
instructions do nothing else than to set a register or two and to go on to the next
instruction.
-/

namespace Chip8VM.Machine

theorem register_setRegister_self (m : Machine) (x : Register) (value : UInt8) :
    (m.setRegister x value).register x = value :=
  Vector.getElem_set_self x.isLt

theorem register_setRegister_of_ne (m : Machine) {x k : Register} (hother : k ≠ x)
    (value : UInt8) : (m.setRegister x value).register k = m.register k :=
  Vector.getElem_set_ne x.isLt k.isLt (Fin.val_ne_of_ne hother.symm)

theorem registers_eq_of_register {m other : Machine}
    (hsame : ∀ k, m.register k = other.register k) : m.registers = other.registers := by
  apply Vector.ext
  intro k hk
  exact hsame ⟨k, hk⟩

theorem register_next (m : Machine) (k : Register) : m.next.register k = m.register k := rfl

theorem memory_next (m : Machine) : m.next.memory = m.memory := rfl

theorem index_next (m : Machine) : m.next.index = m.index := rfl

theorem toNat_pc_next (m : Machine) : m.next.pc.toNat = (m.pc.toNat + 2) % 0x10000 :=
  UInt16.toNat_add m.pc 2

/-- What lies between two states of a machine is an instruction that has set some registers, no
others, and nothing else but the program counter. -/
structure SetsOnly (m : Machine) (registers : List Register) (after : Machine) : Prop where
  kept : ∀ k ∉ registers, after.register k = m.register k
  pc : after.pc.toNat = (m.pc.toNat + 2) % 0x10000
  others : after = { m with registers := after.registers, pc := after.pc }

theorem setsOnly_setRegister (m : Machine) (x : Register) (value : UInt8) :
    m.SetsOnly [x] (m.setRegister x value).next where
  kept k hk := by
    rw [List.mem_singleton] at hk
    rw [register_next, register_setRegister_of_ne m hk]
  pc := toNat_pc_next (m.setRegister x value)
  others := rfl

end Chip8VM.Machine
