import Chip8VM.Proofs.Machine.Registers
import Chip8VM.Proofs.Machine.Writes
import Chip8VM.Proofs.Processor.Command

/-!
Blocks of bytes between the registers and the memory. A store and a load from the
same I take each other back, except at the end of the memory: what is stored behind
the last cell is lost, and what is loaded from behind it is the last cell. The digits
of a register, once stored, can be loaded in the same way.
-/

namespace Chip8VM

theorem Memory.read_of_le (memory : Memory) {address : Nat} (hend : 4095 ≤ address) :
    memory.read address = memory.read 4095 := by
  have hlast : min address 4095 = min 4095 4095 := by omega
  simp only [read, hlast]

theorem Memory.eq_of_read {memory other : Memory}
    (hsame : ∀ cell : Fin 4096, memory.read cell = other.read cell) : memory = other := by
  apply Vector.ext
  intro cell hcell
  rw [← memory.read_of_lt hcell, ← other.read_of_lt hcell]
  exact hsame ⟨cell, hcell⟩

namespace Machine

variable (m : Machine)

theorem register_loadRegisters (x k : Register) :
    (m.loadRegisters x).register k =
      if k ≤ x then m.memory.read (m.index.toNat + k) else m.register k :=
  Vector.getElem_ofFn k.isLt

theorem memory_loadRegisters (x : Register) : (m.loadRegisters x).memory = m.memory := by
  rw [loadRegisters]

theorem index_loadRegisters (x : Register) : (m.loadRegisters x).index = m.index := by
  rw [loadRegisters]

theorem read_storeAtIndex {data : List UInt8} {k : Nat} {byte : UInt8}
    (hbyte : data[k]? = some byte) (hinside : m.index.toNat + k ≤ 4095) :
    (m.storeAtIndex data).memory.read (m.index.toNat + k) = byte := by
  have hread := m.memory.read_writeBlock ⟨m.index.toNat, data⟩
    ⟨m.index.toNat + k, Nat.lt_succ_of_le hinside⟩
  rw [Write.byteAt?, if_pos (Nat.le_add_right _ _), Nat.add_sub_cancel_left, hbyte] at hread
  exact hread

theorem read_storeAtIndex_of_none {data : List UInt8} (cell : Fin 4096)
    (hnone : m.index.toNat ≤ cell → data.length ≤ cell - m.index.toNat) :
    (m.storeAtIndex data).memory.read cell = m.memory.read cell := by
  have hread := m.memory.read_writeBlock ⟨m.index.toNat, data⟩ cell
  have hbyte : Write.byteAt? ⟨m.index.toNat, data⟩ cell = none := by
    rw [Write.byteAt?]
    split
    next hfrom => exact List.getElem?_eq_none (hnone hfrom)
    next => rfl
  rw [hbyte] at hread
  exact hread

theorem length_registersTo (x : Register) : (m.registersTo x).length = x.val + 1 :=
  ((m.registersTo_eq_iff x _).mp rfl).1

/-- A byte that has been stored inside the memory is loaded into the register of its place. -/
theorem register_stored_block {data : List UInt8} {x k : Register} {byte : UInt8}
    (hbyte : data[k.val]? = some byte) (hk : k ≤ x) (hinside : m.index.toNat + k ≤ 4095) :
    ((m.storeAtIndex data).next.loadRegisters x).register k = byte := by
  rw [register_loadRegisters, if_pos hk]
  exact m.read_storeAtIndex hbyte hinside

/-- What a register holds when the registers up to Vx have been stored and loaded again. -/
theorem register_stored_and_loaded (x k : Register) :
    let stored := (m.storeAtIndex (m.registersTo x)).next
    (stored.loadRegisters x).register k =
      if k ≤ x ∧ 4095 < m.index.toNat + k then stored.memory.read 4095 else m.register k := by
  intro stored
  by_cases hk : k ≤ x
  · by_cases hend : 4095 < m.index.toNat + k
    · rw [if_pos ⟨hk, hend⟩, register_loadRegisters, if_pos hk]
      exact stored.memory.read_of_le (Nat.le_of_lt hend)
    · rw [if_neg fun hlost => hend hlost.2]
      exact m.register_stored_block (m.getElem?_registersTo hk) hk (Nat.le_of_not_lt hend)
  · rw [if_neg fun hlost => hk hlost.1, register_loadRegisters, if_neg hk]
    rfl

/-- To load registers and to store them again changes nothing in memory: every cell that is
written has been read. -/
theorem memory_loaded_and_stored (x : Register) :
    let loaded := (m.loadRegisters x).next
    (loaded.storeAtIndex (loaded.registersTo x)).next.memory = m.memory := by
  intro loaded
  rw [memory_next]
  apply Memory.eq_of_read
  intro cell
  have hindex : loaded.index = m.index :=
    (index_next _).trans (m.index_loadRegisters x)
  have hmemory : loaded.memory = m.memory :=
    (memory_next _).trans (m.memory_loadRegisters x)
  by_cases hcovered : ∃ k ≤ x, m.index.toNat + k.val = cell
  · obtain ⟨k, hk, hcell⟩ := hcovered
    have hlast : loaded.index.toNat + k.val ≤ 4095 := by
      rw [hindex]
      omega
    have hread := loaded.read_storeAtIndex (loaded.getElem?_registersTo hk) hlast
    rw [register_next, register_loadRegisters, if_pos hk, hindex, hcell] at hread
    exact hread
  · rw [read_storeAtIndex_of_none, hmemory]
    intro hfrom
    rw [hindex] at hfrom ⊢
    rw [length_registersTo]
    apply Nat.lt_of_not_le
    intro hto
    exact hcovered ⟨⟨cell - m.index.toNat, by omega⟩, by omega, Nat.add_sub_of_le hfrom⟩

theorem decimalBytes_loaded (x y : Register) (hindex : m.index.toNat ≤ 4093) (hx : 2 ≤ x) :
    let stored := (m.storeAtIndex (decimalBytes (m.register y))).next
    let loaded := (stored.loadRegisters x).next
    decimalBytes (m.register y) = [loaded.register 0, loaded.register 1, loaded.register 2] := by
  intro stored loaded
  have hinside (k : Register) (hk : k ≤ 2) : m.index.toNat + k.val ≤ 4095 := by
    have : k.val ≤ 2 := hk
    omega
  have hdigit {k : Register} {digit : UInt8} (hk : k ≤ 2)
      (hcell : (decimalBytes (m.register y))[k.val]? = some digit) : loaded.register k = digit :=
    (register_next _ k).trans
      (m.register_stored_block hcell (Nat.le_trans hk hx) (hinside k hk))
  have hhundreds := hdigit (k := 0) (by decide) rfl
  have htens := hdigit (k := 1) (by decide) rfl
  have hunits := hdigit (k := 2) (by decide) rfl
  rw [hhundreds, htens, hunits, decimalBytes]

/-- Stores and loads of the same registers. To store them and to load them restores each
register that has found a cell; the others, of which none is there if the block ends by
the last cell, get that cell. To load them and to store them leaves the memory as it is.
The digits of a register, loaded into V0, V1 and V2, make up its value. -/
theorem transfers_invert_each_other (m : Machine) (x : Register) :
    (∃ stored loaded, m.execute (.store x) = .ok stored ∧ stored.execute (.load x) = .ok loaded ∧
      (∀ k, loaded.register k =
        if k ≤ x ∧ 4095 < m.index.toNat + k then loaded.memory.read 4095 else m.register k) ∧
      (∀ k ≤ x, m.index.toNat + k = 4095 → loaded.memory.read 4095 = m.register k) ∧
      loaded.index = m.index ∧
      (m.index.toNat + x ≤ 4095 → loaded.registers = m.registers)) ∧
    (∃ loaded stored, m.execute (.load x) = .ok loaded ∧ loaded.execute (.store x) = .ok stored ∧
      stored.memory = m.memory) ∧
    (∀ y, m.index.toNat ≤ 4093 → 2 ≤ x → ∃ stored loaded,
      m.execute (.digits y) = .ok stored ∧ stored.execute (.load x) = .ok loaded ∧
      loaded.register 0 ≤ 9 ∧ loaded.register 1 ≤ 9 ∧ loaded.register 2 ≤ 9 ∧
      100 * (loaded.register 0).toNat + 10 * (loaded.register 1).toNat +
        (loaded.register 2).toNat = (m.register y).toNat) := by
  refine ⟨?_, ?_, ?_⟩
  · let stored := (m.storeAtIndex (m.registersTo x)).next
    let loaded := (stored.loadRegisters x).next
    have hmemory : loaded.memory = stored.memory :=
      (memory_next _).trans (stored.memory_loadRegisters x)
    have hindex : loaded.index = m.index :=
      (index_next _).trans (stored.index_loadRegisters x)
    have hregister (k : Register) : loaded.register k =
        if k ≤ x ∧ 4095 < m.index.toNat + k then loaded.memory.read 4095 else m.register k := by
      rw [hmemory, register_next]
      exact m.register_stored_and_loaded x k
    refine ⟨stored, loaded, rfl, rfl, hregister, ?_, hindex, ?_⟩
    · intro k hk hlast
      have hread := m.read_storeAtIndex (m.getElem?_registersTo hk) (Nat.le_of_eq hlast)
      rw [hlast] at hread
      rw [hmemory]
      exact hread
    · intro hinside
      apply registers_eq_of_register
      intro k
      rw [hregister, if_neg]
      rintro ⟨hk, hend⟩
      have : k.val ≤ x.val := hk
      omega
  · exact ⟨_, _, rfl, rfl, m.memory_loaded_and_stored x⟩
  · intro y hindex hx
    exact ⟨_, _, rfl, rfl,
      (decimalBytes_eq_iff _ _ _ _).mp (m.decimalBytes_loaded x y hindex hx)⟩

/-- Three registers for two cells: the third comes back with the value of the second. Inside the
memory all three come back, and so do the digits of a value. -/
theorem three_registers_at_the_end :
    let m : Machine := { (Machine.holding []).setRegister 1 0x7B with index := 0xFFE }
    let inside := { m with index := 0x300 }
    (∃ stored loaded, m.execute (.store 2) = .ok stored ∧ stored.execute (.load 2) = .ok loaded ∧
      loaded.register 1 = 0x7B ∧ loaded.register 2 = 0x7B) ∧
    (∃ stored loaded, inside.execute (.store 2) = .ok stored ∧
      stored.execute (.load 2) = .ok loaded ∧ loaded.registers = m.registers) ∧
    ∃ stored loaded, inside.execute (.digits 1) = .ok stored ∧
      stored.execute (.load 2) = .ok loaded ∧
      100 * (loaded.register 0).toNat + 10 * (loaded.register 1).toNat +
        (loaded.register 2).toNat = 123 := by
  intro m inside
  have hsecond : m.register 1 = 0x7B := by decide +kernel
  obtain ⟨⟨stored, loaded, hstore, hload, hregister, hlast, -, -⟩, -, -⟩ :=
    transfers_invert_each_other m 2
  obtain ⟨⟨_, _, hstoreInside, hloadInside, -, -, -, hrestored⟩, -, hdigits⟩ :=
    transfers_invert_each_other inside 2
  refine ⟨⟨stored, loaded, hstore, hload, ?_, ?_⟩, ⟨_, _, hstoreInside, hloadInside, ?_⟩, ?_⟩
  · rw [hregister 1, if_neg (by decide +kernel)]
    exact hsecond
  · rw [hregister 2, if_pos (by decide +kernel), hlast 1 (by decide) (by decide +kernel)]
    exact hsecond
  · exact hrestored (by decide +kernel)
  · obtain ⟨_, _, hdigitsStored, hdigitsLoaded, -, -, -, hsum⟩ :=
      hdigits 1 (by decide +kernel) (by decide)
    refine ⟨_, _, hdigitsStored, hdigitsLoaded, hsum.trans ?_⟩
    decide +kernel

end Machine

end Chip8VM
