import Chip8VM.Machine.Setup
import Chip8VM.Proofs.Machine.Halting

/-!
What a setup makes of its numbers. A number that is accepted stands unchanged in
the cell that it is meant for; only the font is put over the first cells of the
memory, whatever the setup has for them.
-/

namespace Chip8VM.Setup

open Machine (bind_ok_iff)

theorem readByte_eq_ok_iff (part : Part) (number : Int) (byte : UInt8) :
    readByte part number = .ok byte ↔ (byte.toNat : Int) = number := by
  have hbyte := byte.toNat_lt
  unfold readByte
  split
  next hrange =>
    rw [Except.ok.injEq, ← UInt8.toNat_inj, UInt8.toNat_ofNat']
    omega
  next hrange =>
    simp only [reduceCtorEq, false_iff]
    omega

theorem readWord_eq_ok_iff (part : Part) (number : Int) (word : UInt16) :
    readWord part number = .ok word ↔ (word.toNat : Int) = number := by
  have hword := word.toNat_lt
  unfold readWord
  split
  next hrange =>
    rw [Except.ok.injEq, ← UInt16.toNat_inj, UInt16.toNat_ofNat']
    omega
  next hrange =>
    simp only [reduceCtorEq, false_iff]
    omega

/-- If each value is read from just the number that it stands for, so are several. -/
theorem mapM_eq_ok_iff {α : Type} {read : Int → Except SetupError α} {toNumber : α → Int}
    (hread : ∀ number value, read number = .ok value ↔ toNumber value = number)
    (numbers : List Int) (values : List α) :
    numbers.mapM read = .ok values ↔ values.map toNumber = numbers := by
  induction numbers generalizing values with
  | nil => cases values <;> simp [pure, Except.pure]
  | cons number rest ih =>
      rw [List.mapM_cons]
      simp only [bind_ok_iff, hread, ih]
      cases values with
      | nil => simp [pure, Except.pure]
      | cons value others => simp [pure, Except.pure]

theorem mapM_readByte_eq_ok_iff (part : Part) (numbers : List Int) (bytes : List UInt8) :
    numbers.mapM (readByte part) = .ok bytes ↔
      bytes.map (fun byte => (byte.toNat : Int)) = numbers :=
  mapM_eq_ok_iff (readByte_eq_ok_iff part) numbers bytes

theorem readCells_eq_ok_iff (part : Part) {size : Nat} (numbers : List Int)
    (cells : Vector UInt8 size) :
    readCells part size numbers = .ok cells ↔
      cells.toList.map (fun byte => (byte.toNat : Int)) = numbers := by
  unfold readCells
  rw [bind_ok_iff]
  simp only [mapM_readByte_eq_ok_iff]
  constructor
  · rintro ⟨bytes, hbytes, hcells⟩
    split at hcells
    next hsize =>
      obtain rfl := Except.ok.inj hcells
      exact hbytes
    next => cases hcells
  · intro hcells
    have hsize : cells.toList.toArray.size = size := by simp
    refine ⟨cells.toList, hcells, ?_⟩
    rw [dif_pos hsize]
    rfl

/-- The number that a cell of the memory starts with: a byte of the font, or
what the setup has for the cell, or zero. -/
def initialCell (setup : Setup) (cell : Nat) : Int :=
  match font[cell]? with
  | some byte => byte.toNat
  | none => (setup.memory.map (·.getD cell 0)).getD 0

/-- What a setup makes of each part of a machine. -/
structure Makes (setup : Setup) (m : Machine) : Prop where
  random : readSeed setup.seed = .ok m.random
  memory : ∃ memory, given setup.memory (readCells .memory 4096) Memory.zeroed = .ok memory ∧
    m.memory = Memory.writeBlock memory fontStart font
  registers :
    given setup.registers (readCells .registers 16) (Vector.replicate 16 0) = .ok m.registers
  screen : given setup.screen (readCells .screen 2048) Screen.blank = .ok m.screen
  pc : given setup.pc (readWord .pc) (UInt16.ofNat programStart) = .ok m.pc
  index : given setup.index (readWord .index) 0 = .ok m.index
  stack : ∃ addresses, given setup.stack (List.mapM (readWord .stack)) [] = .ok addresses ∧
    m.stack = CallStack.ofList addresses
  delay : given setup.delay (readByte .delay) 0 = .ok m.delay
  sound : given setup.sound (readByte .sound) 0 = .ok m.sound
  keypad : given setup.heldKeys readKeys Keypad.released = .ok m.keypad
  speaker : m.speaker = setup.speaker

theorem machine_eq_ok_iff (setup : Setup) (m : Machine) :
    setup.machine = .ok m ↔ setup.Makes m := by
  simp only [machine, bind_ok_iff]
  constructor
  · rintro ⟨random, hrandom, memory, hmemory, registers, hregisters, screen, hscreen, pc, hpc,
      index, hindex, addresses, hstack, delay, hdelay, sound, hsound, keypad, hkeypad, hm⟩
    obtain rfl := Except.ok.inj hm
    exact ⟨hrandom, ⟨memory, hmemory, rfl⟩, hregisters, hscreen, hpc, hindex,
      ⟨addresses, hstack, rfl⟩, hdelay, hsound, hkeypad, rfl⟩
  · rintro ⟨hrandom, ⟨memory, hmemory, hfont⟩, hregisters, hscreen, hpc, hindex,
      ⟨addresses, hstack, hcells⟩, hdelay, hsound, hkeypad, hspeaker⟩
    refine ⟨_, hrandom, memory, hmemory, _, hregisters, _, hscreen, _, hpc, _, hindex, addresses,
      hstack, _, hdelay, _, hsound, _, hkeypad, ?_⟩
    rw [← hfont, ← hcells, ← hspeaker]
    rfl

theorem toNat_given_byte {part : Part} {override : Option Int} {byte : UInt8}
    (hgiven : given override (readByte part) 0 = .ok byte) :
    (byte.toNat : Int) = override.getD 0 := by
  cases override with
  | none =>
      obtain rfl := Except.ok.inj hgiven
      rfl
  | some number => exact (readByte_eq_ok_iff part number byte).mp hgiven

/-- The key of a seed that is accepted: zero, and the lowest 32 bits of the seed. -/
theorem key_of_readSeed {seed : Int} {key : RandomKey} (hread : readSeed seed = .ok key) :
    key = RandomKey.ofSeed seed ∧ key.fst = 0 ∧ (key.snd.toNat : Int) = seed % 0x100000000 := by
  unfold readSeed at hread
  split at hread
  next =>
    obtain rfl := Except.ok.inj hread
    refine ⟨rfl, rfl, ?_⟩
    simp only [RandomKey.ofSeed, UInt32.toNat_ofNat']
    omega
  next => cases hread

theorem toNat_read_given {setup : Setup} {memory : Memory}
    (hgiven : given setup.memory (readCells .memory 4096) Memory.zeroed = .ok memory)
    (cell : Fin 4096) :
    ((memory.read cell).toNat : Int) = (setup.memory.map (·.getD cell 0)).getD 0 := by
  cases hnumbers : setup.memory with
  | none =>
      rw [hnumbers] at hgiven
      obtain rfl := Except.ok.inj hgiven
      simp [Memory.zeroed, Memory.read_of_lt]
  | some numbers =>
      rw [hnumbers] at hgiven
      obtain rfl := (readCells_eq_ok_iff _ _ _).mp hgiven
      simp [Memory.read_of_lt]

theorem read_memory_of_machine {setup : Setup} {m : Machine}
    (hmachine : setup.machine = .ok m) (cell : Fin 4096) :
    ((m.memory.read cell).toNat : Int) = setup.initialCell cell := by
  obtain ⟨memory, hgiven, hmemory⟩ := ((machine_eq_ok_iff setup m).mp hmachine).memory
  have hcell := Memory.getElem_writeBlock memory 0 font cell.isLt
  rw [hmemory, fontStart, Memory.read_of_lt _ cell.isLt, hcell]
  by_cases hfont : cell.val < font.length
  · simp [initialCell, hfont]
  · rw [dif_neg (by omega), initialCell, List.getElem?_eq_none (by omega)]
    rw [← Memory.read_of_lt _ cell.isLt]
    exact toNat_read_given hgiven cell

end Chip8VM.Setup
