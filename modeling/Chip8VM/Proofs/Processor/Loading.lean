import Chip8VM.Proofs.Machine.Drawing
import Chip8VM.Proofs.Machine.Writes
import Chip8VM.Proofs.Processor.Command

/-!
Blocks of bytes that are loaded. A block is written as a whole or not at all. Its
address may be any integer: if it is negative it counts from the end of the memory, and
so does the address behind the block. A block that does not fit is refused if there is a
cell between the two addresses, and otherwise nothing happens. A program that has been
written is fetched as it stands in its block.
-/

namespace Chip8VM

namespace Memory

/-- An address as a number of cells from the start of the memory. -/
def fromStart (address : Int) : Int :=
  if address < 0 then address + 4096 else address

/-- The cell lies between two addresses. -/
def Between (start stop : Int) (cell : Fin 4096) : Prop :=
  fromStart start ≤ cell.val ∧ cell.val < fromStart stop

instance (start stop : Int) (cell : Fin 4096) : Decidable (Between start stop cell) :=
  inferInstanceAs (Decidable (_ ∧ _))

theorem exists_between_iff (start stop : Int) :
    (∃ cell, Between start stop cell) ↔ cellBound stop - cellBound start ≠ 0 := by
  simp only [Between, fromStart, cellBound]
  constructor
  · rintro ⟨cell, hcell⟩
    omega
  · intro hcells
    refine ⟨⟨min (if start < 0 then start + 4096 else start).toNat 4096, ?_⟩, ?_⟩
    · omega
    · dsimp only
      omega

variable (memory : Memory) {data : List UInt8} {start : Int}

theorem place?_of_fits {first : Nat} (hfits : blockStart? start data.length = some first) :
    memory.place? start data = some (memory.writeBlock first data) := by
  rcases Nat.eq_zero_or_pos data.length with hnone | hpos
  · obtain rfl := List.length_eq_zero_iff.mp hnone
    simp [place?, writeBlock]
  · rw [blockStart?_eq start hpos] at hfits
    split at hfits
    next hcells =>
      obtain rfl := Option.some.inj hfits
      exact if_pos hcells
    next => cases hfits

theorem place?_of_not_fits (hfits : blockStart? start data.length = none) :
    memory.place? start data =
      if cellBound (start + data.length) - cellBound start = 0 then some memory else none := by
  rcases Nat.eq_zero_or_pos data.length with hnone | hpos
  · obtain rfl := List.length_eq_zero_iff.mp hnone
    simp [place?, writeBlock]
  · rw [blockStart?_eq start hpos] at hfits
    split at hfits
    next => cases hfits
    next hcells => exact if_neg hcells

theorem end_le_of_fits {length first : Nat} (hfits : blockStart? start length = some first) :
    first + length ≤ 4096 := by
  unfold blockStart? at hfits
  split at hfits
  next =>
    obtain rfl := Option.some.inj hfits
    omega
  next =>
    split at hfits
    next =>
      obtain rfl := Option.some.inj hfits
      omega
    next => cases hfits

theorem get_writeBlock (first : Nat) (cell : Fin 4096) :
    (memory.writeBlock first data).get cell =
      if inside : first ≤ cell.val ∧ cell.val - first < data.length then data[cell.val - first]
      else memory.get cell :=
  memory.getElem_writeBlock first data cell.isLt

/-- Two successive bytes of a block make up a word. -/
theorem readWord_writeBlock {first i : Nat} (hend : first + data.length ≤ 4096)
    (hi : i + 1 < data.length) :
    (memory.writeBlock first data).readWord (first + i) =
      data[i].toNat * 0x100 + data[i + 1].toNat := by
  have hbyte {k : Nat} (hk : k < data.length) :
      (memory.writeBlock first data).read (first + k) = data[k] := by
    have hcell : first + k < 4096 := by omega
    have hinside : first ≤ first + k ∧ first + k - first < data.length := by omega
    rw [read_of_lt _ hcell, getElem_writeBlock _ _ _ hcell, dif_pos hinside]
    simp only [Nat.add_sub_cancel_left]
  rw [readWord, hbyte (Nat.lt_of_succ_lt hi), Nat.add_assoc, hbyte hi]

end Memory

namespace Processor

variable (p : Processor) {data : List UInt8} {start : Int}

theorem perform_load_of_fits {first : Nat}
    (hfits : Memory.blockStart? start data.length = some first) :
    p.perform (.load data start) = (.ok .done, { p with
      machine := { p.machine with memory := p.machine.memory.writeBlock first data } }) := by
  simp only [perform, load, Memory.place?_of_fits p.machine.memory hfits, answered]

theorem perform_load_of_between (hfits : Memory.blockStart? start data.length = none)
    (hcells : ∃ cell, Memory.Between start (start + data.length) cell) :
    p.perform (.load data start) = (.error .blockDoesNotFit, p) := by
  rw [Memory.exists_between_iff] at hcells
  simp only [perform, load, Memory.place?_of_not_fits p.machine.memory hfits, if_neg hcells,
    answered]

theorem perform_load_of_not_between (hfits : Memory.blockStart? start data.length = none)
    (hcells : ¬ ∃ cell, Memory.Between start (start + data.length) cell) :
    p.perform (.load data start) = (.ok .done, p) := by
  rw [Memory.exists_between_iff, not_not] at hcells
  simp only [perform, load, Memory.place?_of_not_fits p.machine.memory hfits, if_pos hcells,
    answered]

theorem perform_load_memory (p : Processor) (data : List UInt8) (start : Int) :
    let loaded := (p.perform (.load data start)).2
    loaded = { p with machine := { p.machine with memory := loaded.machine.memory } } := by
  simp only [perform, load]
  cases Memory.place? p.machine.memory start data with
  | some memory => rfl
  | none => rfl

/-- A load writes the whole block, and nothing else, if its bytes have a cell each in the
memory, the last cell excepted if the address is negative. If they do not, it writes
nothing: it is refused if there is a cell between the addresses of the block, and has no
effect if there is none. The bytes that it writes are fetched as words, two by two; a
fetch from behind the memory gives its last cell. -/
theorem load_is_all_or_nothing (p : Processor) (data : List UInt8) (start : Int) :
    let loaded := p.perform (.load data start)
    let memory := p.machine.memory
    let after := loaded.2.machine.memory
    (∀ first, Memory.blockStart? start data.length = some first →
      loaded.1 = .ok .done ∧
      (∀ cell : Fin 4096, after.get cell =
        if inside : first ≤ cell.val ∧ cell.val - first < data.length then data[cell.val - first]
        else memory.get cell) ∧
      ∀ (i : Nat) (_ : i + 1 < data.length) (pc : Address), pc.toNat = first + i →
        { loaded.2.machine with pc }.fetch = data[i].toNat * 0x100 + data[i + 1].toNat) ∧
    (Memory.blockStart? start data.length = none →
      after = memory ∧
      (loaded.1 = .error .blockDoesNotFit ↔
        ∃ cell, Memory.Between start (start + data.length) cell) ∧
      (loaded.1 = .ok .done ↔ ¬ ∃ cell, Memory.Between start (start + data.length) cell)) ∧
    loaded.2 = { p with machine := { p.machine with memory := after } } ∧
    ∀ m : Machine, m.fetch =
      (m.memory.get (Memory.nearestCell m.pc.toNat)).toNat * 0x100 +
        (m.memory.get (Memory.nearestCell (m.pc.toNat + 1))).toNat := by
  intro loaded memory after
  refine ⟨?_, ?_, p.perform_load_memory data start, fun m => rfl⟩
  · intro first hfits
    have hloaded : loaded = (.ok .done, { p with
        machine := { p.machine with memory := memory.writeBlock first data } }) :=
      p.perform_load_of_fits hfits
    have hafter : after = memory.writeBlock first data := by simp only [after, hloaded]
    refine ⟨by rw [hloaded], ?_, ?_⟩
    · intro cell
      rw [hafter, Memory.get_writeBlock]
    · intro i hi pc hpc
      have hword := memory.readWord_writeBlock (Memory.end_le_of_fits hfits) hi
      rw [← hafter, ← hpc] at hword
      exact hword
  · intro hfits
    by_cases hcells : ∃ cell, Memory.Between start (start + data.length) cell
    · have hloaded : loaded = (.error .blockDoesNotFit, p) :=
        p.perform_load_of_between hfits hcells
      simp [after, memory, hloaded, hcells]
    · have hloaded : loaded = (.ok .done, p) := p.perform_load_of_not_between hfits hcells
      simp [after, memory, hloaded, hcells]

/-- Three bytes, loaded to the last three cells, one cell too far, and to where they would end
with the memory if they counted from its end. -/
theorem three_bytes_around_the_end :
    let p := ofMachine (Machine.holding []) {}
    let data : List UInt8 := [0xA2, 0xF0, 0x12]
    { (p.perform (.load data 0xFFD)).2.machine with pc := 0xFFE }.fetch = 0xF012 ∧
    (p.perform (.load data 0xFFE)).1 = .error .blockDoesNotFit ∧
    (p.perform (.load data (-3))).1 = .ok .done ∧
    (p.perform (.load data (-3))).2.machine.memory = p.machine.memory := by
  intro p data
  obtain ⟨hwritten, -⟩ := load_is_all_or_nothing p data 0xFFD
  obtain ⟨-, hrefused, -⟩ := load_is_all_or_nothing p data 0xFFE
  obtain ⟨-, hempty, -⟩ := load_is_all_or_nothing p data (-3)
  obtain ⟨-, -, hfetch⟩ := hwritten 0xFFD (by decide)
  obtain ⟨-, hfault, -⟩ := hrefused (by decide)
  obtain ⟨hmemory, -, hdone⟩ := hempty (by decide)
  have hword := (hfetch 1 (by decide) 0xFFE rfl).trans (by decide : _ = 0xF012)
  have hcell : Memory.Between 0xFFE (0xFFE + data.length) 0xFFE := by decide
  have hnone : ¬ ∃ cell, Memory.Between (-3) (-3 + data.length) cell := by
    rintro ⟨cell, hfrom, hto⟩
    have hend : Memory.fromStart (-3 + data.length) = 0 := rfl
    omega
  exact ⟨hword, hfault.mpr ⟨_, hcell⟩, hdone.mpr hnone, hmemory⟩

end Processor

end Chip8VM
