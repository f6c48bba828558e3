import Chip8VM.Proofs.Machine.Halting

/-!
What is written to memory. A write is a block of bytes for successive cells.
Its addresses are not reduced: a byte behind the last cell is lost, and none
comes back at the first cell. A cell holds what the last write that covers it has
put there. Of the instructions only two write, one that takes a register apart
into its decimal digits and one that stores registers.
-/

namespace Chip8VM

/-- Bytes for successive cells, the first of them for the cell `start`. -/
structure Write where
  start : Nat
  bytes : List UInt8
deriving DecidableEq, Repr

/-- The byte for a cell, if the cell is covered. -/
def Write.byteAt? (w : Write) (cell : Nat) : Option UInt8 :=
  if w.start ≤ cell then w.bytes[cell - w.start]? else none

theorem Write.byteAt?_of_lt {w : Write} {cell : Nat} (hbefore : cell < w.start) :
    w.byteAt? cell = none :=
  if_neg (by omega)

/-- The bytes that several writes put into a cell, one after the other. -/
def Write.bytesAt (writes : List Write) (cell : Nat) : List UInt8 :=
  writes.filterMap (·.byteAt? cell)

theorem Write.bytesAt_of_lt {writes : List Write} {cell : Nat}
    (hbefore : ∀ w ∈ writes, cell < w.start) : bytesAt writes cell = [] := by
  rw [bytesAt, List.filterMap_eq_nil_iff]
  exact fun w hw => byteAt?_of_lt (hbefore w hw)

namespace Memory

/-- The memory after several writes, the first of them first. -/
def writeAll (memory : Memory) (writes : List Write) : Memory :=
  writes.foldl (fun written w => written.writeBlock w.start w.bytes) memory

theorem writeAll_append (memory : Memory) (first second : List Write) :
    memory.writeAll (first ++ second) = (memory.writeAll first).writeAll second :=
  List.foldl_append

theorem read_writeBlock (memory : Memory) (w : Write) (cell : Fin 4096) :
    (memory.writeBlock w.start w.bytes).read cell =
      (w.byteAt? cell).getD (memory.read cell) := by
  have hcell := memory.getElem_writeBlock w.start w.bytes cell.isLt
  rw [read_of_lt _ cell.isLt, hcell, read_of_lt _ cell.isLt, Write.byteAt?]
  by_cases hfrom : w.start ≤ cell
  · by_cases hto : cell - w.start < w.bytes.length
    · simp [hfrom, hto]
    · simp [hfrom, hto]
  · simp [hfrom]

/-- The last write that covers a cell decides what the cell holds. -/
theorem read_writeAll (memory : Memory) (writes : List Write) (cell : Fin 4096) :
    (memory.writeAll writes).read cell =
      (Write.bytesAt writes cell).getLastD (memory.read cell) := by
  induction writes generalizing memory with
  | nil => rfl
  | cons w rest ih =>
      have hrest := ih (memory.writeBlock w.start w.bytes)
      rw [read_writeBlock] at hrest
      rw [Write.bytesAt, List.filterMap_cons]
      cases hbyte : w.byteAt? cell with
      | none =>
          rw [hbyte] at hrest
          exact hrest
      | some byte =>
          rw [hbyte] at hrest
          rw [List.getLastD_cons]
          exact hrest

theorem writeBlock_of_end_le {memory : Memory} {start : Nat} (hend : 4096 ≤ start)
    (data : List UInt8) : memory.writeBlock start data = memory := by
  ext cell hcell
  rw [memory.getElem_writeBlock start data hcell, dif_neg (by omega)]

/-- The first cell of a block that is placed as a whole. A negative address
counts from the end of the memory, and then the last cell has to stay free. -/
def blockStart? (start : Int) (length : Nat) : Option Nat :=
  if 0 ≤ start ∧ start + length ≤ 4096 then some start.toNat
  else if -4096 ≤ start ∧ start + length < 0 then some (start + 4096).toNat
  else none

/-- What a load of some bytes writes. -/
def blockWrite? (data : List UInt8) (start : Int) : Option Write :=
  (blockStart? start data.length).map fun first => ⟨first, data⟩

theorem blockWrite?_eq_some_iff (data : List UInt8) (start : Int) (w : Write) :
    blockWrite? data start = some w ↔
      (0 ≤ start ∧ start + data.length ≤ 4096 ∧ w = ⟨start.toNat, data⟩) ∨
      (-4096 ≤ start ∧ start + data.length < 0 ∧ w = ⟨(start + 4096).toNat, data⟩) := by
  unfold blockWrite? blockStart?
  split
  next hinside =>
    have hnonneg : ¬ start + data.length < 0 := by omega
    simp [hinside, hnonneg, eq_comm]
  next houtside =>
    split
    next hinside =>
      have hneg : ¬ 0 ≤ start := by omega
      simp [hinside, hneg, eq_comm]
    next hother =>
      simp only [Option.map_none, reduceCtorEq, false_iff]
      omega

theorem blockStart?_eq (start : Int) {length : Nat} (hpos : 0 < length) :
    blockStart? start length =
      if cellBound (start + length) - cellBound start = length then some (cellBound start)
      else none := by
  unfold blockStart? cellBound
  split
  next hinside =>
    rw [if_pos (by omega)]
    congr 1
    omega
  next =>
    split
    next hinside =>
      rw [if_pos (by omega)]
      congr 1
      omega
    next => rw [if_neg (by omega)]

/-- A block is written as a whole, or else it leaves the memory as it is. -/
theorem getD_place? (memory : Memory) (data : List UInt8) (start : Int) :
    (memory.place? start data).getD memory =
      memory.writeAll (blockWrite? data start).toList := by
  rcases Nat.eq_zero_or_pos data.length with hnone | hpos
  · obtain rfl := List.length_eq_zero_iff.mp hnone
    have hplace : memory.place? start [] = some memory := by simp [place?, writeBlock]
    rw [hplace, blockWrite?]
    cases blockStart? start ([] : List UInt8).length with
    | none => rfl
    | some first => rfl
  · rw [blockWrite?, blockStart?_eq start hpos]
    unfold place?
    dsimp only
    split
    next => rfl
    next =>
      split
      next => rfl
      next => rfl

end Memory

theorem decimalBytes_eq_iff (value hundreds tens units : UInt8) :
    decimalBytes value = [hundreds, tens, units] ↔
      hundreds ≤ 9 ∧ tens ≤ 9 ∧ units ≤ 9 ∧
        100 * hundreds.toNat + 10 * tens.toNat + units.toNat = value.toNat := by
  have hvalue := value.toNat_lt
  simp [decimalBytes, UInt8.le_iff_toNat_le, ← UInt8.toNat_inj]
  omega

namespace Machine

/-- What an instruction writes to memory, if it writes. -/
def writeOf? (m : Machine) : Instruction → Option Write
  | .digits x => some ⟨m.index.toNat, decimalBytes (m.register x)⟩
  | .store x => some ⟨m.index.toNat, m.registersTo x⟩
  | _ => none

theorem getElem?_registersTo (m : Machine) {x k : Register} (hk : k ≤ x) :
    (m.registersTo x)[k.val]? = some (m.register k) := by
  have hbelow : k.val < x.val + 1 := Nat.lt_succ_of_le hk
  rw [registersTo, List.getElem?_take_of_lt hbelow]
  simp [register]

theorem registersTo_eq_iff (m : Machine) (x : Register) (bytes : List UInt8) :
    m.registersTo x = bytes ↔
      bytes.length = x.val + 1 ∧ ∀ k ≤ x, bytes[k.val]? = some (m.register k) := by
  have hlength : (m.registersTo x).length = x.val + 1 := by
    rw [registersTo, List.length_take, Vector.length_toList]
    exact Nat.min_eq_left x.isLt
  constructor
  · rintro rfl
    exact ⟨hlength, fun k hk => m.getElem?_registersTo hk⟩
  · rintro ⟨hsize, hbytes⟩
    apply List.ext_getElem?
    intro k
    by_cases hk : k ≤ x.val
    · have hregister : k < 16 := by omega
      rw [hbytes ⟨k, hregister⟩ hk]
      exact m.getElem?_registersTo (k := ⟨k, hregister⟩) hk
    · rw [List.getElem?_eq_none (by omega), List.getElem?_eq_none (by omega)]

theorem execute_memory {m after : Machine} {instruction : Instruction}
    (hexecute : m.execute instruction = .ok after) :
    after.memory = m.memory.writeAll (m.writeOf? instruction).toList := by
  cases instruction with
  | ret =>
      obtain ⟨address, rest, hpop, rfl⟩ := (m.ret_eq_ok_iff after).mp hexecute
      rfl
  | waitKey x =>
      obtain rfl := Except.ok.inj hexecute
      obtain hstay | ⟨key, hgo⟩ := m.awaitKey_cases x
      · rw [hstay]
        rfl
      · rw [hgo]
        rfl
  | load x =>
      obtain rfl := Except.ok.inj hexecute
      simp only [next, advance, loadRegisters]
      rfl
  | _ =>
      obtain rfl := Except.ok.inj hexecute
      rfl

end Machine

end Chip8VM
