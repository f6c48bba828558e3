/-!
The memory: 4096 bytes, with the glyphs of the sixteen hex digits at its start. Addresses are not
reduced to the size of the memory. A read past the end gives the last cell, and a byte written
past the end is lost.
-/

namespace Chip8VM

abbrev Memory := Vector UInt8 4096

def memorySize : Nat := 4096

/-- Where programs are loaded and where they start. -/
def programStart : Nat := 0x200

def fontStart : Nat := 0x000

/-- The number of bytes, one a row, of a glyph. -/
def glyphSize : Nat := 5

/-- The glyphs of the digits 0 to F, each four pixels wide and five high. -/
def font : List UInt8 :=
  [0xF0, 0x90, 0x90, 0x90, 0xF0,
   0x20, 0x60, 0x20, 0x20, 0x70,
   0xF0, 0x10, 0xF0, 0x80, 0xF0,
   0xF0, 0x10, 0xF0, 0x10, 0xF0,
   0x90, 0x90, 0xF0, 0x10, 0x10,
   0xF0, 0x80, 0xF0, 0x10, 0xF0,
   0xF0, 0x80, 0xF0, 0x90, 0xF0,
   0xF0, 0x10, 0x20, 0x40, 0x40,
   0xF0, 0x90, 0xF0, 0x90, 0xF0,
   0xF0, 0x90, 0xF0, 0x10, 0xF0,
   0xF0, 0x90, 0xF0, 0x90, 0x90,
   0xE0, 0x90, 0xE0, 0x90, 0xE0,
   0xF0, 0x80, 0x80, 0x80, 0xF0,
   0xE0, 0x90, 0x90, 0x90, 0xE0,
   0xF0, 0x80, 0xF0, 0x80, 0xF0,
   0xF0, 0x80, 0xF0, 0x80, 0x80]

namespace Memory

def zeroed : Memory := Vector.replicate 4096 0

def read (m : Memory) (address : Nat) : UInt8 := m[min address 4095]

def readBlock (m : Memory) (address count : Nat) : List UInt8 :=
  (List.range count).map fun k => m.read (address + k)

/-- The big-endian word at an address. -/
def readWord (m : Memory) (address : Nat) : Nat :=
  (m.read address).toNat * 0x100 + (m.read (address + 1)).toNat

def write (m : Memory) (address : Nat) (value : UInt8) : Memory :=
  if h : address < 4096 then m.set address value else m

def writeBlock (m : Memory) (address : Nat) : List UInt8 → Memory
  | [] => m
  | b :: rest => (m.write address b).writeBlock (address + 1) rest

theorem read_of_lt (m : Memory) {a : Nat} (h : a < 4096) : m.read a = m[a] := by
  have : min a 4095 = a := by omega
  simp [read, this]

theorem getElem_write (m : Memory) (a : Nat) (value : UInt8) {c : Nat} (h : c < 4096) :
    (m.write a value)[c] = if a = c then value else m[c] := by
  unfold write
  split
  · exact Vector.getElem_set _ _
  · rw [if_neg (by omega)]

theorem getElem_writeBlock (m : Memory) (a : Nat) (data : List UInt8) {c : Nat} (h : c < 4096) :
    (m.writeBlock a data)[c] =
      if inside : a ≤ c ∧ c - a < data.length then data[c - a] else m[c] := by
  induction data generalizing m a with
  | nil => simp [writeBlock]
  | cons b rest ih =>
      rw [writeBlock, ih, getElem_write _ _ _ h]
      by_cases here : a = c
      · subst here
        have past : ¬ a + 1 ≤ a := by omega
        simp [past]
      · by_cases past : a + 1 ≤ c
        · have shift : c - a = c - (a + 1) + 1 := by omega
          have before : a ≤ c := by omega
          simp [here, past, before, shift]
        · have notBefore : ¬ a ≤ c := by omega
          simp [here, past, notBefore]

/-- A bound of a range of cells, counted from the end of the memory when it is negative, and then
brought to the nearest bound that exists. -/
def cellBound (bound : Int) : Nat :=
  min (if bound < 0 then bound + 4096 else bound).toNat 4096

/-- Places a block of bytes at an address, which may be negative. Of the cells between the
block's bounds, either there are as many as the block has bytes, and then they are overwritten,
or there are none, and then nothing happens. In any other case the block does not fit. -/
def place? (m : Memory) (start : Int) (data : List UInt8) : Option Memory :=
  let first := cellBound start
  let cells := cellBound (start + data.length) - first
  if cells = data.length then some (m.writeBlock first data)
  else if cells = 0 then some m
  else none

end Memory

end Chip8VM
