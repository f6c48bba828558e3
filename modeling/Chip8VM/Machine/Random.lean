/-!
The source of random bytes: a counter-based generator on pairs of 32-bit words, the Threefry
cipher with twenty rounds. A key is never used up but split into two: one replaces it, and the
other gives one byte.
-/

namespace Chip8VM

/-- A pair of words, as key, as counter and as result. -/
structure WordPair where
  fst : UInt32
  snd : UInt32
deriving DecidableEq, Repr

abbrev RandomKey := WordPair

namespace Threefry

def rotateLeft (w : UInt32) (distance : UInt32) : UInt32 :=
  w <<< distance ||| w >>> (32 - distance)

/-- Adds the second word to the first, and mixes the rotated second word with the sum. -/
def round (block : WordPair) (distance : UInt32) : WordPair :=
  let sum := block.fst + block.snd
  ⟨sum, rotateLeft block.snd distance ^^^ sum⟩

/-- The parity word: the exclusive or of the key's words and a constant. -/
def parity (key : RandomKey) : UInt32 := key.fst ^^^ key.snd ^^^ 0x1BD11BDA

/-- The words of the key schedule, used in rotation. -/
def schedule (key : RandomKey) (i : Nat) : UInt32 :=
  match i % 3 with
  | 0 => key.fst
  | 1 => key.snd
  | _ => parity key

def distances (group : Nat) : List UInt32 :=
  if group % 2 = 0 then [13, 15, 26, 6] else [17, 29, 16, 24]

/-- Four rounds and the injection of the next key words and the number of the group. -/
def mixGroup (key : RandomKey) (block : WordPair) (group : Nat) : WordPair :=
  let mixed := (distances group).foldl round block
  ⟨mixed.fst + schedule key (group + 1),
    mixed.snd + schedule key (group + 2) + UInt32.ofNat (group + 1)⟩

/-- The block that the cipher makes of a counter. -/
def encrypt (key : RandomKey) (counter : WordPair) : WordPair :=
  (List.range 5).foldl (mixGroup key) ⟨counter.fst + key.fst, counter.snd + key.snd⟩

end Threefry

namespace RandomKey

/-- The key of a seed keeps the seed's lowest 32 bits. -/
def ofSeed (seed : Int) : RandomKey := ⟨0, UInt32.ofNat (seed % 0x100000000).toNat⟩

def split (key : RandomKey) : RandomKey × RandomKey :=
  (Threefry.encrypt key ⟨0, 0⟩, Threefry.encrypt key ⟨0, 1⟩)

/-- The key that replaces a key after use. -/
def next (key : RandomKey) : RandomKey := key.split.1

def byte (key : RandomKey) : UInt8 :=
  let block := Threefry.encrypt key.split.2.split.2 ⟨0, 0⟩
  (block.fst ^^^ block.snd).toUInt8

end RandomKey

end Chip8VM
