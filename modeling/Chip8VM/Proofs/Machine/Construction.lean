import Chip8VM.Proofs.Machine.Keypad
import Chip8VM.Proofs.Machine.Setup

/-!
Machines made by setups. What a setup has for a field is looked at field by field in a
fixed order, and the first field that cannot hold its numbers decides the error; of
numbers that are both out of range and too many or too few, the range is looked at
first. If no field is at fault, the machine holds just the numbers that are given.
-/

namespace Chip8VM

/-- A field of a setup: a part of the machine, or the keys that are held. -/
inductive Field where
  | part (part : Part)
  | keys
deriving DecidableEq, Repr

namespace Setup

/-- The fields in the order in which they are looked at. -/
def fieldOrder : List Field :=
  [.part .seed, .part .memory, .part .registers, .part .screen, .part .pc, .part .index,
    .part .stack, .part .delay, .part .sound, .keys]

def numberFault? (part : Part) (low high number : Int) : Option SetupError :=
  if low ≤ number ∧ number < high then none else some (.outOfRange part)

def numbersFault? (part : Part) (high : Int) (numbers : List Int) : Option SetupError :=
  if ∀ number ∈ numbers, 0 ≤ number ∧ number < high then none else some (.outOfRange part)

def cellsFault? (part : Part) (size : Nat) (numbers : List Int) : Option SetupError :=
  (numbersFault? part 0x100 numbers).or
    (if numbers.length = size then none else some (.wrongLength part size numbers.length))

/-- The first number that is not that of a key is at fault. -/
def keysFault? (numbers : List Int) : Option SetupError :=
  (numbers.find? fun number => !decide (0 ≤ number ∧ number < 16)).map .invalidKey

/-- What keeps a field from holding what the setup has for it. -/
def fault? (setup : Setup) : Field → Option SetupError
  | .part .seed => numberFault? .seed (-0x8000000000000000) 0x8000000000000000 setup.seed
  | .part .memory => setup.memory.bind (cellsFault? .memory 4096)
  | .part .registers => setup.registers.bind (cellsFault? .registers 16)
  | .part .screen => setup.screen.bind (cellsFault? .screen 2048)
  | .part .pc => setup.pc.bind (numberFault? .pc 0 0x10000)
  | .part .index => setup.index.bind (numberFault? .index 0 0x10000)
  | .part .stack => setup.stack.bind (numbersFault? .stack 0x10000)
  | .part .delay => setup.delay.bind (numberFault? .delay 0 0x100)
  | .part .sound => setup.sound.bind (numberFault? .sound 0 0x100)
  | .keys => setup.heldKeys.bind keysFault?

/-- What is wrong with a result, if it is an error. -/
def faultOf {α : Type} : Except SetupError α → Option SetupError
  | .ok _ => none
  | .error error => some error

section

variable {α β : Type}

theorem faultOf_eq_some_iff (result : Except SetupError α) (error : SetupError) :
    faultOf result = some error ↔ result = .error error := by
  cases result <;> simp [faultOf]

theorem faultOf_eq_none_iff (result : Except SetupError α) :
    faultOf result = none ↔ ∃ value, result = .ok value := by
  cases result <;> simp [faultOf]

/-- Of two results in succession the first error counts. -/
theorem faultOf_bind {first : Except SetupError α} {next : α → Except SetupError β}
    {fault later : Option SetupError} (hfirst : faultOf first = fault)
    (hnext : ∀ value, first = .ok value → faultOf (next value) = later) :
    faultOf (first >>= next) = fault.or later := by
  rw [← hfirst]
  cases first with
  | error error => rfl
  | ok value => exact hnext value rfl

theorem faultOf_given (override : Option α) {read : α → Except SetupError β} {initial : β}
    {fault : α → Option SetupError} (hread : ∀ numbers, faultOf (read numbers) = fault numbers) :
    faultOf (given override read initial) = override.bind fault := by
  cases override with
  | none => rfl
  | some numbers => exact hread numbers

theorem numbersFault?_cons (part : Part) (high number : Int) (rest : List Int) :
    numbersFault? part high (number :: rest) =
      (numberFault? part 0 high number).or (numbersFault? part high rest) := by
  simp only [numbersFault?, numberFault?, List.forall_mem_cons]
  by_cases hnumber : 0 ≤ number ∧ number < high
  · simp only [hnumber, and_self, true_and, if_true, Option.none_or]
  · simp only [hnumber, false_and, if_false, Option.some_or]

/-- Numbers that are read one after the other are at fault if one of them is, whichever
it is. -/
theorem faultOf_mapM {read : Int → Except SetupError α} {part : Part} {high : Int}
    (hread : ∀ number, faultOf (read number) = numberFault? part 0 high number)
    (numbers : List Int) : faultOf (numbers.mapM read) = numbersFault? part high numbers := by
  induction numbers with
  | nil => simp [numbersFault?, faultOf, pure, Except.pure]
  | cons number rest ih =>
      rw [List.mapM_cons, numbersFault?_cons]
      refine faultOf_bind (hread number) fun value _ => ?_
      calc
        _ = (numbersFault? part high rest).or none := faultOf_bind ih fun values _ => rfl
        _ = numbersFault? part high rest := Option.or_none

end

theorem faultOf_inRange {α : Type} (part : Part) (low high number : Int) (value : α) :
    faultOf (if low ≤ number ∧ number < high then .ok value else .error (.outOfRange part)) =
      numberFault? part low high number := by
  unfold numberFault?
  split
  next => rfl
  next => rfl

theorem faultOf_readByte (part : Part) (number : Int) :
    faultOf (readByte part number) = numberFault? part 0 0x100 number :=
  faultOf_inRange part 0 0x100 number _

theorem faultOf_readWord (part : Part) (number : Int) :
    faultOf (readWord part number) = numberFault? part 0 0x10000 number :=
  faultOf_inRange part 0 0x10000 number _

theorem faultOf_readSeed (number : Int) :
    faultOf (readSeed number) =
      numberFault? .seed (-0x8000000000000000) 0x8000000000000000 number :=
  faultOf_inRange .seed (-0x8000000000000000) 0x8000000000000000 number _

theorem faultOf_readCells (part : Part) (size : Nat) (numbers : List Int) :
    faultOf (readCells part size numbers) = cellsFault? part size numbers := by
  unfold readCells
  refine faultOf_bind (faultOf_mapM (faultOf_readByte part) numbers) fun bytes hbytes => ?_
  have hlength : bytes.length = numbers.length := by
    rw [← (mapM_readByte_eq_ok_iff part numbers bytes).mp hbytes, List.length_map]
  rw [← hlength]
  split
  next hsize => exact (if_pos hsize).symm
  next hsize => exact (if_neg hsize).symm

theorem faultOf_readKeys (numbers : List Int) : faultOf (readKeys numbers) = keysFault? numbers := by
  unfold readKeys
  -- The keypad changes along the list, but what is at fault does not depend on it.
  generalize Keypad.released = keypad
  induction numbers generalizing keypad with
  | nil => rfl
  | cons number rest ih =>
      rw [List.foldlM_cons, keysFault?, List.find?_cons]
      cases hkey : Key.ofInt? number with
      | none =>
          have houtside : ¬(0 ≤ number ∧ number < 16) := by
            intro hinside
            rw [Key.ofInt?, dif_pos hinside] at hkey
            cases hkey
          rw [decide_eq_false houtside]
          rfl
      | some key =>
          have hinside : 0 ≤ number ∧ number < 16 := by
            have := (Key.ofInt?_eq_some_iff number key).mp hkey
            omega
          rw [decide_eq_true hinside]
          exact ih (keypad.press key)

theorem findSome?_cons_or {α β : Type} (f : α → Option β) (x : α) (rest : List α) :
    (x :: rest).findSome? f = (f x).or (rest.findSome? f) := by
  rw [List.findSome?_cons]
  cases f x with
  | none => rfl
  | some y => rfl

/-- A setup fails with what is wrong with the first field that is at fault, or not at
all. -/
theorem faultOf_machine (setup : Setup) :
    faultOf setup.machine = fieldOrder.findSome? setup.fault? := by
  unfold machine
  simp only [fieldOrder, findSome?_cons_or, fault?, List.findSome?_nil]
  refine faultOf_bind (faultOf_readSeed _) fun random _ => ?_
  refine faultOf_bind (faultOf_given _ (faultOf_readCells .memory 4096)) fun memory _ => ?_
  refine faultOf_bind (faultOf_given _ (faultOf_readCells .registers 16)) fun registers _ => ?_
  refine faultOf_bind (faultOf_given _ (faultOf_readCells .screen 2048)) fun screen _ => ?_
  refine faultOf_bind (faultOf_given _ (faultOf_readWord .pc)) fun pc _ => ?_
  refine faultOf_bind (faultOf_given _ (faultOf_readWord .index)) fun index _ => ?_
  refine faultOf_bind (faultOf_given _ (faultOf_mapM (faultOf_readWord .stack))) fun stack _ => ?_
  refine faultOf_bind (faultOf_given _ (faultOf_readByte .delay)) fun delay _ => ?_
  refine faultOf_bind (faultOf_given _ (faultOf_readByte .sound)) fun sound _ => ?_
  exact faultOf_bind (faultOf_given _ faultOf_readKeys) fun keypad _ => rfl

/-- Whether numbers are as many bytes as a part has cells. -/
def AreCells (size : Nat) (numbers : List Int) : Prop :=
  (∀ number ∈ numbers, 0 ≤ number ∧ number < 0x100) ∧ numbers.length = size

/-- Whether every field can hold what the setup has for it. -/
structure Acceptable (setup : Setup) : Prop where
  seed : -0x8000000000000000 ≤ setup.seed ∧ setup.seed < 0x8000000000000000
  memory : ∀ numbers, setup.memory = some numbers → AreCells 4096 numbers
  registers : ∀ numbers, setup.registers = some numbers → AreCells 16 numbers
  screen : ∀ numbers, setup.screen = some numbers → AreCells 2048 numbers
  pc : ∀ number, setup.pc = some number → 0 ≤ number ∧ number < 0x10000
  index : ∀ number, setup.index = some number → 0 ≤ number ∧ number < 0x10000
  stack : ∀ numbers, setup.stack = some numbers →
    ∀ number ∈ numbers, 0 ≤ number ∧ number < 0x10000
  delay : ∀ number, setup.delay = some number → 0 ≤ number ∧ number < 0x100
  sound : ∀ number, setup.sound = some number → 0 ≤ number ∧ number < 0x100
  heldKeys : ∀ numbers, setup.heldKeys = some numbers →
    ∀ number ∈ numbers, 0 ≤ number ∧ number < 16

theorem numberFault?_eq_none_iff (part : Part) (low high number : Int) :
    numberFault? part low high number = none ↔ low ≤ number ∧ number < high := by
  simp [numberFault?]

theorem numbersFault?_eq_none_iff (part : Part) (high : Int) (numbers : List Int) :
    numbersFault? part high numbers = none ↔ ∀ number ∈ numbers, 0 ≤ number ∧ number < high := by
  simp [numbersFault?]

theorem cellsFault?_eq_none_iff (part : Part) (size : Nat) (numbers : List Int) :
    cellsFault? part size numbers = none ↔ AreCells size numbers := by
  rw [cellsFault?, Option.or_eq_none_iff, numbersFault?_eq_none_iff, AreCells]
  simp

theorem keysFault?_eq_none_iff (numbers : List Int) :
    keysFault? numbers = none ↔ ∀ number ∈ numbers, 0 ≤ number ∧ number < 16 := by
  simp [keysFault?]

/-- A setup is accepted just when none of the fields is at fault. -/
theorem findSome?_eq_none_iff (setup : Setup) :
    fieldOrder.findSome? setup.fault? = none ↔ setup.Acceptable := by
  simp only [fieldOrder, findSome?_cons_or, List.findSome?_nil, Option.or_none,
    Option.or_eq_none_iff, fault?, Option.bind_eq_none_iff, numberFault?_eq_none_iff,
    numbersFault?_eq_none_iff, cellsFault?_eq_none_iff, keysFault?_eq_none_iff]
  constructor
  · rintro ⟨hseed, hmemory, hregisters, hscreen, hpc, hindex, hstack, hdelay, hsound, hkeys⟩
    exact ⟨hseed, hmemory, hregisters, hscreen, hpc, hindex, hstack, hdelay, hsound, hkeys⟩
  · rintro ⟨hseed, hmemory, hregisters, hscreen, hpc, hindex, hstack, hdelay, hsound, hkeys⟩
    exact ⟨hseed, hmemory, hregisters, hscreen, hpc, hindex, hstack, hdelay, hsound, hkeys⟩

/-- The bytes of a part as numbers. -/
def byteNumbers (bytes : List UInt8) : List Int := bytes.map fun byte => (byte.toNat : Int)

/-- Whether a machine holds just what a setup has for its fields, and in every other
field what it holds when the power comes on. The font is put over the memory. -/
structure Holds (setup : Setup) (m : Machine) : Prop where
  random : m.random.fst = 0 ∧ (m.random.snd.toNat : Int) = setup.seed % 0x100000000
  memory : byteNumbers m.memory.toList =
    byteNumbers font ++ (setup.memory.getD (List.replicate 4096 0)).drop 0x50
  registers : byteNumbers m.registers.toList = setup.registers.getD (List.replicate 16 0)
  screen : byteNumbers m.screen.toList = setup.screen.getD (List.replicate 2048 0)
  pc : (m.pc.toNat : Int) = setup.pc.getD 0x200
  index : (m.index.toNat : Int) = setup.index.getD 0
  stack : ∃ addresses, m.stack = CallStack.ofList addresses ∧
    addresses.map (fun address => (address.toNat : Int)) = setup.stack.getD []
  delay : (m.delay.toNat : Int) = setup.delay.getD 0
  sound : (m.sound.toNat : Int) = setup.sound.getD 0
  keypad : ∀ key : Key, m.keypad.get key = true ↔ (key.val : Int) ∈ setup.heldKeys.getD []
  speaker : m.speaker = setup.speaker

/-- A field holds the numbers that it was read from. -/
theorem numbers_of_given {α β : Type} (toNumbers : β → α) {override : Option α}
    {read : α → Except SetupError β} {initial value : β}
    (hread : ∀ numbers, read numbers = .ok value → toNumbers value = numbers)
    (hgiven : given override read initial = .ok value) :
    toNumbers value = override.getD (toNumbers initial) := by
  cases override with
  | none =>
      obtain rfl := Except.ok.inj hgiven
      rfl
  | some numbers => exact hread numbers hgiven

theorem cells_of_given {part : Part} {size : Nat} {override : Option (List Int)}
    {cells : Vector UInt8 size}
    (hgiven : given override (readCells part size) (Vector.replicate size 0) = .ok cells) :
    byteNumbers cells.toList = override.getD (List.replicate size 0) := by
  have hnumbers := numbers_of_given (fun cells : Vector UInt8 size => byteNumbers cells.toList)
    (fun numbers => (readCells_eq_ok_iff part numbers cells).mp) hgiven
  have hzeros : byteNumbers (Vector.replicate size (0 : UInt8)).toList = List.replicate size 0 := by
    rw [Vector.toList_replicate, byteNumbers, List.map_replicate]
    rfl
  rwa [hzeros] at hnumbers

theorem word_of_given {part : Part} {override : Option Int} {initial word : UInt16}
    (hgiven : given override (readWord part) initial = .ok word) :
    (word.toNat : Int) = override.getD initial.toNat :=
  numbers_of_given (fun word : UInt16 => (word.toNat : Int))
    (fun number => (readWord_eq_ok_iff part number word).mp) hgiven

theorem toList_writeBlock_font (memory : Memory) :
    (Memory.writeBlock memory fontStart font).toList = font ++ memory.toList.drop 0x50 := by
  have hfont : font.length = 0x50 := rfl
  refine List.ext_getElem (by simp [hfont]) fun cell hcell _ => ?_
  have hlt : cell < 4096 := by simpa using hcell
  rw [Vector.getElem_toList, Memory.getElem_writeBlock memory fontStart font hlt,
    List.getElem_append]
  by_cases hinside : cell < font.length
  · rw [dif_pos ⟨Nat.zero_le _, hinside⟩, dif_pos hinside]
    rfl
  · have hbehind : 0x50 + (cell - font.length) = cell := by omega
    rw [dif_neg (fun hcover => hinside hcover.2), dif_neg hinside, List.getElem_drop,
      Vector.getElem_toList]
    simp only [hbehind]

/-- The keys that are held are those whose numbers are given, in whatever order and
however often. -/
theorem get_of_readKeys {numbers : List Int} {keypad : Keypad}
    (hread : readKeys numbers = .ok keypad) (key : Key) :
    keypad.get key = true ↔ (key.val : Int) ∈ numbers := by
  have hreleased : Keypad.released.get key ≠ true := by simp [Keypad.released, Vector.get]
  suffices hheld : keypad.get key = true ↔
      Keypad.released.get key = true ∨ (key.val : Int) ∈ numbers by
    rw [hheld, or_iff_right hreleased]
  unfold readKeys at hread
  -- The keys pressed along the list are held besides those held before it.
  generalize Keypad.released = start at hread ⊢
  clear hreleased
  induction numbers generalizing start with
  | nil =>
      obtain rfl := Except.ok.inj hread
      simp
  | cons number rest ih =>
      rw [List.foldlM_cons] at hread
      cases hkey : Key.ofInt? number with
      | none =>
          rw [hkey] at hread
          cases hread
      | some pressed =>
          rw [hkey] at hread
          have hnumber : (key.val : Int) = number ↔ pressed = key := by
            rw [(Key.ofInt?_eq_some_iff number pressed).mp hkey, Fin.ext_iff]
            omega
          rw [ih (start.press pressed) hread, Keypad.get_press, List.mem_cons, hnumber, or_assoc]

theorem held_of_given {override : Option (List Int)} {keypad : Keypad}
    (hgiven : given override readKeys Keypad.released = .ok keypad) (key : Key) :
    keypad.get key = true ↔ (key.val : Int) ∈ override.getD [] := by
  cases override with
  | none =>
      obtain rfl := Except.ok.inj hgiven
      simp [Keypad.released, Vector.get]
  | some numbers => exact get_of_readKeys hgiven key

theorem holds_of_makes {setup : Setup} {m : Machine} (hmakes : setup.Makes m) :
    setup.Holds m where
  random := (key_of_readSeed hmakes.random).2
  memory := by
    obtain ⟨memory, hmemory, hfont⟩ := hmakes.memory
    have hcells := cells_of_given hmemory
    rw [hfont, toList_writeBlock_font, ← hcells]
    simp only [byteNumbers, List.map_append, List.map_drop]
  registers := cells_of_given hmakes.registers
  screen := cells_of_given hmakes.screen
  pc := word_of_given hmakes.pc
  index := word_of_given hmakes.index
  stack := by
    obtain ⟨addresses, haddresses, hstack⟩ := hmakes.stack
    exact ⟨addresses, hstack, numbers_of_given _
      (fun numbers => (mapM_eq_ok_iff (readWord_eq_ok_iff .stack) numbers addresses).mp) haddresses⟩
  delay := toNat_given_byte hmakes.delay
  sound := toNat_given_byte hmakes.sound
  keypad := held_of_given hmakes.keypad
  speaker := hmakes.speaker

/-- A setup makes a machine just when every field can hold what the setup has for it,
and then the machine holds just that: the stack from its oldest address on, the keys
whose numbers are given, and the font over the memory. Otherwise the first field in
their order that is at fault decides the error. -/
theorem machine_as_given_or_first_fault (setup : Setup) :
    ((∃ m, setup.machine = .ok m) ↔ setup.Acceptable) ∧
    (∀ m, setup.machine = .ok m → setup.Holds m) ∧
    ∀ error, setup.machine = .error error ↔
      ∃ before field after, fieldOrder = before ++ field :: after ∧
        setup.fault? field = some error ∧ ∀ earlier ∈ before, setup.fault? earlier = none := by
  refine ⟨?_, fun m hmachine => holds_of_makes ((machine_eq_ok_iff setup m).mp hmachine), ?_⟩
  · rw [← faultOf_eq_none_iff, faultOf_machine, findSome?_eq_none_iff]
  · intro error
    rw [← faultOf_eq_some_iff, faultOf_machine, List.findSome?_eq_some_iff]

/-- Two registers, one of which is no byte, are at fault for the byte and not for their
number, and before a timer and a key; of two numbers that are no keys the first one is
named; and a key that is given twice is held as one that is given once. -/
theorem faults_in_order_and_keys_held :
    let faulty : Setup :=
      { registers := some [1, 300], sound := some 256, heldKeys := some [3, -1, 99] }
    let misheld : Setup := { heldKeys := some [3, -1, 99] }
    let held : Setup :=
      { memory := some (List.replicate 4096 7), stack := some [0x300, 0xFFFF],
        heldKeys := some [5, 3, 5] }
    faulty.machine = .error (.outOfRange .registers) ∧
    misheld.machine = .error (.invalidKey (-1)) ∧
    ∃ m, held.machine = .ok m ∧
      byteNumbers m.memory.toList = byteNumbers font ++ (List.replicate 4096 7).drop 0x50 ∧
      m.stack.toList.map (fun address => (address.toNat : Int)) = [0x300, 0xFFFF] ∧
      m.keypad.get 5 = true ∧ m.keypad.get 3 = true ∧ m.keypad.get 4 ≠ true := by
  intro faulty misheld held
  refine ⟨?_, ?_, ?_⟩
  · refine ((machine_as_given_or_first_fault faulty).2.2 _).mpr ?_
    exact ⟨[.part .seed, .part .memory], .part .registers, _, rfl, by decide, by decide⟩
  · refine ((machine_as_given_or_first_fault misheld).2.2 _).mpr ?_
    exact ⟨fieldOrder.dropLast, .keys, [], rfl, by decide, by decide⟩
  · obtain ⟨haccepted, hholds, -⟩ := machine_as_given_or_first_fault held
    have hmemory : AreCells 4096 (List.replicate 4096 7) := by
      refine ⟨fun number hmem => ?_, List.length_replicate⟩
      rw [List.eq_of_mem_replicate hmem]
      decide
    obtain ⟨m, hmachine⟩ := haccepted.mpr
      { seed := by decide
        memory := fun numbers hnumbers => Option.some.inj hnumbers ▸ hmemory
        registers := nofun
        screen := nofun
        pc := nofun
        index := nofun
        stack := fun numbers hnumbers => Option.some.inj hnumbers ▸ by decide
        delay := nofun
        sound := nofun
        heldKeys := fun numbers hnumbers => Option.some.inj hnumbers ▸ by decide }
    have hheld := hholds m hmachine
    obtain ⟨addresses, hstack, haddresses⟩ := hheld.stack
    refine ⟨m, hmachine, hheld.memory, ?_, ?_, ?_, ?_⟩
    · rw [hstack, CallStack.toList_ofList]
      exact haddresses
    · exact (hheld.keypad 5).mpr (by decide)
    · exact (hheld.keypad 3).mpr (by decide)
    · exact mt (hheld.keypad 4).mp (by decide)

end Setup

end Chip8VM
