import Chip8VM.Proofs.Machine.Setup
import Chip8VM.Proofs.Machine.Writes
import Chip8VM.Proofs.Processor.Command

/-!
The memory over a run. A run writes what its steps and loads write, and so each
cell holds the byte of the last write that covers it, or what the setup has given
it. `Writes` lists the commands that write; no other one does.
-/

namespace Chip8VM

open Processor (Command)

namespace Machine

/-- What a command writes to memory, if it writes. -/
def write? (m : Machine) : Command → Option Write
  | .step =>
      match m.step with
      | .ok (decoded, _) => m.writeOf? decoded.instruction
      | .error _ => none
  | .load data start => Memory.blockWrite? data start
  | .loadRom path (.ok data) =>
      if '\x00' ∈ path.toList then none else Memory.blockWrite? data programStart
  | _ => none

/-- What several commands write, one after the other. -/
def writes (m : Machine) : List Command → List Write
  | [] => []
  | command :: rest => (m.write? command).toList ++ (m.perform command).2.writes rest

/-- The commands that write to memory, each with its write. -/
inductive Writes (m : Machine) : Command → Write → Prop where
  /-- The decimal digits of Vx, at I. -/
  | digits {opcode : Int} {x : Register} {after : Machine} {hundreds tens units : UInt8} :
      m.step = .ok (⟨opcode, .digits x⟩, after) → hundreds ≤ 9 → tens ≤ 9 → units ≤ 9 →
      100 * hundreds.toNat + 10 * tens.toNat + units.toNat = (m.register x).toNat →
      Writes m .step ⟨m.index.toNat, [hundreds, tens, units]⟩
  /-- The registers from V0 to Vx, at I. -/
  | store {opcode : Int} {x : Register} {after : Machine} {bytes : List UInt8} :
      m.step = .ok (⟨opcode, .store x⟩, after) → bytes.length = x.val + 1 →
      (∀ k ≤ x, bytes[k.val]? = some (m.register k)) →
      Writes m .step ⟨m.index.toNat, bytes⟩
  | load {data : List UInt8} {start : Int} :
      0 ≤ start → start + data.length ≤ 4096 → Writes m (.load data start) ⟨start.toNat, data⟩
  /-- A load at a negative address, which counts from the end of the memory. -/
  | loadFromEnd {data : List UInt8} {start : Int} :
      -4096 ≤ start → start + data.length < 0 →
      Writes m (.load data start) ⟨(start + 4096).toNat, data⟩
  | loadRom {path : String} {data : List UInt8} :
      '\x00' ∉ path.toList → programStart + data.length ≤ 4096 →
      Writes m (.loadRom path (.ok data)) ⟨programStart, data⟩

theorem write?_eq_some_iff (m : Machine) (command : Command) (w : Write) :
    m.write? command = some w ↔ m.Writes command w := by
  constructor
  · intro hwrite
    cases command with
    | step =>
        simp only [write?] at hwrite
        split at hwrite
        next decoded after hstep =>
          obtain ⟨opcode, instruction⟩ := decoded
          cases instruction with
          | digits x =>
              obtain rfl := Option.some.inj hwrite
              obtain ⟨hh, ht, hu, hsum⟩ := (decimalBytes_eq_iff (m.register x) _ _ _).mp rfl
              exact .digits hstep hh ht hu hsum
          | store x =>
              obtain rfl := Option.some.inj hwrite
              obtain ⟨hlength, hbytes⟩ := (m.registersTo_eq_iff x _).mp rfl
              exact .store hstep hlength hbytes
          | _ => cases hwrite
        next => cases hwrite
    | load data start =>
        obtain ⟨hfrom, hto, rfl⟩ | ⟨hfrom, hto, rfl⟩ :=
          (Memory.blockWrite?_eq_some_iff _ _ _).mp hwrite
        · exact .load hfrom hto
        · exact .loadFromEnd hfrom hto
    | loadRom path rom =>
        cases rom with
        | error error => cases hwrite
        | ok data =>
            simp only [write?] at hwrite
            split at hwrite
            next => cases hwrite
            next hpath =>
              obtain ⟨_, hto, rfl⟩ | ⟨hfrom, hto, _⟩ :=
                (Memory.blockWrite?_eq_some_iff _ _ _).mp hwrite
              · exact .loadRom hpath (by omega)
              · omega
    | _ => cases hwrite
  · intro hwrites
    cases hwrites with
    | digits hstep hh ht hu hsum =>
        have hdigits := (decimalBytes_eq_iff _ _ _ _).mpr ⟨hh, ht, hu, hsum⟩
        simp only [write?, hstep, writeOf?, hdigits]
    | store hstep hlength hbytes =>
        have hregisters := (m.registersTo_eq_iff _ _).mpr ⟨hlength, hbytes⟩
        simp only [write?, hstep, writeOf?, hregisters]
    | load hfrom hto =>
        exact (Memory.blockWrite?_eq_some_iff _ _ _).mpr (.inl ⟨hfrom, hto, rfl⟩)
    | loadFromEnd hfrom hto =>
        exact (Memory.blockWrite?_eq_some_iff _ _ _).mpr (.inr ⟨hfrom, hto, rfl⟩)
    | @loadRom path data hpath hto =>
        have hblock := (Memory.blockWrite?_eq_some_iff data programStart _).mpr
          (.inl ⟨Int.natCast_nonneg _, by omega, rfl⟩)
        simpa only [write?, if_neg hpath, Int.toNat_natCast] using hblock

theorem load_memory (m : Machine) (data : List UInt8) (start : Int) :
    (m.load data start).2.memory = m.memory.writeAll (Memory.blockWrite? data start).toList := by
  rw [← Memory.getD_place?, load]
  cases Memory.place? m.memory start data with
  | some memory => rfl
  | none => rfl

/-- A command other than a reset leaves the memory as its write makes it. -/
theorem perform_memory (m : Machine) {command : Command}
    (hreset : ∀ setup, command ≠ .reset setup) :
    (m.perform command).2.memory = m.memory.writeAll (m.write? command).toList := by
  cases command with
  | step =>
      cases hstep : m.step with
      | error cause =>
          simp only [perform, write?, hstep]
          rfl
      | ok result =>
          obtain ⟨_, hexecute⟩ := (m.step_eq_ok_iff _ _).mp hstep
          simp only [perform, write?, hstep]
          exact execute_memory hexecute
  | tick => rfl
  | press number =>
      simp only [perform]
      split <;> rfl
  | release number =>
      simp only [perform]
      split <;> rfl
  | load data start => exact m.load_memory data start
  | loadRom path rom =>
      cases rom with
      | error error =>
          simp only [perform]
          split <;> rfl
      | ok data =>
          simp only [perform, write?]
          split
          next => rfl
          next => exact m.load_memory data programStart
  | reset setup => exact absurd rfl (hreset setup)

theorem performAll_memory (m : Machine) {commands : List Command}
    (hreset : ∀ command ∈ commands, ∀ setup, command ≠ .reset setup) :
    (m.performAll commands).memory = m.memory.writeAll (m.writes commands) := by
  induction commands generalizing m with
  | nil => rfl
  | cons command rest ih =>
      have hrest := ih (m.perform command).2 fun other hother => hreset other (by simp [hother])
      rw [m.perform_memory (hreset command (by simp))] at hrest
      rw [performAll_cons, hrest, writes, Memory.writeAll_append]

/-- What I leads behind the end of the memory is lost as a whole. -/
theorem step_memory_of_end_le {m after : Machine} {decoded : Decoded}
    (hstep : m.step = .ok (decoded, after)) (hend : 4096 ≤ m.index.toNat) :
    after.memory = m.memory := by
  obtain ⟨_, hexecute⟩ := (m.step_eq_ok_iff _ _).mp hstep
  rw [execute_memory hexecute]
  cases decoded.instruction with
  | digits x => exact Memory.writeBlock_of_end_le hend _
  | store x => exact Memory.writeBlock_of_end_le hend _
  | _ => rfl

end Machine

namespace Processor

/-- The law of the last writer. A processor starts with the cells that its setup
gives it. From then on, and until it is reset, each cell holds the byte of the
last write that covers it, and only the commands of `Machine.Writes` write. What
is stored from an address behind the end of the memory on changes no cell; and
while all writes start behind the font, the font stays as it is. -/
theorem memory_holds_last_writes {setup : Setup} {logger : Logger} {p : Processor}
    (hcreate : create setup logger = .ok p) (commands : List Command)
    (hreset : ∀ command ∈ commands, ∀ setup, command ≠ .reset setup) :
    let writes := p.machine.writes commands
    let after := (p.performAll commands).machine.memory
    (∀ cell : Fin 4096,
      after.read cell = (Write.bytesAt writes cell).getLastD (p.machine.memory.read cell) ∧
      ((p.machine.memory.read cell).toNat : Int) = setup.initialCell cell) ∧
    (∀ (m : Machine) command w, m.write? command = some w ↔ m.Writes command w) ∧
    (∀ (m : Machine) decoded next, m.step = .ok (decoded, next) → 4096 ≤ m.index.toNat →
      next.memory = m.memory) ∧
    ((∀ w ∈ writes, 0x50 ≤ w.start) →
      ∀ cell : Fin 4096, cell.val < 0x50 → font[cell.val]? = some (after.read cell)) := by
  intro writes after
  have hmachine : setup.machine = .ok p.machine := by
    obtain ⟨machine, hmachine, hp⟩ := (Machine.bind_ok_iff _ _ _).mp hcreate
    obtain rfl := Except.ok.inj hp
    exact hmachine
  have hafter : after = p.machine.memory.writeAll writes := by
    rw [← p.machine.performAll_memory hreset, ← p.performAll_machine]
  have hcells (cell : Fin 4096) :
      after.read cell = (Write.bytesAt writes cell).getLastD (p.machine.memory.read cell) := by
    rw [hafter, Memory.read_writeAll]
  refine ⟨?_, Machine.write?_eq_some_iff, ?_, ?_⟩
  · exact fun cell => ⟨hcells cell, Setup.read_memory_of_machine hmachine cell⟩
  · intro m decoded next hstep hend
    exact Machine.step_memory_of_end_le hstep hend
  · intro hbehind cell hcell
    have hkept : after.read cell = p.machine.memory.read cell := by
      rw [hcells, Write.bytesAt_of_lt fun w hw => Nat.lt_of_lt_of_le hcell (hbehind w hw)]
      rfl
    have hfont : cell.val < font.length := hcell
    have hinitial := Setup.read_memory_of_machine hmachine cell
    rw [Setup.initialCell, List.getElem?_eq_getElem hfont, Int.natCast_inj,
      UInt8.toNat_inj] at hinitial
    rw [List.getElem?_eq_getElem hfont, hkept, hinitial]

/-- A program that takes V0 apart at the end of the memory, stores registers far
behind it, and then stores V0 in the last cell. -/
theorem digits_run_over_the_end :
    let setup : Setup := { registers := some (0x7B :: List.replicate 15 0), index := some 0xFFE }
    let program : List UInt8 := [0xF0, 0x33, 0xF0, 0x1E, 0xF2, 0x55, 0xAF, 0xFF, 0xF0, 0x55]
    let commands : List Command := [.load program 0x200, .step, .step, .tick, .step, .step, .step]
    ∃ p, create setup {} = .ok p ∧
      p.machine.writes commands =
        [⟨0x200, program⟩, ⟨0xFFE, [1, 2, 3]⟩, ⟨0x1079, [0x7B, 0, 0]⟩, ⟨0xFFF, [0x7B]⟩] ∧
      (p.performAll commands).machine.memory.read 0xFFE = 1 ∧
      (p.performAll commands).machine.memory.read 0xFFF = 0x7B ∧
      font[0]? = some ((p.performAll commands).machine.memory.read 0) := by
  intro setup program commands
  obtain ⟨p, hcreate, hwrites⟩ : ∃ p, create setup {} = .ok p ∧ p.machine.writes commands =
      [⟨0x200, program⟩, ⟨0xFFE, [1, 2, 3]⟩, ⟨0x1079, [0x7B, 0, 0]⟩, ⟨0xFFF, [0x7B]⟩] :=
    ⟨_, rfl, by decide +kernel⟩
  obtain ⟨hcells, _, _, hfont⟩ := memory_holds_last_writes hcreate commands (by simp [commands])
  rw [hwrites] at hcells hfont
  exact ⟨p, hcreate, hwrites, (hcells 0xFFE).1, (hcells 0xFFF).1, hfont (by simp) 0 (by decide)⟩

end Processor

end Chip8VM
