import Chip8VM.Proofs.Machine.Halting
import Chip8VM.Proofs.Processor.Command
import Mathlib.Control.Monad.Basic

/-!
Subroutines. Of all instructions only a call and a return touch the stack, and
of all commands, apart from a reset, only a step does. So the oldest addresses
stay where they are for as long as the stack is at least as deep as they are
many, and the return that ends a subroutine finds what its call has left there.
-/

namespace Chip8VM

open Processor (Command)

namespace Machine

/-- The stack after an instruction: as it was, or longer by the address behind
a call, or shorter by the address that a return has gone to. -/
theorem execute_stack {m after : Machine} {instruction : Instruction}
    (hexecute : m.execute instruction = .ok after) :
    after.stack = m.stack ∨
    (∃ target, instruction = .call target ∧ after.stack = m.stack.push (m.pc + 2)) ∨
    (instruction = .ret ∧ m.stack.pop? = some (after.pc, after.stack)) := by
  cases instruction with
  | ret =>
      obtain ⟨address, rest, hpop, rfl⟩ := (m.ret_eq_ok_iff after).mp hexecute
      exact .inr (.inr ⟨rfl, hpop⟩)
  | call target =>
      obtain rfl := Except.ok.inj hexecute
      exact .inr (.inl ⟨target, rfl, rfl⟩)
  | waitKey x =>
      obtain rfl := Except.ok.inj hexecute
      obtain hstay | ⟨key, hgo⟩ := m.awaitKey_cases x
      · exact .inl (by rw [hstay])
      · exact .inl (by rw [hgo]; rfl)
  | _ =>
      obtain rfl := Except.ok.inj hexecute
      left
      simp only [next, advance, skipIf, jump, setRegister, setWithFlag, logic, arithmetic, shift,
        draw, drawRandom, storeAtIndex, loadRegisters]

theorem perform_stack (m : Machine) {command : Command}
    (hreset : ∀ setup, command ≠ .reset setup) :
    (m.perform command).2.stack.toList = m.stack.toList ∨
    (∃ address, (m.perform command).2.stack.toList = m.stack.toList ++ [address]) ∨
    (m.perform command).2.stack.toList = m.stack.toList.dropLast := by
  have heffect := m.perform_effect command
  generalize (m.perform command).1 = answer at heffect
  generalize (m.perform command).2 = after at heffect ⊢
  cases heffect with
  | executed hstep =>
      obtain ⟨_, hexecute⟩ := (m.step_eq_ok_iff _ _).mp hstep
      rcases execute_stack hexecute with hsame | ⟨_, _, hpush⟩ | ⟨_, hpop⟩
      · exact .inl (by rw [hsame])
      · exact .inr (.inl ⟨m.pc + 2, by rw [hpush, CallStack.toList_push]⟩)
      · exact .inr (.inr (by rw [CallStack.toList_pop? hpop, List.dropLast_concat]))
  | reset _ => exact absurd rfl (hreset _)
  | _ => exact .inl rfl

/-- One command leaves a frame of oldest addresses alone, unless it makes the
stack shorter than the frame. -/
theorem perform_keeps_frame (m : Machine) {command : Command} {frame : List Address}
    (hreset : ∀ setup, command ≠ .reset setup) (hframe : frame <+: m.stack.toList)
    (hdeep : frame.length ≤ (m.perform command).2.stack.depth) :
    frame <+: (m.perform command).2.stack.toList := by
  rw [← CallStack.length_toList] at hdeep
  rcases m.perform_stack hreset with hsame | ⟨address, hlonger⟩ | hshorter
  · rwa [hsame]
  · rw [hlonger]
    exact hframe.trans (List.prefix_append _ _)
  · rw [hshorter] at hdeep ⊢
    exact List.prefix_of_prefix_length_le hframe (List.dropLast_prefix _) hdeep

/-- The same for a whole run, during which the stack never becomes shorter than
the frame. -/
theorem performAll_keeps_frame (m : Machine) {commands : List Command} {frame : List Address}
    (hreset : ∀ command ∈ commands, ∀ setup, command ≠ .reset setup)
    (hframe : frame <+: m.stack.toList)
    (hdeep : ∀ n ≤ commands.length,
      frame.length ≤ (m.performAll (commands.take n)).stack.depth) :
    frame <+: (m.performAll commands).stack.toList := by
  induction commands generalizing m with
  | nil => exact hframe
  | cons command rest ih =>
      have hfirst := hdeep 1 (by simp)
      have hkept := m.perform_keeps_frame (hreset command (by simp)) hframe hfirst
      apply ih (m.perform command).2 (fun other hother => hreset other (by simp [hother])) hkept
      intro n hn
      exact hdeep (n + 1) (by simpa using hn)

theorem perform_call {m : Machine} {decoded : Decoded} {target : Address}
    (hdecode : decode m.fetch = .ok decoded) (hcall : decoded.instruction = .call target) :
    (m.perform .step).2.stack.toList = m.stack.toList ++ [m.pc + 2] := by
  have hexecute : m.execute decoded.instruction =
      .ok ({ m with stack := m.stack.push (m.pc + 2) }.jump target) := by
    rw [hcall]
    rfl
  have hstep := (m.step_eq_ok_iff _ _).mpr ⟨hdecode, hexecute⟩
  simp only [perform, hstep]
  exact CallStack.toList_push m.stack (m.pc + 2)

theorem perform_return {m : Machine} {decoded : Decoded}
    (hanswer : (m.perform .step).1 = .ok (.executed decoded)) (hret : decoded.instruction = .ret) :
    m.stack.toList = (m.perform .step).2.stack.toList ++ [(m.perform .step).2.pc] := by
  have heffect := m.perform_effect .step
  rw [hanswer] at heffect
  generalize (m.perform .step).2 = after at heffect ⊢
  cases heffect with
  | executed hstep =>
      obtain ⟨_, hexecute⟩ := (m.step_eq_ok_iff _ _).mp hstep
      rw [hret] at hexecute
      obtain ⟨address, rest, hpop, rfl⟩ := (m.ret_eq_ok_iff after).mp hexecute
      exact CallStack.toList_pop? hpop

end Machine

namespace Processor

/-- A subroutine returns to its caller. It is called in the state `p`; then come
any commands but resets, between which the stack is always deeper than it was
before the call; and then a return brings the stack back to its old depth. That
return goes on behind the call, and leaves the stack as the call has found it. -/
theorem return_restores_caller (p : Processor) (target : Address) (body : List Command)
    (hcall : ∃ decoded, decode p.machine.fetch = .ok decoded ∧
      decoded.instruction = .call target)
    (hreset : ∀ command ∈ body, ∀ setup, command ≠ .reset setup)
    (hdeep : ∀ n ≤ body.length,
      p.machine.stack.depth < (p.performAll (.step :: body.take n)).machine.stack.depth)
    (hreturn : ∃ decoded,
      ((p.performAll (.step :: body)).perform .step).1 = .ok (.executed decoded) ∧
      decoded.instruction = .ret)
    (hdepth : (p.performAll (.step :: body ++ [.step])).machine.stack.depth =
      p.machine.stack.depth) :
    let returned := (p.performAll (.step :: body ++ [.step])).machine
    returned.pc.toNat = (p.machine.pc.toNat + 2) % 0x10000 ∧
    returned.stack.toList = p.machine.stack.toList := by
  intro returned
  obtain ⟨called, hdecode, htarget⟩ := hcall
  obtain ⟨returning, hanswer, hret⟩ := hreturn
  let inside := p.machine.performAll (.step :: body)
  let frame := p.machine.stack.toList ++ [p.machine.pc + 2]
  have hsize : frame.length = p.machine.stack.depth + 1 := by
    simp [frame]
  have hinside : (p.performAll (.step :: body)).machine = inside := p.performAll_machine _
  have hreturned : returned = (inside.perform .step).2 := by
    rw [← hinside, ← (perform_machine _ .step).2]
    exact congrArg Processor.machine (p.performAll_append (.step :: body) [.step])
  -- The frame lies at the bottom of the stack right after the call, and stays there.
  have hframe : frame <+: inside.stack.toList := by
    apply Machine.performAll_keeps_frame _ hreset
    · exact (Machine.perform_call hdecode htarget).symm ▸ List.prefix_refl _
    · intro n hn
      have hlonger := hdeep n hn
      rw [p.performAll_machine] at hlonger
      rw [hsize]
      exact hlonger
  have hpopped : inside.stack.toList = returned.stack.toList ++ [returned.pc] := by
    rw [hreturned]
    apply Machine.perform_return _ hret
    rw [← hinside, ← (perform_machine _ .step).1]
    exact hanswer
  have hlength : frame.length = inside.stack.toList.length := by
    rw [hsize, hpopped, List.length_append, CallStack.length_toList, ← hdepth]
    rfl
  have hsame : frame = inside.stack.toList := hframe.eq_of_length hlength
  rw [hpopped] at hsame
  obtain ⟨hstack, haddress⟩ := List.append_inj' hsame rfl
  have hpc : returned.pc = p.machine.pc + 2 := (List.cons.inj haddress).1.symm
  exact ⟨by rw [hpc]; simp, hstack.symm⟩

/-- A subroutine that calls another one, while a timer ticks, a key is pressed
and the last instruction is written over with itself. -/
theorem nested_subroutine_returns :
    let program : List UInt8 := [0x22, 0x04, 0x00, 0xE0, 0x22, 0x08, 0x00, 0xEE, 0x00, 0xEE]
    let p := ofMachine (Machine.holding program) {}
    let body : List Command := [.step, .tick, .press 5, .load [0x00, 0xEE] 0x206, .step]
    let returned := (p.performAll (.step :: body ++ [.step])).machine
    returned.pc.toNat = 0x202 ∧ returned.stack.toList = [] := by
  intro program p body
  have hdecode : decode p.machine.fetch = .ok ⟨0x2204, .call 0x204⟩ := by decide +kernel
  have hdeep : ∀ n ≤ body.length,
      p.machine.stack.depth < (p.performAll (.step :: body.take n)).machine.stack.depth := by
    simp only [performAll_machine]
    decide +kernel
  have hanswer : ((p.performAll (.step :: body)).perform .step).1 =
      .ok (.executed ⟨0x00EE, .ret⟩) := by
    rw [(perform_machine _ .step).1, performAll_machine]
    decide +kernel
  have hdepth : (p.performAll (.step :: body ++ [.step])).machine.stack.depth =
      p.machine.stack.depth := by
    rw [performAll_machine]
    decide +kernel
  have hempty : p.machine.stack = CallStack.empty := rfl
  obtain ⟨hpc, hstack⟩ := return_restores_caller p 0x204 body ⟨_, hdecode, rfl⟩
    (by simp [body]) hdeep ⟨_, hanswer, rfl⟩ hdepth
  constructor
  · rw [hpc]
    decide +kernel
  · rw [hstack, hempty, CallStack.toList_empty]

end Processor

end Chip8VM
