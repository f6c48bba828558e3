import Chip8VM.Proofs.Machine.Registers
import Chip8VM.Proofs.Processor.Command
import Mathlib.Data.Nat.Bitwise

/-!
The operations on two registers, as arithmetic of whole numbers. Both operands are
read before anything is written, so it makes no difference whether they are the same
register or the flag. If the result goes to the flag register, an operation that
reports a carry or a borrow loses it there, and a shift shifts what it reports.
-/

namespace Chip8VM

def LogicOp.onNumbers : LogicOp → Nat → Nat → Nat
  | assign, _, b => b
  | or, a, b => a ||| b
  | and, a, b => a &&& b
  | xor, a, b => a ^^^ b

theorem LogicOp.toNat_apply (op : LogicOp) (a b : UInt8) :
    (op.apply a b).toNat = op.onNumbers a.toNat b.toNat := by
  cases op with
  | assign => rfl
  | or => exact UInt8.toNat_or a b
  | and => exact UInt8.toNat_and a b
  | xor => exact UInt8.toNat_xor a b

/-- The result and the flag that an operation yields for two numbers below 256. -/
def ArithmeticOp.Yields : ArithmeticOp → (a b result flag : Nat) → Prop
  | add, a, b, result, flag => a + b = result + 256 * flag
  | sub, a, b, result, flag =>
      (result : Int) = ((a : Int) - b) % 256 ∧ flag = if a > b then 1 else 0
  | subFrom, a, b, result, flag =>
      (result : Int) = ((b : Int) - a) % 256 ∧ flag = if b > a then 1 else 0

theorem toNat_sub_eq_emod (a b : UInt8) :
    ((a - b).toNat : Int) = ((a.toNat : Int) - b.toNat) % 256 := by
  have ha := a.toNat_lt
  have hb := b.toNat_lt
  rw [UInt8.toNat_sub]
  omega

theorem toNat_flag (condition : Prop) [Decidable condition] :
    (if condition then (1 : UInt8) else 0).toNat = if condition then 1 else 0 :=
  apply_ite UInt8.toNat condition 1 0

theorem ArithmeticOp.yields_apply (op : ArithmeticOp) (a b : UInt8) :
    op.Yields a.toNat b.toNat (op.apply a b).1.toNat (op.apply a b).2.toNat := by
  cases op with
  | add =>
      have ha := a.toNat_lt
      have hb := b.toNat_lt
      simp only [Yields, apply, toNat_flag, UInt8.toNat_add]
      split
      next hcarry => omega
      next hnone => omega
  | sub =>
      refine ⟨toNat_sub_eq_emod a b, ?_⟩
      simp only [apply, toNat_flag, gt_iff_lt, UInt8.lt_iff_toNat_lt]
  | subFrom =>
      refine ⟨toNat_sub_eq_emod b a, ?_⟩
      simp only [apply, toNat_flag, gt_iff_lt, UInt8.lt_iff_toNat_lt]

/-- The result and the flag that a shift yields for a number below 256. -/
def ShiftDirection.Yields : ShiftDirection → (a result flag : Nat) → Prop
  | right, a, result, flag => a = 2 * result + flag ∧ flag ≤ 1
  | left, a, result, flag => 2 * a = result + 256 * flag

namespace ShiftDirection

theorem toNat_apply_right (a : UInt8) : (right.apply a).toNat = a.toNat / 2 := by
  rw [apply, UInt8.toNat_shiftRight, Nat.shiftRight_eq_div_pow]
  rfl

theorem toNat_apply_left (a : UInt8) : (left.apply a).toNat = 2 * a.toNat % 256 := by
  rw [apply, UInt8.toNat_shiftLeft, Nat.shiftLeft_eq, Nat.mul_comm]
  rfl

theorem toNat_lost_right (a : UInt8) : (right.lost a).toNat = a.toNat % 2 := by
  rw [lost, UInt8.toNat_and, UInt8.toNat_one, Nat.and_one_is_mod]

theorem toNat_lost_left (a : UInt8) : (left.lost a).toNat = a.toNat / 128 := by
  rw [lost, UInt8.toNat_shiftRight, Nat.shiftRight_eq_div_pow]
  rfl

theorem yields_apply (direction : ShiftDirection) (a : UInt8) :
    direction.Yields a.toNat (direction.apply a).toNat (direction.lost a).toNat := by
  have ha := a.toNat_lt
  cases direction with
  | right =>
      rw [toNat_apply_right, toNat_lost_right]
      simp only [Yields]
      omega
  | left =>
      rw [toNat_apply_left, toNat_lost_left]
      simp only [Yields]
      omega

end ShiftDirection

namespace Machine

variable (m : Machine) (x y : Register) (value flag : UInt8)

theorem register_setWithFlag_self : (m.setWithFlag x value flag).register x = value :=
  register_setRegister_self _ x value

theorem flag_setWithFlag (hx : x ≠ flagRegister) :
    (m.setWithFlag x value flag).register flagRegister = flag := by
  rw [setWithFlag, register_setRegister_of_ne _ hx.symm, register_setRegister_self]

theorem setsOnly_setWithFlag :
    m.SetsOnly [x, flagRegister] (m.setWithFlag x value flag).next where
  kept k hk := by
    simp only [List.mem_cons, List.not_mem_nil, or_false, not_or] at hk
    rw [register_next, setWithFlag, register_setRegister_of_ne _ hk.1,
      register_setRegister_of_ne _ hk.2]
  pc := toNat_pc_next (m.setWithFlag x value flag)
  others := rfl

/-- If the flag register is the target, its value is all that is left of the flag and the
result. -/
theorem setsOnly_setWithFlag_flag :
    m.SetsOnly [flagRegister] (m.setWithFlag flagRegister value flag).next where
  kept k hk := (m.setsOnly_setWithFlag flagRegister value flag).kept k (by simpa using hk)
  pc := toNat_pc_next (m.setWithFlag flagRegister value flag)
  others := rfl

theorem shift_eq (direction : ShiftDirection) (hx : x ≠ flagRegister) :
    m.shift direction x =
      m.setWithFlag x (direction.apply (m.register x)) (direction.lost (m.register x)) := by
  rw [shift, register_setRegister_of_ne _ hx]
  rfl

theorem shift_flag_eq (direction : ShiftDirection) :
    m.shift direction flagRegister =
      m.setWithFlag flagRegister
        (direction.apply (direction.lost (m.register flagRegister)))
        (direction.lost (m.register flagRegister)) := by
  rw [shift, register_setRegister_self]
  rfl

/-- If the target is the flag register, the sum takes the place of its carry, and is taken back
all the same. -/
theorem sub_restores_after_add (hxy : x ≠ y) (hy : y ≠ flagRegister) :
    (((m.arithmetic .add x y).next.arithmetic .sub x y).next).register x = m.register x := by
  have hsum : (m.arithmetic .add x y).next.register x = m.register x + m.register y :=
    m.register_setWithFlag_self x _ _
  have hother : (m.arithmetic .add x y).next.register y = m.register y :=
    (m.setsOnly_setWithFlag x _ _).kept y (by simp [hxy.symm, hy])
  change ((m.arithmetic .add x y).next.setWithFlag x _ _).register x = _
  rw [register_setWithFlag_self, hsum, hother]
  exact UInt8.add_sub_cancel _ _

/-- The operations on registers agree with the arithmetic of whole numbers, for any two
registers, which may be the same. Nothing changes but the target, the flag register for
operations that report a flag, and the program counter. In the flag register the result
of an operation takes the place of its flag; there a shift to the right leaves nothing,
and a shift to the left twice the bit it has pushed out. A difference takes back a sum
if the second register is neither the first one nor the flag. -/
theorem operations_agree_with_numbers (m : Machine) (x y : Register) :
    let a := (m.register x).toNat
    let b := (m.register y).toNat
    (∀ op : LogicOp, ∃ after, m.execute (.logic op x y) = .ok after ∧ m.SetsOnly [x] after ∧
      (after.register x).toNat = op.onNumbers a b) ∧
    (x ≠ flagRegister →
      (∀ op : ArithmeticOp, ∃ after, m.execute (.arithmetic op x y) = .ok after ∧
        m.SetsOnly [x, flagRegister] after ∧
        op.Yields a b (after.register x).toNat (after.register flagRegister).toNat) ∧
      ∀ direction : ShiftDirection, ∃ after, m.execute (.shift direction x) = .ok after ∧
        m.SetsOnly [x, flagRegister] after ∧
        direction.Yields a (after.register x).toNat (after.register flagRegister).toNat) ∧
    (x = flagRegister →
      (∀ op : ArithmeticOp, ∃ after flag, m.execute (.arithmetic op x y) = .ok after ∧
        m.SetsOnly [flagRegister] after ∧
        op.Yields a b (after.register flagRegister).toNat flag) ∧
      (∃ after, m.execute (.shift .right x) = .ok after ∧ m.SetsOnly [flagRegister] after ∧
        (after.register flagRegister).toNat = 0) ∧
      ∃ after, m.execute (.shift .left x) = .ok after ∧ m.SetsOnly [flagRegister] after ∧
        (after.register flagRegister).toNat = 2 * (a / 128)) ∧
    (x ≠ y → y ≠ flagRegister →
      ∃ sum difference, m.execute (.arithmetic .add x y) = .ok sum ∧
        sum.execute (.arithmetic .sub x y) = .ok difference ∧
        difference.register x = m.register x) := by
  intro a b
  refine ⟨?_, ?_, ?_, ?_⟩
  · intro op
    refine ⟨_, rfl, m.setsOnly_setRegister x _, ?_⟩
    rw [register_next, logic, register_setRegister_self, op.toNat_apply]
  · intro hx
    constructor
    · intro op
      refine ⟨_, rfl, m.setsOnly_setWithFlag x _ _, ?_⟩
      rw [register_next, register_next, arithmetic, register_setWithFlag_self,
        flag_setWithFlag _ _ _ _ hx]
      exact op.yields_apply _ _
    · intro direction
      refine ⟨_, rfl, ?_⟩
      rw [m.shift_eq x direction hx, register_next, register_next, register_setWithFlag_self,
        flag_setWithFlag _ _ _ _ hx]
      exact ⟨m.setsOnly_setWithFlag x _ _, direction.yields_apply _⟩
  · rintro rfl
    refine ⟨?_, ?_, ?_⟩
    · intro op
      let result := op.apply (m.register flagRegister) (m.register y)
      refine ⟨_, result.2.toNat, rfl, m.setsOnly_setWithFlag_flag result.1 result.2, ?_⟩
      rw [register_next, arithmetic, register_setWithFlag_self]
      exact op.yields_apply _ _
    · refine ⟨_, rfl, ?_⟩
      rw [m.shift_flag_eq, register_next, register_setWithFlag_self]
      refine ⟨m.setsOnly_setWithFlag_flag _ _, ?_⟩
      rw [ShiftDirection.toNat_apply_right, ShiftDirection.toNat_lost_right]
      omega
    · refine ⟨_, rfl, ?_⟩
      rw [m.shift_flag_eq, register_next, register_setWithFlag_self]
      refine ⟨m.setsOnly_setWithFlag_flag _ _, ?_⟩
      have ha := (m.register flagRegister).toNat_lt
      rw [ShiftDirection.toNat_apply_left, ShiftDirection.toNat_lost_left]
      omega
  · intro hxy hy
    exact ⟨_, _, rfl, rfl, m.sub_restores_after_add x y hxy hy⟩

/-- The flag register as the second operand of a sum, as the target of a shift, and as the target
of a sum that is taken back. -/
theorem flag_added_shifted_and_restored :
    let m : Machine :=
      { Machine.holding [] with
        registers := ((Vector.replicate 16 0).set 1 0xC8).set 15 0x81 }
    (∃ after, m.execute (.arithmetic .add 1 flagRegister) = .ok after ∧
      (after.register 1).toNat = 73 ∧ (after.register flagRegister).toNat = 1) ∧
    (∃ after, m.execute (.shift .left flagRegister) = .ok after ∧
      (after.register flagRegister).toNat = 2 ∧ after.register 1 = 0xC8) ∧
    ∃ sum difference, m.execute (.arithmetic .add flagRegister 1) = .ok sum ∧
      sum.execute (.arithmetic .sub flagRegister 1) = .ok difference ∧
      difference.register flagRegister = 0x81 := by
  intro m
  obtain ⟨hone, hflag⟩ : m.register 1 = 0xC8 ∧ m.register flagRegister = 0x81 := by
    decide +kernel
  obtain ⟨_, hregister, _, _⟩ := operations_agree_with_numbers m 1 flagRegister
  obtain ⟨_, _, htarget, hrestored⟩ := operations_agree_with_numbers m flagRegister 1
  refine ⟨?_, ?_, ?_⟩
  · obtain ⟨after, hafter, _, hsum⟩ := (hregister (by decide)).1 .add
    rw [hone, hflag] at hsum
    have hbyte := (after.register 1).toNat_lt
    have hyields : 0xC8 + 0x81 =
        (after.register 1).toNat + 256 * (after.register flagRegister).toNat := hsum
    exact ⟨after, hafter, by omega, by omega⟩
  · obtain ⟨after, hafter, honly, hshifted⟩ := (htarget rfl).2.2
    rw [hflag] at hshifted
    exact ⟨after, hafter, hshifted, (honly.kept 1 (by decide)).trans hone⟩
  · obtain ⟨sum, difference, hsum, hdifference, hback⟩ := hrestored (by decide) (by decide)
    exact ⟨sum, difference, hsum, hdifference, hback.trans hflag⟩

end Machine

end Chip8VM
