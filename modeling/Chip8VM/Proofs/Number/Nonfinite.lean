import Chip8VM.Proofs.Number.Whole

/-!
Numbers without an integer part. Infinity and what is no number have none, and all
other floating-point numbers have one; and whatever is added to one of these two,
the sum is one of them again, if it is a number at all.
-/

namespace Chip8VM

open Float.Model Float.Model.UnpackedFloat
open Rounding

namespace Rounding

/-- An exponent of ones only stands for infinity or for what is no number. -/
theorem isFinite_unpack_packComponents (sign : Sign)
    (fraction : BitVec Format.binary64.mantissaBitsWithoutImplicit) :
    (UnpackedFloat.unpack Format.binary64
      (packComponents Format.binary64 sign (-1#_) fraction)).isFinite = false := by
  rw [UnpackedFloat.unpack]
  dsimp only
  rw [unpackExponent_packComponents, if_pos rfl]
  split
  next => rfl
  next => rfl

theorem isFinite_unpack_pack {x : UnpackedFloat} (hx : x.isFinite = false) :
    (Float.Model.pack x).unpack.isFinite = false := by
  cases x with
  | zero sign => cases hx
  | finite sign m e hm => cases hx
  | infinity sign => exact isFinite_unpack_packComponents sign 0
  | notANumber => exact isFinite_unpack_packComponents .positive _

theorem isFinite_add_unpacked {x : UnpackedFloat} (hx : x.isFinite = false) (y : UnpackedFloat) :
    (UnpackedFloat.add Format.binary64 x y).isFinite = false := by
  cases x with
  | zero sign => cases hx
  | finite sign m e hm => cases hx
  | notANumber => rfl
  | infinity sign =>
      cases y with
      | infinity sign' =>
          rw [UnpackedFloat.add]
          split
          next => rfl
          next => rfl
      | _ => rfl

/-- A floating-point number that is not finite stays so whatever is added to it. -/
theorem isFinite_add {x : Float} (hx : x.isFinite = false) (y : Float) :
    (x + y).isFinite = false :=
  isFinite_unpack_pack (isFinite_add_unpacked hx y.toModel.unpack)

end Rounding

theorem Binary64.measure_of_not_isFinite {x : Float} (hx : x.isFinite = false) :
    ∃ reason, (ofFloat x).measure = .error reason := by
  have hunpacked : x.toModel.unpack.isFinite = false := hx
  rw [ofFloat_eq]
  cases hunpack : x.toModel.unpack with
  | notANumber => exact ⟨.undefined, rfl⟩
  | infinity sign => exact ⟨.infinite, rfl⟩
  | zero sign =>
      rw [hunpack] at hunpacked
      cases hunpacked
  | finite sign m e hm =>
      rw [hunpack] at hunpacked
      cases hunpacked

namespace Number

/-- A floating-point number that is infinite or no number. -/
def Nonfinite (a : Number) : Prop := ∃ x : Float, a = .real x ∧ x.isFinite = false

theorem integerPart_of_nonfinite {a : Number} (ha : a.Nonfinite) :
    ∃ reason, a.integerPart = .error reason := by
  obtain ⟨x, rfl, hx⟩ := ha
  exact Binary64.measure_of_not_isFinite hx

/-- Only numbers that are not finite are without an integer part. -/
theorem nonfinite_of_integerPart {a : Number} (hbeyond : a.isBeyond = false) {reason : Unmeasured}
    (hpart : a.integerPart = .error reason) : a.Nonfinite := by
  cases a with
  | whole n => cases hpart
  | beyond => cases hbeyond
  | real x =>
      refine ⟨x, rfl, Bool.eq_false_iff.mpr fun hfinite => ?_⟩
      obtain ⟨c, hmeasure, -⟩ := Binary64.measure_of_isFinite hfinite
      cases hmeasure.symm.trans hpart

/-- Nothing that is added makes a number finite again. -/
theorem nonfinite_add {a : Number} (ha : a.Nonfinite) (b : Number) :
    a + b = .beyond ∨ (a + b).Nonfinite := by
  obtain ⟨x, rfl, hx⟩ := ha
  change rounded (· + ·) (.real x) b = .beyond ∨ (rounded (· + ·) (.real x) b).Nonfinite
  cases hb : b.toFloat? with
  | none =>
      left
      rw [rounded, hb]
      rfl
  | some y =>
      right
      rw [rounded, hb]
      exact ⟨x + y, rfl, isFinite_add hx y⟩

end Number

end Chip8VM
