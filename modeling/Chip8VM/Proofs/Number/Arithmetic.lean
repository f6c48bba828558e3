import Chip8VM.Number
import Chip8VM.Proofs.Number.Rounding

/-!
Floating-point numbers as 64 bits. Those that are finite stand for rational numbers; a
sum, a difference and a product of such numbers is the exact one rounded, as long as
that is not too large.
-/

namespace Chip8VM

open Float.Model Float.Model.UnpackedFloat
open Rounding

namespace Rounding

/-- The number that a sign, an exponent of 11 bits and a fraction of 52 bits stand for. -/
def ofFields (sign : Sign) (exponent fraction : ℕ) : UnpackedFloat :=
  if exponent = 2047 then
    if fraction = 0 then .infinity sign else .notANumber
  else if exponent = 0 then
    if h : fraction = 0 then .zero sign
    else .finite sign fraction (-1074) (Nat.pos_of_ne_zero h)
  else
    .finite sign (2 ^ 52 + fraction) (exponent - 1075)
      (Nat.add_pos_left (Nat.two_pow_pos 52) fraction)

theorem unpack_eq (b : BitVec Format.binary64.numBits) :
    UnpackedFloat.unpack Format.binary64 b =
      ofFields (.ofBitVec (unpackSign b)) (unpackExponent b).toNat (unpackMantissa b).toNat := by
  have hones : unpackExponent b = -1#_ ↔ (unpackExponent b).toNat = 2047 := by
    rw [← BitVec.toNat_inj]
    rfl
  have hnone : unpackExponent b = 0#_ ↔ (unpackExponent b).toNat = 0 := by
    rw [← BitVec.toNat_inj]
    rfl
  have hfraction : unpackMantissa b = 0#_ ↔ (unpackMantissa b).toNat = 0 := by
    rw [← BitVec.toNat_inj]
    rfl
  have hfull : (1#1 ++ unpackMantissa b).toNat = 2 ^ 52 + (unpackMantissa b).toNat := by
    rw [BitVec.toNat_append, ← Nat.shiftLeft_add_eq_or_of_lt (unpackMantissa b).isLt]
    rfl
  rw [UnpackedFloat.unpack]
  simp only [hones, hnone, hfraction, hfull]
  rw [ofFields]
  by_cases hspecial : (unpackExponent b).toNat = 2047
  · rw [if_pos hspecial, if_pos hspecial]
  · rw [if_neg hspecial, if_neg hspecial]
    by_cases hleast : (unpackExponent b).toNat = 0
    · rw [if_pos hleast, if_pos hleast]
      split
      next => rfl
      next => simp only [hleast]; rfl
    · rw [if_neg hleast, if_neg hleast]
      rfl

/-- The sign, the exponent and the fraction are the digits of the number that all bits
make up. -/
theorem toNat_fields (b : BitVec Format.binary64.numBits) :
    (unpackSign b).toNat = b.toNat / 2 ^ 63 % 2 ∧
    (unpackExponent b).toNat = b.toNat / 2 ^ 52 % 2 ^ 11 ∧
    (unpackMantissa b).toNat = b.toNat % 2 ^ 52 := by
  refine ⟨?_, ?_, ?_⟩
  · simp [unpackSign, Nat.shiftRight_eq_div_pow]
  · simp [unpackExponent, Nat.shiftRight_eq_div_pow]
  · simp [unpackMantissa]

/-- Packed components are found again. -/
theorem unpack_packComponents (sign : Sign) {exponent fraction : ℕ} (hexponent : exponent < 2 ^ 11)
    (hfraction : fraction < 2 ^ 52) :
    UnpackedFloat.unpack Format.binary64
        (packComponents Format.binary64 sign (.ofNat _ exponent) (.ofNat _ fraction)) =
      ofFields sign exponent fraction := by
  have hexponent' : (BitVec.ofNat 11 exponent).toNat = exponent := by
    rw [BitVec.toNat_ofNat, Nat.mod_eq_of_lt hexponent]
  have hfraction' : (BitVec.ofNat 52 fraction).toNat = fraction := by
    rw [BitVec.toNat_ofNat, Nat.mod_eq_of_lt hfraction]
  rw [unpack_eq, unpackSign_packComponents, unpackExponent_packComponents,
    unpackMantissa_packComponents, Sign.ofBitVec_toBitVec]
  exact congrArg₂ (ofFields sign) hexponent' hfraction'

theorem mul_zpow_lt {m : ℕ} {e k : ℤ} (hm : m < 2 ^ 53) (hk : 53 + e ≤ k) :
    (m : ℚ) * 2 ^ e < 2 ^ k := by
  have hcast : (m : ℚ) < 2 ^ (53 : ℤ) := by exact_mod_cast hm
  calc (m : ℚ) * 2 ^ e < 2 ^ (53 : ℤ) * 2 ^ e := mul_lt_mul_of_pos_right hcast (zpow_pos two_pos e)
    _ = 2 ^ (53 + e) := (zpow_add₀ two_ne_zero _ _).symm
    _ ≤ 2 ^ k := zpow_le_zpow_right₀ one_le_two hk

theorem canonical_ofFields {sign : Sign} {exponent fraction : ℕ} (hexponent : exponent < 2 ^ 11)
    (hfraction : fraction < 2 ^ 52) (hfinite : (ofFields sign exponent fraction).isFinite = true) :
    Canonical (ofFields sign exponent fraction) ∧
      |value (ofFields sign exponent fraction)| < 2 ^ (1024 : ℤ) := by
  rw [ofFields] at hfinite ⊢
  split at hfinite
  next => split at hfinite <;> cases hfinite
  next hspecial =>
    rw [if_neg hspecial]
    split
    next hleast =>
      split
      next => exact ⟨trivial, by rw [value_zero, abs_zero]; exact zpow_pos two_pos _⟩
      next =>
        refine ⟨⟨by omega, .inr rfl, le_rfl⟩, ?_⟩
        rw [abs_value]
        exact mul_zpow_lt (by omega) (by norm_num)
    next hleast =>
      refine ⟨⟨by omega, .inl (by omega), by omega⟩, ?_⟩
      rw [abs_value]
      exact mul_zpow_lt (by omega) (by omega)

/-- The floats that stand for a rational number are canonical, and not too large. -/
theorem canonical_unpack {x : Float.Model} (hfinite : x.isFinite = true) :
    Canonical x.unpack ∧ |value x.unpack| < 2 ^ (1024 : ℤ) := by
  rw [Float.Model.isFinite, Float.Model.unpack, unpack_eq] at hfinite
  rw [Float.Model.unpack, unpack_eq]
  exact canonical_ofFields (BitVec.isLt _) (BitVec.isLt _) hfinite

theorem exponent_le {sign : Sign} {m : ℕ} {e : ℤ} {hm : 0 < m}
    (hx : Canonical (.finite sign m e hm))
    (hsmall : |value (.finite sign m e hm)| < 2 ^ (1024 : ℤ)) : e ≤ 971 := by
  obtain ⟨-, hfull | rfl, -⟩ := hx
  · rw [abs_value] at hsmall
    have hlog := log2_add_le_of_lt hm hsmall
    have := (Nat.le_log2 hm.ne').mpr hfull
    omega
  · norm_num

/-- A mantissa that has all its bits is packed without the first one. -/
theorem pack_finite (sign : Sign) {m : ℕ} (hm : 0 < m) {e : ℤ} (he : -1074 ≤ e ∧ e ≤ 971) :
    UnpackedFloat.pack Format.binary64 (.finite sign m e hm) =
      if m.log2 + 1 = 53 then
        packComponents Format.binary64 sign (.ofNat _ (e + 1075).toNat) (.ofNat _ m)
      else packComponents Format.binary64 sign (.ofNat _ 0) (.ofNat _ m) := by
  have hbiased : (e + Format.binary64.exponentBias +
      Format.binary64.mantissaBitsWithoutImplicit).toNat = (e + 1075).toNat := by
    change (e + (1023 : ℕ) + (52 : ℕ)).toNat = _
    congr 1
    omega
  simp only [UnpackedFloat.pack, hbiased]
  exact if_neg (by omega)

theorem unpack_pack_finite (sign : Sign) {m : ℕ} (hm : 0 < m) {e : ℤ}
    (hx : Canonical (.finite sign m e hm)) (he : e ≤ 971) :
    UnpackedFloat.unpack Format.binary64
      (UnpackedFloat.pack Format.binary64 (.finite sign m e hm)) = .finite sign m e hm := by
  obtain ⟨hmantissa, hfull, hleast⟩ := hx
  rw [pack_finite sign hm ⟨hleast, he⟩]
  rcases lt_or_ge m (2 ^ 52) with hlow | hhigh
  · have hlog : ¬m.log2 + 1 = 53 := by
      have := (Nat.log2_lt hm.ne').mpr hlow
      omega
    obtain rfl : e = -1074 := hfull.resolve_left hlow.not_ge
    rw [if_neg hlog, unpack_packComponents sign (Nat.two_pow_pos 11) hlow, ofFields,
      if_neg (by norm_num), if_pos rfl, dif_neg hm.ne']
  · have hlog : m.log2 + 1 = 53 := by
      have := (Nat.le_log2 hm.ne').mpr hhigh
      have := (Nat.log2_lt hm.ne').mpr hmantissa
      omega
    have hdrop : BitVec.ofNat 52 m = BitVec.ofNat 52 (m - 2 ^ 52) := by
      apply BitVec.eq_of_toNat_eq
      rw [BitVec.toNat_ofNat, BitVec.toNat_ofNat]
      omega
    rw [if_pos hlog]
    change UnpackedFloat.unpack Format.binary64 (packComponents Format.binary64 sign
      (.ofNat 11 (e + 1075).toNat) (.ofNat 52 m)) = _
    rw [hdrop]
    refine (unpack_packComponents sign (by omega) (by omega)).trans ?_
    have hmantissa' : 2 ^ 52 + (m - 2 ^ 52) = m := by omega
    have hexponent' : ((e + 1075).toNat : ℤ) - 1075 = e := by omega
    rw [ofFields, if_neg (by omega), if_neg (by omega)]
    simp only [hmantissa', hexponent']

/-- Packing loses nothing of a canonical number that is not too large. -/
theorem unpack_pack {x : UnpackedFloat} (hx : Canonical x) (hsmall : |value x| < 2 ^ (1024 : ℤ)) :
    (Float.Model.pack x).unpack = x := by
  cases x with
  | infinity => exact hx.elim
  | notANumber => exact hx.elim
  | zero sign => exact unpack_packComponents sign (Nat.two_pow_pos 11) (Nat.two_pow_pos 52)
  | finite sign m e hm => exact unpack_pack_finite sign hm hx (exponent_le hx hsmall)

/-- The rational number that a float stands for, if it is finite. -/
def exact (x : Float) : ℚ := value x.toModel.unpack

/-- A float is finite, and it is what an exact number is rounded to. -/
structure Rounded (q : ℚ) (x : Float) : Prop where
  finite : x.isFinite = true
  roundsTo : RoundsTo q x.toModel.unpack

theorem isFinite_of_canonical {x : Float} (hx : Canonical x.toModel.unpack) :
    x.isFinite = true := by
  rw [Float.isFinite, Float.Model.isFinite]
  cases hunpack : x.toModel.unpack with
  | infinity => exact (hunpack ▸ hx).elim
  | notANumber => exact (hunpack ▸ hx).elim
  | zero => rfl
  | finite => rfl

theorem rounded_pack {q : ℚ} {x : UnpackedFloat} (hx : RoundsTo q x) (hq : |q| ≤ 2 ^ (1023 : ℤ)) :
    Rounded q (.ofModel (.pack x)) := by
  have hsmall : |value x| < 2 ^ (1024 : ℤ) :=
    (hx.within 1023 (by norm_num) hq).trans_lt (zpow_lt_zpow_right₀ one_lt_two (by norm_num))
  have hrounds : RoundsTo q (Float.Model.pack x).unpack := by
    rwa [unpack_pack hx.canonical hsmall]
  exact ⟨isFinite_of_canonical hrounds.canonical, hrounds⟩

theorem Rounded.abs_exact_le {q : ℚ} {x : Float} (hx : Rounded q x) {k : ℤ} (hk : -1074 ≤ k)
    (hq : |q| ≤ 2 ^ k) : |exact x| ≤ 2 ^ k := hx.roundsTo.within k hk hq

variable {x y : Float}

theorem rounded_add (hx : x.isFinite = true) (hy : y.isFinite = true)
    (hsum : |exact x + exact y| ≤ 2 ^ (1023 : ℤ)) : Rounded (exact x + exact y) (x + y) :=
  rounded_pack (roundsTo_add (canonical_unpack hx).1 (canonical_unpack hy).1) hsum

theorem rounded_sub (hx : x.isFinite = true) (hy : y.isFinite = true)
    (hdifference : |exact x - exact y| ≤ 2 ^ (1023 : ℤ)) :
    Rounded (exact x - exact y) (x - y) :=
  rounded_pack (roundsTo_sub (canonical_unpack hx).1 (canonical_unpack hy).1) hdifference

theorem rounded_mul (hx : x.isFinite = true) (hy : y.isFinite = true)
    (hproduct : |exact x * exact y| ≤ 2 ^ (1023 : ℤ)) : Rounded (exact x * exact y) (x * y) :=
  rounded_pack (roundsTo_mul (canonical_unpack hx).1 (canonical_unpack hy).1) hproduct

theorem exact_neg (hx : x.isFinite = true) : x.neg.isFinite = true ∧ exact x.neg = -exact x := by
  obtain ⟨hcanonical, hsmall⟩ := canonical_unpack hx
  have hunpack := unpack_pack (canonical_neg hcanonical) (by rwa [value_neg, abs_neg])
  have hexact : exact x.neg = -exact x := (congrArg value hunpack).trans (value_neg _)
  exact ⟨isFinite_of_canonical (hunpack ▸ canonical_neg hcanonical), hexact⟩

end Rounding

/-- The sign, the mantissa and the exponent of a floating-point number. -/
def Binary64.ofUnpacked : UnpackedFloat → Binary64
  | .notANumber => .nan
  | .infinity sign => .infinite (sign == .negative)
  | .zero sign => .finite (sign == .negative) 0 (-1074)
  | .finite sign m e _ => .finite (sign == .negative) m e

theorem Binary64.ofFloat_eq (x : Float) : ofFloat x = ofUnpacked x.toModel.unpack := by
  have hbits : x.toBits.toNat = x.toModel.toBits.toBitVec.toNat := rfl
  have hnegative : ∀ bit : BitVec 1, (bit.toNat == 1) = (Sign.ofBitVec bit == .negative) := by
    decide
  obtain ⟨hsign, hexponent, hfraction⟩ := toNat_fields x.toModel.toBits.toBitVec
  rw [ofFloat, ofBits, Float.Model.unpack, unpack_eq, ofFields, hexponent, hfraction, hbits]
  rw [show (0x8000000000000000 : ℕ) = 2 ^ 63 from rfl,
    show (0x10000000000000 : ℕ) = 2 ^ 52 from rfl, show (0x800 : ℕ) = 2 ^ 11 from rfl, ← hsign,
    hnegative]
  split
  next =>
    split
    next => rfl
    next => rfl
  next =>
    split
    next =>
      split
      next hnone => rw [hnone]; rfl
      next => rfl
    next => rfl

end Chip8VM
