import Chip8VM.Pacing.Quantity
import Chip8VM.Proofs.Number.Arithmetic

/-!
Integers and floating-point numbers. An integer of few significant bits is a floating-point
number, and the integer part of a floating-point number is such an integer; so when the
integer part is taken off a number, only the difference is rounded.
-/

namespace Chip8VM

open Float.Model Float.Model.UnpackedFloat
open Rounding

/-- A natural number whose significant bits are at most 53. -/
def Short (n : ℕ) : Prop := ∃ m k, m < 2 ^ 53 ∧ n = m * 2 ^ k

namespace Binary64

theorem nearestNat_of_short {n : ℕ} (hshort : Short n) : nearestNat n = n := by
  obtain ⟨m, k, hm, hn⟩ := hshort
  rcases Nat.eq_zero_or_pos n with rfl | hpos
  · exact nearestNat_of_lt (by norm_num)
  · have hexcess : n.log2 - 52 ≤ k := by
      have hlog : n.log2 < 53 + k := by
        rw [Nat.log2_lt hpos.ne', hn, pow_add]
        exact Nat.mul_lt_mul_of_pos_right hm (by positivity)
      omega
    obtain ⟨c, hc⟩ : 2 ^ (n.log2 - 52) ∣ n := by
      have hdvd : 2 ^ (n.log2 - 52) ∣ m * 2 ^ k := (pow_dvd_pow 2 hexcess).mul_left m
      rwa [← hn] at hdvd
    rw [nearestNat]
    generalize n.log2 - 52 = excess at hc
    have hden : 0 < 2 ^ excess := by positivity
    rw [roundDiv, Nat.shiftLeft_eq, Nat.shiftLeft_eq, one_mul, hc, Nat.mul_mod_right,
      Nat.mul_div_cancel_left c hden, if_pos (by omega), mul_comm]

theorem nearestInt_of_short {c : ℤ} (hshort : Short c.natAbs) : nearestInt c = c := by
  cases c with
  | ofNat n => exact congrArg Int.ofNat (nearestNat_of_short hshort)
  | negSucc n => exact congrArg (fun k : ℕ => -(k : ℤ)) (nearestNat_of_short hshort)

/-- A mantissa shifted to its place is a short integer, not larger than the number and by less
than one smaller. -/
theorem shift_near {m : ℕ} (hm : m < 2 ^ 53) (q : ℤ) {cut : ℕ}
    (hcut : m <<< q.toNat >>> (-q).toNat = cut) :
    Short cut ∧ (cut : ℚ) ≤ m * 2 ^ q ∧ (m : ℚ) * 2 ^ q < cut + 1 := by
  rcases le_or_gt 0 q with hpos | hneg
  · have hshift : (-q).toNat = 0 := by omega
    have hpow : (2 : ℚ) ^ q = 2 ^ q.toNat := by
      rw [← zpow_natCast, Int.toNat_of_nonneg hpos]
    rw [hshift, Nat.shiftRight_zero, Nat.shiftLeft_eq] at hcut
    rw [hpow, ← hcut]
    push_cast
    exact ⟨⟨m, q.toNat, hm, rfl⟩, le_rfl, lt_add_one _⟩
  · have hshift : q.toNat = 0 := by omega
    have hpow : (2 : ℚ) ^ q = (2 ^ (-q).toNat)⁻¹ := by
      rw [← zpow_natCast, Int.toNat_of_nonneg (by omega), zpow_neg, inv_inv]
    have hden : (0 : ℚ) < 2 ^ (-q).toNat := by positivity
    rw [hshift, Nat.shiftLeft_zero, Nat.shiftRight_eq_div_pow] at hcut
    rw [hpow, ← div_eq_mul_inv, le_div_iff₀ hden, div_lt_iff₀ hden, ← hcut]
    refine ⟨⟨m / 2 ^ (-q).toNat, 0, (Nat.div_le_self _ _).trans_lt hm, by simp⟩, ?_, ?_⟩
    · exact_mod_cast Nat.div_mul_le_self m _
    · exact_mod_cast Nat.lt_mul_of_div_lt (Nat.lt_succ_self _) (by positivity)

theorem signed_eq_apply (sign : Sign) (n : ℕ) : signed (sign == .negative) n = sign.apply n := by
  cases sign <;> rfl

/-- A finite number has an integer part, which is short and lies between zero and the
number. -/
theorem measure_of_isFinite {x : Float} (hx : x.isFinite = true) :
    ∃ c : ℤ, (ofFloat x).measure = .ok c ∧ Short c.natAbs ∧ |(c : ℚ)| ≤ |exact x| ∧
      |exact x - c| ≤ 1 := by
  obtain ⟨hcanonical, -⟩ := canonical_unpack hx
  rw [ofFloat_eq, exact]
  cases hunpack : x.toModel.unpack with
  | infinity => exact (hunpack ▸ hcanonical).elim
  | notANumber => exact (hunpack ▸ hcanonical).elim
  | zero sign =>
      refine ⟨0, ?_, ⟨0, 0, by norm_num, rfl⟩, by simp [value_zero], by simp [value_zero]⟩
      cases sign <;> rfl
  | finite sign m q hm =>
      rw [hunpack] at hcanonical
      obtain ⟨hshort, hbelow, habove⟩ := shift_near hcanonical.1 q rfl
      generalize hcut : m <<< q.toNat >>> (-q).toNat = cut at hshort hbelow habove
      refine ⟨sign.apply cut, ?_, ?_, ?_, ?_⟩
      · rw [ofUnpacked, measure, integerPart, hcut, signed_eq_apply]
      · cases sign <;> simpa [Sign.apply] using hshort
      · rw [abs_apply, abs_value]
        exact hbelow
      · have hdifference : value (.finite sign m q hm) - (sign.apply cut : ℤ) =
            (sign.apply 1 : ℤ) * (m * 2 ^ q - cut) := by
          cases sign <;> simp [value, Sign.apply]; ring
        have hunit : |((sign.apply 1 : ℤ) : ℚ)| = 1 := by simpa using abs_apply sign 1
        rw [hdifference, abs_mul, hunit, one_mul, abs_of_nonneg (by linarith)]
        linarith

end Binary64

namespace Rounding

theorem rounded_toFloat {n : ℕ} (hn : n < 2 ^ 53) : Rounded n n.toUInt64.toFloat := by
  have hword : n.toUInt64.toNat = n := Nat.mod_eq_of_lt (by omega)
  have hround : RoundsTo n
      (UnpackedFloat.normalize Format.binary64 n.toUInt64.toNat 0 .positive) := by
    simpa only [hword, Int.cast_natCast, zpow_zero, mul_one] using roundsTo_normalize n 0 .positive
  refine rounded_pack hround ?_
  rw [Nat.abs_cast]
  calc (n : ℚ) ≤ 2 ^ (53 : ℤ) := by exact_mod_cast hn.le
    _ ≤ 2 ^ (1023 : ℤ) := zpow_le_zpow_right₀ one_le_two (by norm_num)

/-- The number one, by which a small natural number is multiplied when it is converted. -/
theorem exact_one : (Float.ofBits 0x3FF0000000000000).isFinite = true ∧
    exact (Float.ofBits 0x3FF0000000000000) = 1 := by
  have hunpack : (Float.ofBits 0x3FF0000000000000).toModel.unpack =
      .finite .positive (2 ^ 52) (-52) (by norm_num) := rfl
  refine ⟨rfl, ?_⟩
  rw [exact, hunpack, value]
  norm_num [Sign.apply]

theorem ofNat_of_lt {n : ℕ} (hn : n < 2 ^ 53) :
    Float.ofNat n = n.toUInt64.toFloat * .ofBits 0x3FF0000000000000 := by
  unfold Float.ofNat
  change Float.ofScientific n false 0 = _
  unfold Float.ofScientific
  rw [dif_pos ⟨hn, by decide⟩]
  rfl

theorem ofNat_of_le {n : ℕ} (hn : 2 ^ 53 ≤ n) :
    Float.ofNat n =
      .ofModel (.pack (roundWithAccuracy Format.binary64 .positive (n <<< 53) (-53) .exact)) := by
  have hpos : n ≠ 0 := by omega
  have hcore : UnpackedFloat.ofScientific Format.binary64 n 0 =
      roundWithAccuracy Format.binary64 .positive (n <<< 53) (-53) .exact := by
    rw [UnpackedFloat.ofScientific, dif_neg hpos, if_neg (by decide), if_neg, if_pos le_rfl]
    · simp only [UnpackedFloat.mul, Int.toNat_zero, pow_zero, mul_one, add_zero]
      rfl
    · have := Int.natCast_nonneg n.log2
      have : (0 : ℤ) < 2 ^ Format.binary64.exponentBits := by positivity
      omega
  unfold Float.ofNat
  change Float.ofScientific n false 0 = _
  unfold Float.ofScientific
  rw [dif_neg (by omega), ← hcore]
  rfl

/-- A natural number is rounded when it is converted. -/
theorem rounded_ofNat {n : ℕ} (hn : (n : ℚ) ≤ 2 ^ (1023 : ℤ)) : Rounded n (Float.ofNat n) := by
  have habs : |(n : ℚ)| ≤ 2 ^ (1023 : ℤ) := (Nat.abs_cast n).trans_le hn
  rcases lt_or_ge n (2 ^ 53) with hlt | hge
  · obtain ⟨hfinite, hone⟩ := exact_one
    have hword := rounded_toFloat hlt
    have hexact : exact n.toUInt64.toFloat = n :=
      hword.roundsTo.faithful n 0 hlt (by norm_num) (by simp)
    have hproduct : exact n.toUInt64.toFloat * exact (.ofBits 0x3FF0000000000000) = n := by
      rw [hexact, hone, mul_one]
    have hround := rounded_mul hword.finite hfinite ((congrArg (|·|) hproduct).trans_le habs)
    rw [hproduct] at hround
    rw [ofNat_of_lt hlt]
    exact hround
  · have hpos : 0 < n <<< 53 := by
      rw [Nat.shiftLeft_eq]
      omega
    have htarget : (-53 : ℤ) ≤ target (n <<< 53) (-53) := by
      have hlog : 53 ≤ (n <<< 53).log2 := by
        rw [Nat.le_log2 hpos.ne', Nat.shiftLeft_eq]
        omega
      exact le_max_of_le_left (by omega)
    have hround := roundsTo_roundWithAccuracy .positive hpos htarget
    have hvalue : ((Sign.positive.apply (n <<< 53 : ℕ) : ℤ) : ℚ) * 2 ^ (-53 : ℤ) = n := by
      rw [Sign.apply, Nat.shiftLeft_eq]
      push_cast
      rw [mul_assoc]
      norm_num
    rw [hvalue] at hround
    rw [ofNat_of_le hge]
    exact rounded_pack hround habs

theorem ofNat_of_short {n : ℕ} (hshort : Short n) (hn : (n : ℚ) ≤ 2 ^ (1023 : ℤ)) :
    (Float.ofNat n).isFinite = true ∧ exact (Float.ofNat n) = n := by
  have hrounded := rounded_ofNat hn
  obtain ⟨m, k, hm, rfl⟩ := hshort
  refine ⟨hrounded.finite, hrounded.roundsTo.faithful m k hm (by omega) ?_⟩
  rw [Nat.abs_cast]
  push_cast
  rw [zpow_natCast]

/-- A short integer that is not too large is a floating-point number. -/
theorem ofInt_of_short {c : ℤ} (hshort : Short c.natAbs) (hc : |(c : ℚ)| ≤ 2 ^ (1023 : ℤ)) :
    (Float.ofInt c).isFinite = true ∧ exact (Float.ofInt c) = c := by
  have hnatAbs : (c.natAbs : ℚ) = |(c : ℚ)| := by rw [Nat.cast_natAbs, Int.cast_abs]
  obtain ⟨hfinite, hexact⟩ := ofNat_of_short hshort (hnatAbs ▸ hc)
  cases c with
  | ofNat n => exact ⟨hfinite, hexact⟩
  | negSucc n =>
      obtain ⟨hfinite', hexact'⟩ := exact_neg hfinite
      exact ⟨hfinite', hexact'.trans (congrArg Neg.neg hexact)⟩

end Rounding

namespace Number

theorem natAbs_lt_of_abs_lt {c : ℤ} {k : ℕ} (hc : |(c : ℚ)| < 2 ^ (k : ℤ)) :
    c.natAbs < 1 <<< k := by
  have hcast : (c.natAbs : ℚ) < (2 ^ k : ℕ) := by
    rwa [Nat.cast_natAbs, Int.cast_abs, Nat.cast_pow, Nat.cast_ofNat, ← zpow_natCast]
  rw [Nat.shiftLeft_eq, one_mul]
  exact_mod_cast hcast

theorem toFloat?_whole {c : ℤ} (hshort : Short c.natAbs) (hc : |(c : ℚ)| ≤ 2 ^ (1023 : ℤ)) :
    (whole c).toFloat? = some (Float.ofInt c) := by
  have hlt : |(c : ℚ)| < 2 ^ ((1024 : ℕ) : ℤ) :=
    hc.trans_lt (zpow_lt_zpow_right₀ one_lt_two (by norm_num))
  have hrange : Binary64.inRange c = true := by
    rw [Binary64.inRange, Binary64.nearestInt_of_short hshort, decide_eq_true_eq]
    exact natAbs_lt_of_abs_lt hlt
  rw [toFloat?, if_pos hrange, Binary64.nearestInt_of_short hshort]

end Number

end Chip8VM
