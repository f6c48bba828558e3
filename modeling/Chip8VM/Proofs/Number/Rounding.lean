import Mathlib

/-!
What the rounding of a floating-point number is relied on for here: a result is not
larger than a power of two if the exact one is not, and it is the exact one if that
can be represented. Sums, differences and products of canonical numbers are rounded
in this sense, were there no largest number; they are canonical again.
-/

namespace Chip8VM.Rounding

open Float.Model Float.Model.UnpackedFloat

/-- The rational number that a floating-point number stands for, and zero for infinity
and what is no number. -/
def value : UnpackedFloat → ℚ
  | .finite sign m e _ => (sign.apply m : ℤ) * 2 ^ e
  | _ => 0

/-- A number in the form in which it is kept in 64 bits, were there no largest one: the
mantissa has all its 53 bits, unless the exponent is the least one. -/
def Canonical : UnpackedFloat → Prop
  | .zero _ => True
  | .finite _ m e _ => m < 2 ^ 53 ∧ (2 ^ 52 ≤ m ∨ e = -1074) ∧ -1074 ≤ e
  | _ => False

/-- A floating-point number is what an exact number is rounded to. -/
structure RoundsTo (exact : ℚ) (x : UnpackedFloat) : Prop where
  canonical : Canonical x
  within : ∀ k : ℤ, -1074 ≤ k → |exact| ≤ 2 ^ k → |value x| ≤ 2 ^ k
  faithful : ∀ (m : ℕ) (e : ℤ), m < 2 ^ 53 → -1074 ≤ e → |exact| = m * 2 ^ e → value x = exact

theorem abs_apply (sign : Sign) (m : ℕ) : |((sign.apply m : ℤ) : ℚ)| = m := by
  cases sign <;> simp [Sign.apply]

theorem value_zero (sign : Sign) : value (.zero sign) = 0 := rfl

theorem abs_value (sign : Sign) (m : ℕ) (e : ℤ) (hm : 0 < m) :
    |value (.finite sign m e hm)| = m * 2 ^ e := by
  rw [value, abs_mul, abs_apply, abs_of_pos (zpow_pos two_pos e)]

/-- Shifting a mantissa to the right drops its last bits, and the two that are kept
beside it tell whether that has lost anything. -/
theorem shift_mantissa (m k : ℕ) :
    let shifted := ExtendedMantissa.ofMantissaAndAccuracy m .exact >>> k
    shifted.mantissa = m / 2 ^ k ∧
      ((shifted.roundBit || shifted.stickyBit) = true → m / 2 ^ k * 2 ^ k < m) := by
  induction k with
  | zero => simp [HShiftRight.hShiftRight, Nat.repeat, ExtendedMantissa.ofMantissaAndAccuracy]
  | succ k ih =>
      set earlier := ExtendedMantissa.ofMantissaAndAccuracy m .exact >>> k with hearlier
      obtain ⟨hmantissa, hlost⟩ := ih
      have hshift : ExtendedMantissa.ofMantissaAndAccuracy m .exact >>> (k + 1) =
          earlier.shiftRightOne := rfl
      have hdiv : m / 2 ^ (k + 1) = m / 2 ^ k / 2 := by
        rw [Nat.div_div_eq_div_mul, pow_succ]
      have hpow : (2 : ℕ) ^ (k + 1) = 2 * 2 ^ k := by rw [pow_succ, mul_comm]
      have hfloor := Nat.div_mul_le_self m (2 ^ k)
      rw [hshift, hdiv, hpow]
      refine ⟨by rw [ExtendedMantissa.shiftRightOne, hmantissa], fun hbits => ?_⟩
      rw [← mul_assoc]
      simp only [ExtendedMantissa.shiftRightOne, hmantissa, Bool.or_eq_true, bne_iff_ne] at hbits
      rcases hbits with hodd | hsticky
      · calc m / 2 ^ k / 2 * 2 * 2 ^ k < m / 2 ^ k * 2 ^ k :=
              Nat.mul_lt_mul_of_pos_right (by omega) (by positivity)
          _ ≤ m := hfloor
      · calc m / 2 ^ k / 2 * 2 * 2 ^ k ≤ m / 2 ^ k * 2 ^ k :=
              Nat.mul_le_mul_right _ (by omega)
          _ < m := hlost (by simpa using hsticky)

/-- A rounded mantissa is between the mantissa cut off and any bound of the exact one. -/
theorem roundedMantissa_bounds (m k : ℕ) :
    let rounded := (ExtendedMantissa.ofMantissaAndAccuracy m .exact >>> k).roundedMantissa
    m / 2 ^ k ≤ rounded ∧ ∀ c, m ≤ c * 2 ^ k → rounded ≤ c := by
  obtain ⟨hmantissa, hlost⟩ := shift_mantissa m k
  generalize ExtendedMantissa.ofMantissaAndAccuracy m .exact >>> k = shifted at hmantissa hlost ⊢
  obtain ⟨mantissa, roundBit, stickyBit⟩ := shifted
  dsimp only at hmantissa hlost ⊢
  subst hmantissa
  have hcut : ∀ c, m ≤ c * 2 ^ k → m / 2 ^ k ≤ c := fun c hc =>
    Nat.div_le_of_le_mul (by rwa [mul_comm] at hc)
  have hup : (roundBit || stickyBit) = true → ∀ c, m ≤ c * 2 ^ k → m / 2 ^ k + 1 ≤ c :=
    fun hbits c hc => Nat.lt_of_mul_lt_mul_right ((hlost hbits).trans_le hc)
  cases roundBit <;> cases stickyBit <;>
    simp only [ExtendedMantissa.roundedMantissa, ExtendedMantissa.accuracy,
      Accuracy.roundToNearestEven]
  · exact ⟨le_rfl, hcut⟩
  · exact ⟨le_rfl, hcut⟩
  · refine ⟨by omega, fun c hc => ?_⟩
    have := hup rfl c hc
    omega
  · exact ⟨by omega, hup rfl⟩

/-- The exponent that a number is rounded at. -/
def target (m : ℕ) (e : ℤ) : ℤ := max (m.log2 + e - 52) (-1074)

theorem targetExponent_eq (m : ℕ) (e : ℤ) :
    Format.binary64.targetExponent (totalExponent m e) = target m e := by
  simp only [Format.targetExponent, totalExponent, Format.mantissaBits, Format.minExponent, target]
  norm_num
  omega

/-- A number is the same at a smaller exponent. -/
theorem rescale (c : ℕ) {t k : ℤ} (htk : t ≤ k) :
    ((c * 2 ^ (k - t).toNat : ℕ) : ℚ) * 2 ^ t = c * 2 ^ k := by
  have hpow : ((2 ^ (k - t).toNat : ℕ) : ℚ) = 2 ^ (k - t) := by
    rw [Nat.cast_pow, Nat.cast_ofNat, ← zpow_natCast, Int.toNat_of_nonneg (by omega)]
  rw [Nat.cast_mul, hpow, mul_assoc, ← zpow_add₀ two_ne_zero, sub_add_cancel]

/-- A number that has a certain bit is not smaller than its power of two. -/
theorem log2_add_le_of_lt {m : ℕ} (hm : 0 < m) {e k : ℤ} (hlt : (m : ℚ) * 2 ^ e < 2 ^ k) :
    m.log2 + e < k := by
  have hlog : (2 : ℚ) ^ (m.log2 : ℤ) ≤ m := by
    rw [zpow_natCast]
    exact_mod_cast Nat.log2_self_le hm.ne'
  have hpow : (2 : ℚ) ^ (m.log2 + e) < 2 ^ k := by
    rw [zpow_add₀ two_ne_zero]
    exact (mul_le_mul_of_nonneg_right hlog (zpow_pos two_pos e).le).trans_lt hlt
  exact (zpow_lt_zpow_iff_right₀ one_lt_two).mp hpow

/-- A mantissa of up to 53 bits is not shifted any more, unless it is just beyond them. -/
theorem shiftToTargetExponent_of_le {r : ℕ} (hr : r ≤ 2 ^ 53) {t : ℤ} (ht : -1074 ≤ t) :
    ∃ m e, (shiftToTargetExponent Format.binary64 r t .exact).1.mantissa = m ∧
      (shiftToTargetExponent Format.binary64 r t .exact).2 = e ∧
      m < 2 ^ 53 ∧ -1074 ≤ e ∧ (r : ℚ) * 2 ^ t = m * 2 ^ e ∧ (2 ^ 52 ≤ r → 2 ^ 52 ≤ m) ∧
      (r < 2 ^ 52 → e = t) := by
  rw [shiftToTargetExponent, targetExponent_eq]
  rcases hr.lt_or_eq with hlt | rfl
  · have htarget : target r t ≤ t := by
      have hlog : r.log2 ≤ 52 := by
        rcases Nat.eq_zero_or_pos r with rfl | hpos
        · simp
        · have := (Nat.log2_lt hpos.ne').mpr hlt
          omega
      rw [target]
      omega
    have hshift : (target r t - t).toNat = 0 := by omega
    rw [shiftToExponent, hshift]
    exact ⟨r, t, rfl, by simp, hlt, ht, rfl, id, fun _ => rfl⟩
  · have htarget : target (2 ^ 53) t - t = 1 := by
      rw [target, Nat.log2_two_pow]
      omega
    rw [shiftToExponent, htarget]
    refine ⟨2 ^ 52, t + 1, rfl, rfl, by norm_num, by omega, ?_, fun _ => le_rfl, by norm_num⟩
    rw [zpow_add₀ two_ne_zero]
    norm_num
    ring

/-- A mantissa that is rounded at its target exponent has 53 bits, or the next power of two
comes out, unless the exponent is the least one. -/
theorem rounded_range {m r : ℕ} (hm : 0 < m) {e : ℤ} (he : e ≤ target m e)
    (hlower : m / 2 ^ (target m e - e).toNat ≤ r)
    (hupper : ∀ c, m ≤ c * 2 ^ (target m e - e).toNat → r ≤ c) :
    r ≤ 2 ^ 53 ∧ (2 ^ 52 ≤ r ∨ target m e = -1074) := by
  have htarget : target m e = max (m.log2 + e - 52) (-1074) := rfl
  constructor
  · refine hupper _ ?_
    calc m ≤ 2 ^ (m.log2 + 1) := Nat.lt_log2_self.le
      _ ≤ 2 ^ (53 + (target m e - e).toNat) := Nat.pow_le_pow_right two_pos (by omega)
      _ = 2 ^ 53 * 2 ^ (target m e - e).toNat := pow_add _ _ _
  · rcases eq_or_ne (target m e) (-1074) with hleast | hother
    · exact .inr hleast
    · refine .inl (le_trans ?_ hlower)
      rw [Nat.le_div_iff_mul_le (by positivity), ← pow_add]
      calc 2 ^ (52 + (target m e - e).toNat) = 2 ^ m.log2 := by congr 1; omega
        _ ≤ m := Nat.log2_self_le hm.ne'

/-- What is rounded is first cut off at the target exponent, so the result is the rounded
mantissa there, and all that is asked of it can be asked of that mantissa. -/
theorem roundWithAccuracy_eq (sign : Sign) {m : ℕ} (hm : 0 < m) {e : ℤ} (he : e ≤ target m e) :
    ∃ r : ℕ, (m / 2 ^ (target m e - e).toNat ≤ r ∧
        ∀ c, m ≤ c * 2 ^ (target m e - e).toNat → r ≤ c) ∧
      Canonical (roundWithAccuracy Format.binary64 sign m e .exact) ∧
      value (roundWithAccuracy Format.binary64 sign m e .exact) =
        (sign.apply r : ℤ) * 2 ^ target m e := by
  set k := (target m e - e).toNat with hk
  obtain ⟨hlower, hupper⟩ := roundedMantissa_bounds m k
  set r := (ExtendedMantissa.ofMantissaAndAccuracy m .exact >>> k).roundedMantissa with hr
  obtain ⟨hsmall, hnormal⟩ := rounded_range hm he hlower hupper
  have hleast : -1074 ≤ target m e := le_max_right _ _
  refine ⟨r, ⟨hlower, hupper⟩, ?_⟩
  obtain ⟨m', e', hmantissa, hexponent, hm', he', hvalue, hfull, hshort⟩ :=
    shiftToTargetExponent_of_le hsmall hleast
  have hround : roundWithAccuracy Format.binary64 sign m e .exact =
      if h : m' = 0 then .zero sign else .finite sign m' e' (Nat.pos_of_ne_zero h) := by
    have hfirst : shiftToTargetExponent Format.binary64 m e .exact =
        (ExtendedMantissa.ofMantissaAndAccuracy m .exact >>> k, target m e) := by
      rw [shiftToTargetExponent, targetExponent_eq, shiftToExponent, ← hk]
      simp only [Prod.mk.injEq, true_and]
      omega
    rw [roundWithAccuracy, hfirst]
    dsimp only
    rw [← hr]
    simp only [hmantissa, hexponent]
  have hsigned : ((sign.apply r : ℤ) : ℚ) * 2 ^ target m e = (sign.apply m' : ℤ) * 2 ^ e' := by
    cases sign <;> simp [Sign.apply, hvalue]
  rw [hround, hsigned]
  by_cases hzero : m' = 0
  · rw [dif_pos hzero, hzero]
    exact ⟨trivial, by cases sign <;> simp [value, Sign.apply]⟩
  · rw [dif_neg hzero]
    refine ⟨⟨hm', ?_, he'⟩, rfl⟩
    rcases lt_or_ge r (2 ^ 52) with hlt | hge
    · exact .inr ((hshort hlt).trans (hnormal.resolve_left hlt.not_ge))
    · exact .inl (hfull hge)

/-- A rounded mantissa compares as the exact one does with what can be written at its
exponent. -/
theorem rounded_compares {m r : ℕ} {e t : ℤ} (het : e ≤ t)
    (hlower : m / 2 ^ (t - e).toNat ≤ r) (hupper : ∀ c, m ≤ c * 2 ^ (t - e).toNat → r ≤ c)
    (c : ℕ) {k : ℤ} (htk : t ≤ k) :
    ((m : ℚ) * 2 ^ e ≤ c * 2 ^ k → (r : ℚ) * 2 ^ t ≤ c * 2 ^ k) ∧
    ((c : ℚ) * 2 ^ k ≤ m * 2 ^ e → (c : ℚ) * 2 ^ k ≤ r * 2 ^ t) := by
  have hposE : (0 : ℚ) < 2 ^ e := zpow_pos two_pos e
  have hposT : (0 : ℚ) < 2 ^ t := zpow_pos two_pos t
  rw [← rescale c htk, ← rescale _ het, mul_le_mul_iff_left₀ hposE, mul_le_mul_iff_left₀ hposE]
  rw [rescale _ het, mul_le_mul_iff_left₀ hposT, mul_le_mul_iff_left₀ hposT]
  simp only [Nat.cast_le]
  refine ⟨hupper _, fun hle => le_trans ?_ hlower⟩
  rwa [Nat.le_div_iff_mul_le (by positivity)]

theorem roundsTo_roundWithAccuracy (sign : Sign) {m : ℕ} (hm : 0 < m) {e : ℤ}
    (he : e ≤ target m e) :
    RoundsTo ((sign.apply m : ℤ) * 2 ^ e) (roundWithAccuracy Format.binary64 sign m e .exact) := by
  obtain ⟨r, ⟨hlower, hupper⟩, hcanonical, hvalue⟩ := roundWithAccuracy_eq sign hm he
  have habs (n : ℕ) (k : ℤ) : |((sign.apply n : ℤ) : ℚ) * 2 ^ k| = n * 2 ^ k := by
    rw [abs_mul, abs_apply, abs_of_pos (zpow_pos two_pos k)]
  have htarget : target m e = max (m.log2 + e - 52) (-1074) := rfl
  refine ⟨hcanonical, fun k hk hle => ?_, fun c k hc hk heq => ?_⟩
  · rw [habs] at hle
    have hexponent := log2_add_le_of_lt (k := k + 1) hm
      (hle.trans_lt (zpow_lt_zpow_right₀ one_lt_two (by omega)))
    obtain ⟨hcompares, -⟩ := rounded_compares he hlower hupper 1 (k := k) (by omega)
    rw [hvalue, habs]
    simpa using hcompares (by simpa using hle)
  · rw [habs] at heq
    have hlt : (m : ℚ) * 2 ^ e < 2 ^ (53 + k) := by
      rw [heq, zpow_add₀ two_ne_zero]
      refine mul_lt_mul_of_pos_right ?_ (zpow_pos two_pos k)
      exact_mod_cast hc
    have hexponent := log2_add_le_of_lt hm hlt
    obtain ⟨hup, hdown⟩ := rounded_compares he hlower hupper c (k := k) (by omega)
    have hsame : (r : ℚ) * 2 ^ target m e = m * 2 ^ e :=
      (le_antisymm (hup heq.le) (hdown heq.ge)).trans heq.symm
    rw [hvalue]
    cases sign <;> simp [Sign.apply, hsame]

theorem signed_rescale (sign : Sign) (m : ℕ) {t e : ℤ} (hte : t ≤ e) :
    ((sign.apply (m * 2 ^ (e - t).toNat : ℕ) : ℤ) : ℚ) * 2 ^ t = (sign.apply m : ℤ) * 2 ^ e := by
  have hscale := rescale m hte
  cases sign <;> simp [Sign.apply, ← hscale]

/-- To round a number of whatever exponent is to write it at a small enough one before. -/
theorem roundsTo_round (sign : Sign) {m : ℕ} (hm : 0 < m) (e : ℤ) :
    RoundsTo ((sign.apply m : ℤ) * 2 ^ e) (UnpackedFloat.round Format.binary64 sign m e) := by
  have htarget : target m e = max (m.log2 + e - 52) (-1074) := rfl
  rw [UnpackedFloat.round, targetExponent_eq, decreaseExponent]
  dsimp only
  rcases le_or_gt e (target m e) with hle | hgt
  · have hshift : (e - target m e).toNat = 0 := by omega
    rw [hshift, Nat.shiftLeft_zero, Nat.cast_zero, sub_zero]
    exact roundsTo_roundWithAccuracy sign hm hle
  · set k := (e - target m e).toNat with hk
    have hexponent : e - k = target m e := by omega
    have hpos : 0 < m * 2 ^ k := by positivity
    have hvalue : ((sign.apply (m * 2 ^ k : ℕ) : ℤ) : ℚ) * 2 ^ target m e =
        (sign.apply m : ℤ) * 2 ^ e := signed_rescale sign m hgt.le
    have hlow : target m e ≤ target (m * 2 ^ k) (target m e) := by
      rcases eq_or_ne (target m e) (-1074) with hleast | hother
      · rw [hleast]
        exact le_max_right _ _
      · have hbits : 52 ≤ (m * 2 ^ k).log2 := by
          rw [Nat.le_log2 hpos.ne']
          calc 2 ^ 52 = 2 ^ m.log2 * 2 ^ k := by rw [← pow_add]; congr 1; omega
            _ ≤ m * 2 ^ k := Nat.mul_le_mul_right _ (Nat.log2_self_le hm.ne')
        exact le_max_of_le_left (by omega)
    rw [hexponent, Nat.shiftLeft_eq, ← hvalue]
    exact roundsTo_roundWithAccuracy sign hpos hlow

theorem roundsTo_zero (sign : Sign) : RoundsTo 0 (.zero sign) where
  canonical := trivial
  within k _ _ := by
    rw [value_zero, abs_zero]
    exact (zpow_pos two_pos k).le
  faithful _ _ _ _ _ := rfl

theorem roundsTo_normalize (m e : ℤ) (zeroSign : Sign) :
    RoundsTo (m * 2 ^ e) (UnpackedFloat.normalize Format.binary64 m e zeroSign) := by
  rw [UnpackedFloat.normalize]
  rcases lt_trichotomy m 0 with hneg | rfl | hpos
  · have hcompare : compare m 0 = .lt := compare_lt_iff_lt.mpr hneg
    have hm : ((-m).toNat : ℤ) = -m := Int.toNat_of_nonneg (by omega)
    have hsigned : (Sign.negative.apply (-m).toNat : ℤ) = m := by rw [Sign.apply, hm, neg_neg]
    rw [hcompare]
    have hround := roundsTo_round .negative (m := (-m).toNat) (by omega) e
    rwa [hsigned] at hround
  · have hcompare : compare (0 : ℤ) 0 = .eq := rfl
    rw [hcompare, Int.cast_zero, zero_mul]
    exact roundsTo_zero zeroSign
  · have hcompare : compare m 0 = .gt := compare_gt_iff_gt.mpr hpos
    have hm : (m.toNat : ℤ) = m := Int.toNat_of_nonneg hpos.le
    have hsigned : (Sign.positive.apply m.toNat : ℤ) = m := by rw [Sign.apply, hm]
    rw [hcompare]
    have hround := roundsTo_round .positive (m := m.toNat) (by omega) e
    rwa [hsigned] at hround

/-- A canonical number is what its own value is rounded to. -/
theorem Canonical.roundsTo {x : UnpackedFloat} (hx : Canonical x) : RoundsTo (value x) x :=
  ⟨hx, fun _ _ hle => hle, fun _ _ _ _ _ => rfl⟩

theorem apply_neg (sign : Sign) (n : ℤ) : (-sign).apply n = -sign.apply n := by
  cases sign with
  | negative => exact (neg_neg n).symm
  | positive => rfl

theorem apply_mul (sign sign' : Sign) (m n : ℤ) :
    (sign * sign').apply (m * n) = sign.apply m * sign'.apply n := by
  cases sign <;> cases sign'
  · exact (neg_mul_neg m n).symm
  · exact (neg_mul m n).symm
  · exact (mul_neg m n).symm
  · rfl

theorem value_neg (x : UnpackedFloat) : value x.neg = -value x := by
  cases x with
  | finite sign m e hm => rw [UnpackedFloat.neg, value, value, apply_neg, Int.cast_neg, neg_mul]
  | _ => exact neg_zero.symm

theorem canonical_neg {x : UnpackedFloat} (hx : Canonical x) : Canonical x.neg := by
  cases x <;> exact hx

/-- The product of two mantissas has bits enough, unless both exponents are the least. -/
theorem le_target_mul {m m' : ℕ} (hm : 0 < m) (hm' : 0 < m') {e e' : ℤ}
    (hfull : 2 ^ 52 ≤ m ∨ e = -1074) (hfull' : 2 ^ 52 ≤ m' ∨ e' = -1074) :
    e + e' ≤ target (m * m') (e + e') := by
  have hpos : m * m' ≠ 0 := (Nat.mul_pos hm hm').ne'
  have hbits (hle : 2 ^ 52 ≤ m * m') : e + e' ≤ target (m * m') (e + e') := by
    have := (Nat.le_log2 hpos).mpr hle
    exact le_max_of_le_left (by omega)
  rcases hfull with hfull | hleast
  · exact hbits (hfull.trans (Nat.le_mul_of_pos_right m hm'))
  · rcases hfull' with hfull' | hleast'
    · exact hbits (hfull'.trans (Nat.le_mul_of_pos_left m' hm))
    · exact le_max_of_le_right (by omega)

theorem roundsTo_mul {x y : UnpackedFloat} (hx : Canonical x) (hy : Canonical y) :
    RoundsTo (value x * value y) (UnpackedFloat.mul Format.binary64 x y) := by
  cases x with
  | infinity => exact hx.elim
  | notANumber => exact hx.elim
  | zero sign =>
      rw [value_zero, zero_mul]
      cases y with
      | infinity => exact hy.elim
      | notANumber => exact hy.elim
      | _ => exact roundsTo_zero _
  | finite sign m e hm =>
      cases y with
      | infinity => exact hy.elim
      | notANumber => exact hy.elim
      | zero sign' =>
          rw [value_zero, mul_zero]
          exact roundsTo_zero _
      | finite sign' m' e' hm' =>
          have hround := roundsTo_roundWithAccuracy (sign * sign') (Nat.mul_pos hm hm')
            (le_target_mul hm hm' hx.2.1 hy.2.1)
          have hvalue : (((sign * sign').apply (m * m' : ℕ) : ℤ) : ℚ) * 2 ^ (e + e') =
              value (.finite sign m e hm) * value (.finite sign' m' e' hm') := by
            rw [Nat.cast_mul, apply_mul, Int.cast_mul, zpow_add₀ two_ne_zero, value, value]
            ring
          rwa [hvalue] at hround

/-- Numbers are added at the smaller exponent, where either of them is what it was. -/
theorem value_aligned (sign : Sign) (m : ℕ) {t e : ℤ} (hte : t ≤ e) :
    ((sign.apply ((decreaseExponent m e t).1 : ℕ) : ℤ) : ℚ) * 2 ^ t =
      (sign.apply m : ℤ) * 2 ^ e := by
  rw [decreaseExponent, Nat.shiftLeft_eq]
  exact signed_rescale sign m hte

theorem roundsTo_add {x y : UnpackedFloat} (hx : Canonical x) (hy : Canonical y) :
    RoundsTo (value x + value y) (UnpackedFloat.add Format.binary64 x y) := by
  cases x with
  | infinity => exact hx.elim
  | notANumber => exact hx.elim
  | zero sign =>
      rw [value_zero, zero_add]
      cases y with
      | infinity => exact hy.elim
      | notANumber => exact hy.elim
      | zero sign' =>
          simp only [UnpackedFloat.add, value_zero]
          split
          next => exact roundsTo_zero _
          next => exact roundsTo_zero _
      | finite => exact hy.roundsTo
  | finite sign m e hm =>
      cases y with
      | infinity => exact hy.elim
      | notANumber => exact hy.elim
      | zero sign' =>
          rw [value_zero, add_zero]
          exact hx.roundsTo
      | finite sign' m' e' hm' =>
          have hround := roundsTo_normalize
            (sign.apply ((decreaseExponent m e (min e e')).1 : ℕ) +
              sign'.apply ((decreaseExponent m' e' (min e e')).1 : ℕ)) (min e e') .positive
          rw [Int.cast_add, add_mul, value_aligned sign m (min_le_left e e'),
            value_aligned sign' m' (min_le_right e e')] at hround
          exact hround

theorem roundsTo_sub {x y : UnpackedFloat} (hx : Canonical x) (hy : Canonical y) :
    RoundsTo (value x - value y) (UnpackedFloat.sub Format.binary64 x y) := by
  cases x with
  | infinity => exact hx.elim
  | notANumber => exact hx.elim
  | zero sign =>
      rw [value_zero, zero_sub]
      cases y with
      | infinity => exact hy.elim
      | notANumber => exact hy.elim
      | zero sign' =>
          simp only [UnpackedFloat.sub, value_zero, neg_zero]
          split
          next => exact roundsTo_zero _
          next => exact roundsTo_zero _
      | finite sign' m' e' hm' =>
          rw [← value_neg]
          exact (canonical_neg hy).roundsTo
  | finite sign m e hm =>
      cases y with
      | infinity => exact hy.elim
      | notANumber => exact hy.elim
      | zero sign' =>
          rw [value_zero, sub_zero]
          exact hx.roundsTo
      | finite sign' m' e' hm' =>
          have hround := roundsTo_normalize
            (sign.apply ((decreaseExponent m e (min e e')).1 : ℕ) -
              sign'.apply ((decreaseExponent m' e' (min e e')).1 : ℕ)) (min e e') .positive
          rw [Int.cast_sub, sub_mul, value_aligned sign m (min_le_left e e'),
            value_aligned sign' m' (min_le_right e e')] at hround
          exact hround

end Chip8VM.Rounding
