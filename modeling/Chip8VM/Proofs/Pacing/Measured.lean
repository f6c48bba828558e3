import Chip8VM.Proofs.Number.Whole
import Chip8VM.Proofs.Pacing.Schedule

/-!
Floating-point debts stay within bounds. As long as a rate is finite and each interval
is brief, what a clock owes is a finite number and has an integer part; and what is left
of the debt when that is paid is again at most one cycle. So the schedule of a host
exists for any number of brief intervals.
-/

namespace Chip8VM

open Rounding

namespace Number

theorem real_add_real (x y : Float) : real x + real y = real (x + y) := rfl

theorem real_mul {b : Number} {y : Float} (hb : b.toFloat? = some y) (x : Float) :
    real x * b = real (x * y) := by
  change rounded (· * ·) (real x) b = _
  simp only [rounded, hb]
  rfl

theorem real_sub {b : Number} {y : Float} (hb : b.toFloat? = some y) (x : Float) :
    real x - b = real (x - y) := by
  change rounded (· - ·) (real x) b = _
  simp only [rounded, hb]
  rfl

/-- A time of at most a quarter of a second, in either direction. -/
def Brief (elapsed : Number) : Prop :=
  ∃ t, elapsed = real t ∧ t.isFinite = true ∧ |exact t| ≤ 2 ^ (-2 : ℤ)

end Number

namespace Clock

/-- A clock that owes one cycle at most, at a rate that is a finite number. -/
structure Regular (clock : Clock Number) : Prop where
  debt : ∃ d, clock.debt = .real d ∧ d.isFinite = true ∧ |exact d| ≤ 2 ^ (0 : ℤ)
  rate : ∃ r, clock.rate.toFloat? = some r ∧ r.isFinite = true

theorem regular_atRate {rate : Number}
    (hrate : ∃ r, rate.toFloat? = some r ∧ r.isFinite = true) : (atRate rate).Regular where
  debt := by
    obtain ⟨hfinite, hexact⟩ := ofNat_of_short (n := 0) ⟨0, 0, by norm_num, rfl⟩
      (by rw [Nat.cast_zero]; exact (zpow_pos two_pos _).le)
    refine ⟨Float.ofNat 0, rfl, hfinite, ?_⟩
    rw [hexact, Nat.cast_zero, abs_zero, zpow_zero]
    exact zero_le_one
  rate := hrate

/-- In a brief time a regular clock comes to owe finitely many cycles, and is regular
again when they are paid. -/
theorem regular_paid {clock : Clock Number} (hregular : clock.Regular) {elapsed : Number}
    (hbrief : elapsed.Brief) :
    ∃ cycles, clock.owed elapsed = .ok cycles ∧ (clock.paid elapsed cycles).Regular := by
  obtain ⟨⟨d, hdebt, hd, hdBound⟩, ⟨r, hrate, hr⟩⟩ := hregular
  obtain ⟨t, rfl, ht, htBound⟩ := hbrief
  -- A quarter of the largest rate and one more cycle are far from overflowing.
  have hworth : |exact t * exact r| ≤ 2 ^ (1022 : ℤ) := by
    rw [abs_mul]
    calc |exact t| * |exact r| ≤ 2 ^ (-2 : ℤ) * 2 ^ (1024 : ℤ) :=
          mul_le_mul htBound (canonical_unpack hr).2.le (abs_nonneg _) (zpow_pos two_pos _).le
      _ = 2 ^ (1022 : ℤ) := (zpow_add₀ two_ne_zero _ _).symm
  have hproduct := rounded_mul ht hr (hworth.trans (zpow_le_zpow_right₀ one_le_two (by norm_num)))
  have hcharged : |exact d + exact (t * r)| ≤ 2 ^ (1023 : ℤ) :=
    calc |exact d + exact (t * r)| ≤ |exact d| + |exact (t * r)| := abs_add_le _ _
      _ ≤ 2 ^ (0 : ℤ) + 2 ^ (1022 : ℤ) :=
          add_le_add hdBound (hproduct.abs_exact_le (by norm_num) hworth)
      _ ≤ 2 ^ (1022 : ℤ) + 2 ^ (1022 : ℤ) :=
          add_le_add_left (zpow_le_zpow_right₀ one_le_two (by norm_num)) _
      _ = 2 ^ (1022 + 1 : ℤ) := by rw [zpow_add₀ two_ne_zero, zpow_one, mul_two]
  have hsum := rounded_add hd hproduct.finite hcharged
  -- The cycles are a float themselves, so only the rest that they leave is rounded.
  obtain ⟨cycles, hmeasure, hshort, hbelow, hnear⟩ := Binary64.measure_of_isFinite hsum.finite
  have hsize : |(cycles : ℚ)| ≤ 2 ^ (1023 : ℤ) :=
    hbelow.trans (hsum.abs_exact_le (by norm_num) hcharged)
  obtain ⟨hfinite, hexact⟩ := ofInt_of_short hshort hsize
  rw [← hexact] at hnear
  have hsmall : (1 : ℚ) ≤ 2 ^ (1023 : ℤ) := one_le_zpow₀ one_le_two (by norm_num)
  have hrest := rounded_sub hsum.finite hfinite (hnear.trans hsmall)
  have hdebt' : clock.debt + .real t * clock.rate = .real (d + t * r) := by
    rw [hdebt, Number.real_mul hrate, Number.real_add_real]
  refine ⟨cycles, ?_, ⟨⟨_, ?_, hrest.finite, hrest.abs_exact_le (by norm_num) ?_⟩, r, hrate, hr⟩⟩
  · rw [owed_eq, hdebt']
    exact hmeasure
  · rw [paid, hdebt']
    exact Number.real_sub (Number.toFloat?_whole hshort hsize) _
  · rw [zpow_zero]
    exact hnear

end Clock

namespace Host

/-- Whatever brief intervals follow each other, a host with regular clocks has a
schedule for them. -/
theorem schedule_of_regular {host : Host Number} (hinstructions : host.instructions.Regular)
    (hticks : host.ticks.Regular) {slices : List Number} (hslices : ∀ slice ∈ slices, slice.Brief) :
    ∃ schedule, host.schedule slices = .ok schedule := by
  induction slices generalizing host with
  | nil => exact ⟨[], rfl⟩
  | cons slice rest ih =>
      obtain ⟨hslice, hrest⟩ := List.forall_mem_cons.mp hslices
      obtain ⟨executed, hexecuted, hinstructions'⟩ := Clock.regular_paid hinstructions hslice
      obtain ⟨ticks, hticked, hticks'⟩ := Clock.regular_paid hticks hslice
      have hreached : (host.paid slice executed ticks).instructions.Regular := hinstructions'
      obtain ⟨later, hlater⟩ := ih hreached hticks' hrest
      exact ⟨_, (host.schedule_cons_eq_ok_iff _ _ _).mpr
        ⟨executed, ticks, later, hexecuted, hticked, hlater, rfl⟩⟩

/-- The sixtieth part of a second, as a floating-point number. -/
theorem brief_frameTime : (frameTime : Number).Brief := by
  have hunpack : (Float.ofBits 0x3F91111111111111).toModel.unpack =
      .finite .positive 0x11111111111111 (-58) (by norm_num) := rfl
  refine ⟨.ofBits 0x3F91111111111111, rfl, rfl, ?_⟩
  rw [exact, hunpack, abs_value]
  norm_num

end Host

end Chip8VM
