import Chip8VM.Proofs.Pacing.Exact
import Mathlib.Algebra.Order.BigOperators.Group.List
import Mathlib.Control.Monad.Basic

/-!
How time is sliced does not matter. An interval can be cut anywhere: the beats
that are due up to the cut come first, and those behind it are the beats of the
host that has got so far, for there every cycle is due by so much earlier. From
this one cut any number of them follows.
-/

namespace Chip8VM

theorem Clock.toNat_cycles_add_sub {clock : Clock ℚ} (hsettled : clock.Settled) {x y : ℚ}
    (hx : 0 ≤ x) (hy : 0 ≤ y) :
    (clock.cycles (x + y)).toNat - (clock.cycles x).toNat =
      ((clock.carry x).cycles y).toNat := by
  have hfirst := cycles_nonneg hsettled hx
  have hsecond := cycles_nonneg (settled_carry hsettled x) hy
  rw [clock.cycles_add]
  omega

/-- Agendas are alike if one has all its beats earlier by the same time. -/
theorem Agenda.alike_of_shift {first second : Agenda ℚ} (shift : ℚ)
    (hinstructions : first.instructions.left = second.instructions.left)
    (hticks : first.ticks.left = second.ticks.left)
    (hinstruction : ∀ k, second.instructions.dueAt (second.instructions.done + k) =
      first.instructions.dueAt (first.instructions.done + k) - shift)
    (htick : ∀ j, second.ticks.dueAt (second.ticks.done + j) =
      first.ticks.dueAt (first.ticks.done + j) - shift) :
    Alike first second := by
  refine ⟨hinstructions, hticks, ?_⟩
  intro j k _ _
  rw [hinstruction, htick]
  exact decide_eq_decide.mpr (sub_le_sub_iff_right shift).symm

namespace Host

variable {host : Host ℚ}

/-- Beats that are due up to some time come before those that are due later. -/
theorem agenda_cut (hsettled : host.Settled) {x y : ℚ} (hx : 0 ≤ x) (hy : 0 ≤ y) :
    (host.agenda (x + y)).Cut (host.instructions.cycles x).toNat (host.ticks.cycles x).toNat := by
  obtain ⟨hinstructions, hticks⟩ := hsettled
  have hfirst := Clock.cycles_nonneg hinstructions hx
  have hfirst' := Clock.cycles_nonneg hticks hx
  constructor
  case instructions_done => exact Nat.zero_le _
  case ticks_done => exact Nat.zero_le _
  case instructions_owed =>
    exact Int.toNat_le_toNat (Clock.cycles_le_cycles_add hinstructions x hy)
  case ticks_owed => exact Int.toNat_le_toNat (Clock.cycles_le_cycles_add hticks x hy)
  case early_tick =>
    intro j k hj hk
    have htick : (host.agenda (x + y)).ticks.dueAt j ≤ x :=
      (Clock.lane_dueAt_le_iff hticks _ j).mpr (by omega)
    have hinstruction : x < (host.agenda (x + y)).instructions.dueAt k := by
      refine lt_of_not_ge (fun hdue => ?_)
      have hle := (Clock.lane_dueAt_le_iff hinstructions _ k).mp hdue
      omega
    exact decide_eq_true (htick.trans hinstruction.le)
  case late_tick =>
    intro j k hj hk
    have hinstruction : (host.agenda (x + y)).instructions.dueAt k ≤ x :=
      (Clock.lane_dueAt_le_iff hinstructions _ k).mpr (by omega)
    have htick : x < (host.agenda (x + y)).ticks.dueAt j := by
      refine lt_of_not_ge (fun hdue => ?_)
      have hle := (Clock.lane_dueAt_le_iff hticks _ j).mp hdue
      omega
    exact decide_eq_false (not_le_of_gt (hinstruction.trans_lt htick))

/-- Behind a cut the beats are those of the host that has got there. -/
theorem agenda_behind (hsettled : host.Settled) {x y : ℚ} (hx : 0 ≤ x) (hy : 0 ≤ y) :
    Agenda.Alike
      ((host.agenda (x + y)).behind (host.instructions.cycles x).toNat
        (host.ticks.cycles x).toNat)
      ((host.later x).agenda y) := by
  obtain ⟨hinstructions, hticks⟩ := hsettled
  refine Agenda.alike_of_shift x (Clock.toNat_cycles_add_sub hinstructions hx hy)
    (Clock.toNat_cycles_add_sub hticks hx hy) ?_ ?_
  · intro k
    exact Clock.carry_lane_dueAt hinstructions hx (host.instructions.cycles (x + y)) _ k
  · intro j
    exact Clock.carry_lane_dueAt hticks hx (host.ticks.cycles (x + y)) _ j

theorem timeline_add (hsettled : host.Settled) {x y : ℚ} (hx : 0 ≤ x) (hy : 0 ≤ y) :
    host.timeline (x + y) = host.timeline x ++ (host.later x).timeline y := by
  have hcut := Agenda.toList_cut (agenda_cut hsettled hx hy)
  rw [Agenda.toList_of_alike (agenda_behind hsettled hx hy)] at hcut
  exact hcut

theorem later_add (hsettled : host.Settled) {x y : ℚ} (hx : 0 ≤ x) (hy : 0 ≤ y) :
    host.later (x + y) = (host.later x).later y := by
  have hcarry : (host.carry x).carry y = host.carry (x + y) := by
    simp only [carry, Clock.carry_add]
  have hlater : (host.later x).carry y = ((host.carry x).carry y).behind (host.timeline x) := rfl
  rw [later, timeline_add hsettled hx hy, behind_append, ← hcarry, ← hlater]
  rfl

/-- Advances by one time after another until it fails, and adds up the
instructions. -/
def advanceEach (host : Host ℚ) : List ℚ → Except PacingFault Int × Host ℚ
  | [] => (.ok 0, host)
  | elapsed :: rest =>
      match host.advance elapsed with
      | (.ok executed, after) =>
          match after.advanceEach rest with
          | (.ok more, last) => (.ok (executed + more), last)
          | (.error fault, last) => (.error fault, last)
      | (.error fault, after) => (.error fault, after)

/-- The beats that reach the processor as a host is advanced by one time after
another. -/
def calls (host : Host ℚ) : List ℚ → List Beat
  | [] => []
  | elapsed :: rest =>
      host.delivered (host.timeline elapsed) ++
        match host.advance elapsed with
        | (.ok _, after) => after.calls rest
        | (.error _, _) => []

/-- Slices in which nothing fails are worth what their sum is worth. -/
theorem advanceEach_of_completes (hsettled : host.Settled) {slices : List ℚ}
    (hslices : ∀ slice ∈ slices, 0 ≤ slice)
    (hcompletes : host.processor.Completes (host.timeline slices.sum)) :
    host.advanceEach slices = (.ok (host.instructions.cycles slices.sum), host.later slices.sum) ∧
    host.calls slices = host.timeline slices.sum := by
  induction slices generalizing host with
  | nil =>
      rw [List.sum_nil, Clock.cycles_zero hsettled.instructions, later_zero hsettled,
        timeline_zero hsettled]
      exact ⟨rfl, rfl⟩
  | cons slice rest ih =>
      obtain ⟨hslice, hrest⟩ := List.forall_mem_cons.mp hslices
      have hsum : 0 ≤ rest.sum := List.sum_nonneg hrest
      rw [List.sum_cons] at hcompletes ⊢
      rw [timeline_add hsettled hslice hsum, Processor.completes_append] at hcompletes
      obtain ⟨hfirst, hsecond⟩ := hcompletes
      obtain ⟨hadvance, hcalls⟩ := ih (settled_later hsettled) hrest hsecond
      have hstep := advance_of_completes hsettled hslice hfirst
      constructor
      · simp only [advanceEach, hstep, hadvance]
        rw [Clock.cycles_add, later_add hsettled hslice hsum]
        rfl
      · simp only [calls, hstep, hcalls]
        rw [(host.deliverAll_of_completes hfirst).2, timeline_add hsettled hslice hsum]

theorem advanceEach_of_not_completes (hsettled : host.Settled) {slices : List ℚ}
    (hslices : ∀ slice ∈ slices, 0 ≤ slice)
    (hfails : ¬host.processor.Completes (host.timeline slices.sum)) :
    ∃ cause after, host.advanceEach slices = (.error (.halt cause), after) := by
  induction slices generalizing host with
  | nil =>
      rw [List.sum_nil, timeline_zero hsettled] at hfails
      exact absurd host.processor.completes_nil hfails
  | cons slice rest ih =>
      obtain ⟨hslice, hrest⟩ := List.forall_mem_cons.mp hslices
      have hsum : 0 ≤ rest.sum := List.sum_nonneg hrest
      rw [List.sum_cons, timeline_add hsettled hslice hsum, Processor.completes_append,
        not_and] at hfails
      rw [advanceEach]
      by_cases hfirst : host.processor.Completes (host.timeline slice)
      · obtain ⟨cause, after, hadvance⟩ := ih (settled_later hsettled) hrest (hfails hfirst)
        rw [advance_of_completes hsettled hslice hfirst]
        simp only [hadvance]
        exact ⟨cause, after, rfl⟩
      · obtain ⟨cause, after, hadvance⟩ := advance_of_not_completes hsettled hslice hfirst
        rw [hadvance]
        exact ⟨cause, after, rfl⟩

/-- Any two ways to slice an interval, in which no instruction fails, ask the
processor for the same beats in the same order, and leave the same host behind.
Each clock has then counted the whole cycles that its debt and the interval are
worth together, and owes the fraction. -/
theorem advanceEach_of_equal_sums (hsettled : host.Settled) (first second : List ℚ)
    (hfirst : ∀ slice ∈ first, 0 ≤ slice) (hsecond : ∀ slice ∈ second, 0 ≤ slice)
    (hsum : first.sum = second.sum)
    (hruns : ∀ cause, (host.advanceEach first).1 ≠ .error (.halt cause)) :
    host.calls first = host.calls second ∧
    host.advanceEach first = host.advanceEach second ∧
    ∃ after, host.advanceEach first =
        (.ok ⌊host.instructions.debt + host.instructions.rate * first.sum⌋, after) ∧
      after.processor = host.processor.performAll ((host.calls first).map Beat.command) ∧
      ((host.calls first).count .instruction : ℤ) =
        ⌊host.instructions.debt + host.instructions.rate * first.sum⌋ ∧
      ((host.calls first).count .tick : ℤ) =
        ⌊host.ticks.debt + host.ticks.rate * first.sum⌋ ∧
      after.instructions.count =
        host.instructions.count + (host.calls first).count .instruction ∧
      after.ticks.count = host.ticks.count + (host.calls first).count .tick ∧
      after.Settled := by
  have hcompletes : host.processor.Completes (host.timeline first.sum) := by
    by_contra hfails
    obtain ⟨cause, after, hadvance⟩ := advanceEach_of_not_completes hsettled hfirst hfails
    exact hruns cause (congrArg Prod.fst hadvance)
  have hinterval : 0 ≤ first.sum := List.sum_nonneg hfirst
  obtain ⟨hadvance, hcalls⟩ := advanceEach_of_completes hsettled hfirst hcompletes
  obtain ⟨hadvance', hcalls'⟩ := advanceEach_of_completes hsettled hsecond (hsum ▸ hcompletes)
  obtain ⟨hinstructions, hticks⟩ := count_timeline hsettled hinterval
  rw [← hsum] at hadvance' hcalls'
  rw [mul_comm host.instructions.rate, mul_comm host.ticks.rate, hcalls, hcalls', hadvance,
    hadvance']
  exact ⟨rfl, rfl, host.later first.sum, rfl, rfl, hinstructions, hticks, rfl, rfl,
    settled_later hsettled⟩

/-- A program that jumps to itself, at four instructions and two ticks in a
second. -/
def idling : Host ℚ where
  processor := .ofMachine (Machine.holding [0x12, 0x00]) {}
  instructions := ⟨4, 0, 0⟩
  ticks := ⟨2, 0, 0⟩
  logger := {}

/-- A second at once, and one that is cut in the middle of a cycle and where a
tick and an instruction fall due together. -/
theorem second_in_three_slices :
    idling.calls [1 / 3, 1 / 6, 1 / 2] = idling.calls [1] ∧
    idling.advanceEach [1 / 3, 1 / 6, 1 / 2] = idling.advanceEach [1] ∧
    (idling.advanceEach [1]).1 = .ok 4 := by
  have hsettled : idling.Settled := by
    constructor
    · constructor <;> norm_num [idling]
    · constructor <;> norm_num [idling]
  have hadvance : (idling.advanceEach [1 / 3, 1 / 6, 1 / 2]).1 = .ok 4 := by decide +kernel
  have hruns : ∀ cause, (idling.advanceEach [1 / 3, 1 / 6, 1 / 2]).1 ≠ .error (.halt cause) := by
    intro cause
    rw [hadvance]
    exact nofun
  obtain ⟨hcalls, hequal, -⟩ := advanceEach_of_equal_sums hsettled [1 / 3, 1 / 6, 1 / 2] [1]
    (by norm_num) (by norm_num) (by norm_num) hruns
  rw [← hequal]
  exact ⟨hcalls, rfl, hadvance⟩

end Host

end Chip8VM
