import Chip8VM.Machine.Execute
import Mathlib.Order.Bounds.Defs
import Mathlib.Tactic.Ring

/-!
The array behind the call stack. To its users the stack is a list that grows
and shrinks at its end; this module relates any sequence of pushes and pops to
the same sequence on a plain list. It also says how much storage there is: the
least capacity, doubling from the initial one, that the greatest depth so far
has needed, with zeros in all cells that are not in use.
-/

namespace Chip8VM.CallStack

/-- The sizes that storage for `needed` addresses can have. -/
def capacities (needed : Nat) : Set Nat :=
  {capacity | (∃ k, capacity = initialCapacity * 2 ^ k) ∧ needed ≤ capacity}

/-- What holds of the storage of a stack that has never been deeper than
`deepest`. -/
structure Tight (s : CallStack) (deepest : Nat) : Prop where
  depth_le : s.depth ≤ deepest
  size_least : IsLeast (capacities deepest) s.cells.size
  clear : ∀ (k : Nat) (hk : k < s.cells.size), s.depth ≤ k → s.cells[k] = 0

/-- A capacity that is greater than another one is at least twice as great. -/
private theorem double_le_of_lt {j k : Nat}
    (hlt : initialCapacity * 2 ^ k < initialCapacity * 2 ^ j) :
    2 * (initialCapacity * 2 ^ k) ≤ initialCapacity * 2 ^ j := by
  have hpow : 2 ^ k < 2 ^ j := Nat.lt_of_mul_lt_mul_left hlt
  have hkj : k + 1 ≤ j := (Nat.pow_lt_pow_iff_right (by decide)).mp hpow
  calc
    2 * (initialCapacity * 2 ^ k) = initialCapacity * 2 ^ (k + 1) := by ring
    _ ≤ initialCapacity * 2 ^ j :=
      Nat.mul_le_mul_left _ (Nat.pow_le_pow_right (by decide) hkj)

private theorem grownCapacity_least {capacity needed : Nat}
    (hpower : ∃ k, capacity = initialCapacity * 2 ^ k)
    (hbelow : ∀ larger ∈ capacities needed, capacity ≤ larger) :
    IsLeast (capacities needed) (grownCapacity capacity needed) := by
  fun_induction grownCapacity capacity needed with
  | case1 capacity hgrow ih =>
      obtain ⟨k, rfl⟩ := hpower
      apply ih ⟨k + 1, by ring⟩
      rintro larger ⟨⟨j, rfl⟩, hneeded⟩
      exact double_le_of_lt (by omega)
  | case2 capacity hstop =>
      refine ⟨⟨hpower, ?_⟩, hbelow⟩
      obtain ⟨k, rfl⟩ := hpower
      have hpos : 0 < initialCapacity * 2 ^ k := by simp [initialCapacity]
      omega

theorem ofList_tight (addresses : List UInt16) :
    (ofList addresses).Tight addresses.length := by
  have hleast : IsLeast (capacities addresses.length)
      (grownCapacity initialCapacity addresses.length) := by
    apply grownCapacity_least ⟨0, rfl⟩
    rintro larger ⟨⟨j, rfl⟩, _⟩
    exact Nat.le_mul_of_pos_right _ (by simp)
  have hroom := hleast.1.2
  refine ⟨Nat.le_refl _, ?_, ?_⟩
  · have hsize : (ofList addresses).cells.size =
        grownCapacity initialCapacity addresses.length := by
      simp [ofList]
      omega
    rwa [hsize]
  · intro k hk hfree
    simp only [ofList] at hfree ⊢
    rw [Array.getElem_append_right (by simpa using hfree)]
    simp

theorem push_tight {s : CallStack} {deepest : Nat} (htight : s.Tight deepest)
    (address : UInt16) : (s.push address).Tight (max deepest (s.depth + 1)) := by
  obtain ⟨hdepth, ⟨⟨⟨k, hk⟩, hroom⟩, hleast⟩, hclear⟩ := htight
  unfold push
  split
  next hfits =>
    refine ⟨Nat.le_max_right _ _, ⟨⟨⟨k, by simpa using hk⟩, ?_⟩, ?_⟩, ?_⟩
    · simp
      omega
    · rintro larger ⟨hpower, hneeded⟩
      simpa using hleast ⟨hpower, by omega⟩
    · intro i hi hfree
      simp only [Array.size_set] at hi
      dsimp only at hfree
      rw [Array.getElem_set_ne _ hi (by omega)]
      exact hclear i hi (by omega)
  next hfull =>
    -- The stack has filled its storage, so that is how deep it has ever been.
    have hfilled : s.depth = s.cells.size := by
      have := s.depth_le
      omega
    have hdouble : s.doubled.size = 2 * s.cells.size := by
      simp [doubled]
      omega
    refine ⟨Nat.le_max_right _ _, ⟨⟨⟨k + 1, ?_⟩, ?_⟩, ?_⟩, ?_⟩
    · simp only [Array.size_set, hdouble, hk]
      ring
    · simp only [Array.size_set, hdouble]
      have := s.cells_pos
      omega
    · rintro larger ⟨⟨j, rfl⟩, hneeded⟩
      simp only [Array.size_set, hdouble, hk]
      exact double_le_of_lt (by omega)
    · intro i hi hfree
      simp only [Array.size_set] at hi
      dsimp only at hfree
      rw [Array.getElem_set_ne _ hi (by omega)]
      simp only [doubled]
      rw [Array.getElem_append_right (by omega)]
      simp

theorem pop_tight {s rest : CallStack} {address : UInt16} {deepest : Nat}
    (htight : s.Tight deepest) (hpop : s.pop? = some (address, rest)) :
    rest.Tight deepest := by
  unfold pop? at hpop
  split at hpop
  next hpos =>
    obtain ⟨rfl, rfl⟩ := Prod.mk.inj (Option.some.inj hpop)
    refine ⟨?_, by simpa using htight.size_least, ?_⟩
    · have := htight.depth_le
      dsimp only
      omega
    · intro i hi hfree
      simp only [Array.size_set] at hi
      dsimp only at hfree
      rw [Array.getElem_set]
      split
      · rfl
      · exact htight.clear i hi (by omega)
  next => cases hpop

/-- What is done to a stack. An address may be any integer, of which the stack
keeps the lowest sixteen bits. -/
inductive Operation where
  | push (address : Int)
  | pop

/-- The stack after an operation. There is nothing to pop from an empty stack,
which stays as it is. -/
def apply (s : CallStack) : Operation → CallStack
  | .push address => s.push (UInt16.ofInt address)
  | .pop =>
      match s.pop? with
      | some (_, rest) => rest
      | none => s

def applyAll (s : CallStack) (operations : List Operation) : CallStack :=
  operations.foldl apply s

namespace Operation

/-- The same operation on a plain list of addresses, the newest at its end. -/
def onList (addresses : List Int) : Operation → List Int
  | push address => addresses ++ [address % 0x10000]
  | pop => addresses.dropLast

def allOnList (addresses : List Int) (operations : List Operation) : List Int :=
  operations.foldl onList addresses

/-- The greatest length that the list has before, between and after some
operations. -/
def greatestLength (addresses : List Int) : List Operation → Nat
  | [] => addresses.length
  | operation :: rest => max addresses.length (greatestLength (operation.onList addresses) rest)

end Operation

/-- The addresses on a stack as integers, oldest first. -/
def numbers (s : CallStack) : List Int :=
  s.toList.map fun address => (address.toNat : Int)

theorem length_numbers (s : CallStack) : s.numbers.length = s.depth := by
  simp [numbers]

theorem pop?_eq_none_iff_numbers (s : CallStack) : s.pop? = none ↔ s.numbers = [] := by
  simp [pop?_eq_none_iff, numbers]

theorem numbers_of_pop? {s rest : CallStack} {address : UInt16}
    (hpop : s.pop? = some (address, rest)) :
    s.numbers = rest.numbers ++ [(address.toNat : Int)] := by
  simp [numbers, toList_pop? hpop]

theorem numbers_apply (s : CallStack) (operation : Operation) :
    (s.apply operation).numbers = operation.onList s.numbers := by
  cases operation with
  | push address =>
      have hword : ((UInt16.ofInt address).toNat : Int) = address % 0x10000 := by
        simp [UInt16.ofInt]
        omega
      simp [apply, Operation.onList, numbers, hword]
  | pop =>
      simp only [apply, Operation.onList]
      cases hpop : s.pop? with
      | some popped => simp [numbers_of_pop? hpop]
      | none => simp [(s.pop?_eq_none_iff_numbers).mp hpop]

theorem apply_tight {s : CallStack} {deepest : Nat} (htight : s.Tight deepest)
    (operation : Operation) :
    (s.apply operation).Tight (max deepest (s.apply operation).depth) := by
  cases operation with
  | push address =>
      have hpush := push_tight htight (UInt16.ofInt address)
      have hdepth : (s.push (UInt16.ofInt address)).depth = s.depth + 1 := by
        unfold push
        split <;> rfl
      simpa only [apply, hdepth] using hpush
  | pop =>
      simp only [apply]
      cases hpop : s.pop? with
      | some popped =>
          have hrest := pop_tight htight hpop
          simpa only [Nat.max_eq_left hrest.depth_le] using hrest
      | none => simpa only [Nat.max_eq_left htight.depth_le] using htight

theorem length_le_greatestLength (addresses : List Int) (operations : List Operation) :
    addresses.length ≤ Operation.greatestLength addresses operations := by
  cases operations with
  | nil => exact Nat.le_refl _
  | cons operation rest => exact Nat.le_max_left _ _

/-- The operations continue a history in which the stack has been as deep as
`deepest`. -/
theorem applyAll_tight {s : CallStack} {deepest : Nat} (htight : s.Tight deepest)
    (operations : List Operation) :
    (s.applyAll operations).Tight
      (max deepest (Operation.greatestLength s.numbers operations)) := by
  induction operations generalizing s deepest with
  | nil =>
      have hdepth : s.numbers.length ≤ deepest := by
        rw [length_numbers]
        exact htight.depth_le
      simpa only [applyAll, List.foldl_nil, Operation.greatestLength, Nat.max_eq_left hdepth]
        using htight
  | cons operation rest ih =>
      have hrest := ih (apply_tight htight operation)
      have hfirst := length_le_greatestLength (s.apply operation).numbers rest
      have hdepth := htight.depth_le
      rw [length_numbers] at hfirst
      rw [numbers_apply] at hrest hfirst
      have hdeepest : max deepest (Operation.greatestLength s.numbers (operation :: rest)) =
          max (max deepest (s.apply operation).depth)
            (Operation.greatestLength (operation.onList s.numbers) rest) := by
        simp only [Operation.greatestLength, length_numbers]
        omega
      rw [hdeepest]
      exact hrest

theorem numbers_applyAll (s : CallStack) (operations : List Operation) :
    (s.applyAll operations).numbers = Operation.allOnList s.numbers operations := by
  induction operations generalizing s with
  | nil => rfl
  | cons operation rest ih =>
      have hrest := ih (s.apply operation)
      rw [numbers_apply] at hrest
      exact hrest

/-- After any pushes and pops the stack holds what a plain list holds after the
same operations. A return fails exactly if that list is empty; else it gives
the list's last address. The storage is as large as the greatest depth so far
has made it, and no larger, and it is zero wherever it is not in use. -/
theorem operations_refine_list (addresses : List UInt16) (operations : List Operation) :
    let s := (ofList addresses).applyAll operations
    let initial : List Int := addresses.map fun address => (address.toNat : Int)
    let plain := Operation.allOnList initial operations
    s.numbers = plain ∧
    (s.pop? = none ↔ plain = []) ∧
    (∀ m : Machine, m.stack = s → (m.ret = .error (.stackUnderflow m.pc) ↔ plain = [])) ∧
    (plain = [] → s.apply .pop = s) ∧
    (∀ address rest, s.pop? = some (address, rest) →
      plain = rest.numbers ++ [(address.toNat : Int)]) ∧
    IsLeast (capacities (Operation.greatestLength initial operations)) s.cells.size ∧
    s.depth ≤ s.cells.size ∧
    ∀ (k : Nat) (hk : k < s.cells.size), s.depth ≤ k → s.cells[k] = 0 := by
  intro s initial plain
  have hinitial : (ofList addresses).numbers = initial := by
    simp [numbers, initial]
  have hplain : s.numbers = plain := by
    rw [numbers_applyAll, hinitial]
  have htight : s.Tight (Operation.greatestLength initial operations) := by
    have hall := applyAll_tight (ofList_tight addresses) operations
    have hfirst := length_le_greatestLength initial operations
    rw [hinitial] at hall
    rwa [Nat.max_eq_right (by simpa [initial] using hfirst)] at hall
  have hempty : s.pop? = none ↔ plain = [] := by
    rw [pop?_eq_none_iff_numbers, hplain]
  refine ⟨hplain, hempty, ?_, ?_, ?_, htight.size_least, s.depth_le, htight.clear⟩
  · intro m hm
    rw [← hempty, ← hm]
    unfold Machine.ret
    cases m.stack.pop? <;> simp
  · intro hnone
    simp only [apply, hempty.mpr hnone]
  · intro address rest hpop
    rw [← hplain]
    exact numbers_of_pop? hpop

end Chip8VM.CallStack
