/-!
The stack of return addresses. It lives in an array that doubles when it is full, so that calls
may nest without bound. A cell that is not in use holds zero. `CallStack.toList` is the stack as
its users see it, oldest address first.
-/

namespace Chip8VM

structure CallStack where
  cells : Array UInt16
  depth : Nat
  cells_pos : 0 < cells.size
  depth_le : depth ≤ cells.size

namespace CallStack

def initialCapacity : Nat := 16

/-- The first of `capacity`, `2 * capacity`, `4 * capacity`, … that is at least `needed`. -/
def grownCapacity (capacity needed : Nat) : Nat :=
  if 0 < capacity ∧ capacity < needed then grownCapacity (2 * capacity) needed else capacity
termination_by needed - capacity

theorem le_grownCapacity (capacity needed : Nat) :
    capacity ≤ grownCapacity capacity needed := by
  fun_induction grownCapacity capacity needed with
  | case1 capacity h ih => omega
  | case2 capacity h => exact Nat.le_refl _

/-- The stack that holds these addresses, oldest first. -/
def ofList (addresses : List UInt16) : CallStack where
  cells := addresses.toArray ++
    Array.replicate (grownCapacity initialCapacity addresses.length - addresses.length) 0
  depth := addresses.length
  cells_pos := by
    have := le_grownCapacity initialCapacity addresses.length
    simp [initialCapacity] at this ⊢
    omega
  depth_le := by simp

def empty : CallStack := ofList []

def toList (s : CallStack) : List UInt16 := s.cells.toList.take s.depth

def doubled (s : CallStack) : Array UInt16 := s.cells ++ Array.replicate s.cells.size 0

theorem depth_lt_size_doubled (s : CallStack) : s.depth < s.doubled.size := by
  have := s.cells_pos
  have := s.depth_le
  simp [doubled]
  omega

private theorem size_set_pos (s : CallStack) (address : UInt16) (h : s.depth < s.cells.size) :
    0 < (s.cells.set s.depth address h).size := by
  simpa using s.cells_pos

private theorem depth_lt_size_set (s : CallStack) (address : UInt16)
    (h : s.depth < s.cells.size) : s.depth + 1 ≤ (s.cells.set s.depth address h).size := by
  rw [Array.size_set]
  exact h

private theorem size_set_doubled_pos (s : CallStack) (address : UInt16) :
    0 < (s.doubled.set s.depth address (depth_lt_size_doubled s)).size := by
  have := s.depth_lt_size_doubled
  simp
  omega

private theorem depth_lt_size_set_doubled (s : CallStack) (address : UInt16) :
    s.depth + 1 ≤ (s.doubled.set s.depth address (depth_lt_size_doubled s)).size := by
  rw [Array.size_set]
  exact s.depth_lt_size_doubled

def push (s : CallStack) (address : UInt16) : CallStack :=
  if h : s.depth < s.cells.size then
    ⟨s.cells.set s.depth address h, s.depth + 1, size_set_pos s address h,
      depth_lt_size_set s address h⟩
  else
    ⟨s.doubled.set s.depth address (depth_lt_size_doubled s), s.depth + 1,
      size_set_doubled_pos s address, depth_lt_size_set_doubled s address⟩

private theorem top_lt_size (s : CallStack) (h : 0 < s.depth) : s.depth - 1 < s.cells.size := by
  have := s.depth_le
  omega

private theorem size_clear_pos (s : CallStack) (h : 0 < s.depth) :
    0 < (s.cells.set (s.depth - 1) 0 (top_lt_size s h)).size := by
  simpa using s.cells_pos

private theorem top_le_size_clear (s : CallStack) (h : 0 < s.depth) :
    s.depth - 1 ≤ (s.cells.set (s.depth - 1) 0 (top_lt_size s h)).size := by
  simpa using Nat.le_of_lt (top_lt_size s h)

/-- The newest address and the stack without it, whose cell is cleared. -/
def pop? (s : CallStack) : Option (UInt16 × CallStack) :=
  if h : 0 < s.depth then
    have top := top_lt_size s h
    some (s.cells[s.depth - 1],
      ⟨s.cells.set (s.depth - 1) 0 top, s.depth - 1, size_clear_pos s h, top_le_size_clear s h⟩)
  else none

@[simp] theorem length_toList (s : CallStack) : s.toList.length = s.depth := by
  have := s.depth_le
  simp [toList]
  omega

@[simp] theorem toList_ofList (addresses : List UInt16) :
    (ofList addresses).toList = addresses := by
  simp [toList, ofList]

@[simp] theorem toList_empty : empty.toList = [] := toList_ofList []

private theorem take_succ_set {cells : List UInt16} {k : Nat} (h : k < cells.length)
    (address : UInt16) : (cells.set k address).take (k + 1) = cells.take k ++ [address] := by
  rw [List.take_succ_eq_append_getElem (by simpa using h)]
  simp [List.take_set_of_le]

@[simp] theorem toList_push (s : CallStack) (address : UInt16) :
    (s.push address).toList = s.toList ++ [address] := by
  unfold push
  split
  next h => simp [toList, take_succ_set h]
  next h =>
    have full : s.depth = s.cells.size := by
      have := s.depth_le
      omega
    have room : s.depth < s.doubled.toList.length := by
      simpa using s.depth_lt_size_doubled
    simp only [toList, Array.toList_set, take_succ_set room]
    simp [doubled, full, List.take_of_length_le]

theorem pop?_eq_none_iff (s : CallStack) : s.pop? = none ↔ s.toList = [] := by
  rw [← List.length_eq_zero_iff, length_toList]
  unfold pop?
  split <;> simp <;> omega

theorem toList_pop? {s rest : CallStack} {address : UInt16} (h : s.pop? = some (address, rest)) :
    s.toList = rest.toList ++ [address] := by
  unfold pop? at h
  split at h
  next pos =>
    have le := s.depth_le
    obtain ⟨rfl, rfl⟩ := Prod.mk.inj (Option.some.inj h)
    have top : s.depth - 1 < s.cells.toList.length := by
      simp
      omega
    have cut := List.take_succ_eq_append_getElem top
    rw [show s.depth - 1 + 1 = s.depth by omega] at cut
    simp [toList, cut, List.take_set_of_le]
  next => simp at h

end CallStack

end Chip8VM
