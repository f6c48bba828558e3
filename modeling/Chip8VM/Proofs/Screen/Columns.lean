import Chip8VM.Surface
import Chip8VM.Proofs.Screen.Enlargement

/-!
Rows and columns exchanged. The columns of a picture are as many as its rows are wide
and as long as its rows are many, and what stands at a row and a column stands at the
column and the row of them. A surface that has been made of columns shows each pixel
where it stands in them, by `x` and `y`.
-/

namespace Chip8VM

namespace Picture

section

variable {α : Type} {width : Nat} {rows : List (List α)}

theorem length_exchanged (hrows : ∀ row ∈ rows, row.length = width) :
    (exchanged width rows).length = width := by
  induction rows with
  | nil => exact List.length_replicate
  | cons row rest ih =>
      obtain ⟨hrow, hrest⟩ := List.forall_mem_cons.mp hrows
      have hlength : (exchanged width (row :: rest)).length =
          min row.length (exchanged width rest).length := List.length_zipWith
      rw [hlength, hrow, ih hrest, Nat.min_self]

theorem length_of_mem_exchanged {column : List α} (hmem : column ∈ exchanged width rows) :
    column.length = rows.length := by
  induction rows generalizing column with
  | nil =>
      rw [List.eq_of_mem_replicate hmem]
      rfl
  | cons row rest ih =>
      obtain ⟨i, hi⟩ := List.mem_iff_getElem?.mp hmem
      obtain ⟨first, others, -, hothers, rfl⟩ := List.getElem?_zipWith_eq_some.mp hi
      rw [List.length_cons, ih (List.mem_of_getElem? hothers), List.length_cons]

/-- What stands at a row and a column stands at the column and the row of the columns. -/
theorem getElem?_exchanged (hrows : ∀ row ∈ rows, row.length = width) (x y : Nat) :
    ((exchanged width rows)[x]?.bind fun column => column[y]?) =
      rows[y]?.bind fun row => row[x]? := by
  induction rows generalizing y with
  | nil =>
      rw [exchanged, List.foldr_nil, List.getElem?_replicate]
      split
      next => rfl
      next => rfl
  | cons row rest ih =>
      obtain ⟨hrow, hrest⟩ := List.forall_mem_cons.mp hrows
      have hothers := length_exchanged hrest
      -- All rows are equally wide, so no column is missing from some of them only.
      by_cases hx : x < width
      · have hfirst : row[x]? = some row[x] := List.getElem?_eq_getElem (hrow.symm ▸ hx)
        have hother : (exchanged width rest)[x]? = some (exchanged width rest)[x] :=
          List.getElem?_eq_getElem (hothers.symm ▸ hx)
        have hcolumn : (exchanged width (row :: rest))[x]? =
            some (row[x] :: (exchanged width rest)[x]) :=
          List.getElem?_zipWith_eq_some.mpr ⟨_, _, hfirst, hother, rfl⟩
        rw [hcolumn]
        cases y with
        | zero => exact hfirst.symm
        | succ y =>
            rw [List.getElem?_cons_succ, ← ih hrest y, hother]
            rfl
      · have hbeyond {β : Type} {list : List β} (hlength : list.length = width) : list[x]? = none :=
          List.getElem?_eq_none (by omega)
        rw [hbeyond (length_exchanged hrows)]
        cases hy : (row :: rest)[y]? with
        | none => rfl
        | some other => exact (hbeyond (hrows other (List.mem_of_getElem? hy))).symm

end

section

variable {picture : Picture} {height width : Nat} (hsize : picture.HasSize height width)
  (hpos : 0 < height)
include hsize hpos

theorem width_of_hasSize : picture.width = width := by
  obtain ⟨hheight, hwidth⟩ := hsize
  unfold Picture.height at hheight
  rw [Picture.width]
  cases hrows : picture.rows with
  | nil =>
      rw [hrows, List.length_nil] at hheight
      omega
  | cons row rest => exact hwidth row (hrows ▸ List.mem_cons_self)

theorem length_columns : picture.columns.length = width := by
  rw [columns, width_of_hasSize hsize hpos]
  exact length_exchanged hsize.2

omit hpos in
theorem length_of_mem_columns {column : List Colour} (hmem : column ∈ picture.columns) :
    column.length = height :=
  (length_of_mem_exchanged hmem).trans hsize.1

theorem getElem?_columns (x y : Nat) :
    (picture.columns[x]?.bind fun column => column[y]?) = picture.pixel? y x := by
  rw [columns, width_of_hasSize hsize hpos]
  exact getElem?_exchanged hsize.2 x y

end

/-- The columns of the picture of a screen. -/
theorem columns_ofScreen (lit : Vector Bool 2048) (scheme : Scheme) (scale : Int) :
    let picture := ofScreen lit scheme scale
    picture.columns.length = 64 * side scale ∧
      (∀ column ∈ picture.columns, column.length = 32 * side scale) ∧
      ∀ x y, (picture.columns[x]?.bind fun column => column[y]?) = picture.pixel? y x := by
  have hsize := hasSize_ofScreen lit scheme scale
  have hpos : 0 < 32 * side scale := Nat.mul_pos (by decide) (side_pos scale)
  exact ⟨length_columns hsize hpos, fun _ hmem => length_of_mem_columns hsize hmem,
    getElem?_columns hsize hpos⟩

end Picture

namespace Surface

/-- Columns that are as many and as long as those of a surface make it up, each pixel
where it stands in them. -/
theorem exists_ofColumns? {width height : Nat} {columns : List (List Colour)}
    (hwidth : columns.length = width) (hheight : ∀ column ∈ columns, column.length = height) :
    ∃ surface, ofColumns? width height columns = some surface ∧
      surface.width = width ∧ surface.height = height ∧
      ∀ x y, surface.pixel? x y = columns[x]?.bind fun column => column[y]? := by
  refine ⟨_, if_pos ⟨hwidth, hheight⟩, rfl, rfl, fun x y => ?_⟩
  simp only [pixel?, Vector.getElem?_ofFn, List.getElem?_toArray, List.getElem?_map]
  by_cases hx : x < width
  · have hcolumn : columns[x]? = some columns[x] := List.getElem?_eq_getElem (hwidth.symm ▸ hx)
    have hlength := hheight _ (List.mem_of_getElem? hcolumn)
    by_cases hy : y < height
    · have hpixel : columns[x][y]? = some columns[x][y] :=
        List.getElem?_eq_getElem (hlength.symm ▸ hy)
      simp [hx, hy, hcolumn, hpixel]
    · have hpixel : columns[x][y]? = none := List.getElem?_eq_none (by omega)
      simp [hx, hy, hcolumn, hpixel]
  · have hcolumn : columns[x]? = none := List.getElem?_eq_none (by omega)
    simp [hx, hcolumn]

/-- Columns that are too many or too few make up no surface. -/
theorem ofColumns?_eq_none {width height : Nat} {columns : List (List Colour)}
    (hwidth : columns.length ≠ width) : ofColumns? width height columns = none :=
  if_neg fun hshape => hwidth hshape.1

end Surface

end Chip8VM
