import Mensura.Buffer

namespace Mensura

theorem Layout.offset_inj {layout : Layout} {i j : Nat} :
    layout.offset i = layout.offset j ↔ i = j :=
  Nat.mul_left_inj (Nat.ne_of_gt layout.stride_pos)

namespace Buffer

theorem isEmpty_iff (b : Buffer) : b.isEmpty = true ↔ b.size = 0 :=
  beq_iff_eq

/-- The numbers that are stored as the elements of a buffer, in the order of
their indices and in its unit. -/
def elements (b : Buffer) : List Float :=
  List.ofFn fun index : Fin b.size =>
    have := offset_lt index.isLt
    b.cells[b.layout.offset index]

@[simp]
theorem elements_length (b : Buffer) : b.elements.length = b.size :=
  List.length_ofFn

theorem elements_getElem? {b : Buffer} {index : Nat} (inside : index < b.size) :
    b.elements[index]? = b.cells[b.layout.offset index]? := by
  rw [elements, List.getElem?_ofFn, dif_pos inside, Array.getElem?_eq_getElem (offset_lt inside)]

theorem elements_getElem?_some {b : Buffer} {index : Nat} {raw : Float}
    (held : b.elements[index]? = some raw) : index < b.size := by
  obtain ⟨inside, _⟩ := List.getElem?_eq_some_iff.mp held
  simpa using inside

theorem element_exists (b : Buffer) {index : Nat} (inside : index < b.size) :
    ∃ raw, b.elements[index]? = some raw :=
  ⟨_, List.getElem?_eq_getElem (by simpa using inside)⟩

/-- The buffer with the number of one element replaced. -/
def put (b : Buffer) (index : Nat) (raw : Float) : Buffer :=
  b.store (b.layout.offset index) raw

@[simp]
theorem put_layout (b : Buffer) (index : Nat) (raw : Float) : (b.put index raw).layout = b.layout :=
  rfl

@[simp]
theorem put_size (b : Buffer) (index : Nat) (raw : Float) : (b.put index raw).size = b.size :=
  rfl

@[simp]
theorem put_cells_size (b : Buffer) (index : Nat) (raw : Float) :
    (b.put index raw).cells.size = b.cells.size :=
  Array.size_setIfInBounds

theorem put_other_cell {b : Buffer} {index cell : Nat} (raw : Float)
    (other : b.layout.offset index ≠ cell) : (b.put index raw).cells[cell]? = b.cells[cell]? :=
  Array.getElem?_setIfInBounds_ne other

theorem put_own_cell {b : Buffer} {index : Nat} (raw : Float) (inside : index < b.size) :
    (b.put index raw).cells[b.layout.offset index]? = some raw :=
  Array.getElem?_setIfInBounds_self_of_lt (offset_lt inside)

/-- On the elements, a replacement is one in a list. -/
theorem put_elements (b : Buffer) (index : Nat) (raw : Float) :
    (b.put index raw).elements = b.elements.set index raw := by
  apply List.ext_getElem?
  intro i
  rw [List.getElem?_set]
  by_cases inside : i < b.size
  · rw [elements_getElem? (by simpa using inside), put_layout]
    by_cases same : index = i
    · subst same
      rw [put_own_cell raw inside, if_pos rfl, if_pos (by simpa using inside)]
    · rw [put_other_cell raw (by simpa [Layout.offset_inj] using same), if_neg same,
        elements_getElem? inside]
  · rw [List.getElem?_eq_none (by simpa using inside)]
    split
    · rw [if_neg (by simp; omega)]
    · rw [List.getElem?_eq_none (by simpa using inside)]

/-- The buffer with the numbers of a list put in the place of its elements from
an index on. -/
def putFrom (b : Buffer) (index : Nat) : List Float → Buffer
  | [] => b
  | raw :: rest => (b.put index raw).putFrom (index + 1) rest

@[simp]
theorem putFrom_layout (b : Buffer) (index : Nat) (raws : List Float) :
    (b.putFrom index raws).layout = b.layout := by
  induction raws generalizing b index with
  | nil => rfl
  | cons raw rest ih => exact ih (b.put index raw) (index + 1)

@[simp]
theorem putFrom_unit (b : Buffer) (index : Nat) (raws : List Float) :
    (b.putFrom index raws).unit = b.unit := by
  induction raws generalizing b index with
  | nil => rfl
  | cons raw rest ih => exact ih (b.put index raw) (index + 1)

@[simp]
theorem putFrom_size (b : Buffer) (index : Nat) (raws : List Float) :
    (b.putFrom index raws).size = b.size :=
  congrArg Layout.len (putFrom_layout b index raws)

@[simp]
theorem putFrom_cells_size (b : Buffer) (index : Nat) (raws : List Float) :
    (b.putFrom index raws).cells.size = b.cells.size := by
  induction raws generalizing b index with
  | nil => rfl
  | cons raw rest ih => exact (ih (b.put index raw) (index + 1)).trans (put_cells_size b index raw)

/-- A cell that belongs to none of the replaced elements is not touched. -/
theorem putFrom_other_cell {b : Buffer} {index cell : Nat} {raws : List Float}
    (other : ∀ i, index ≤ i → i < index + raws.length → b.layout.offset i ≠ cell) :
    (b.putFrom index raws).cells[cell]? = b.cells[cell]? := by
  induction raws generalizing b index with
  | nil => rfl
  | cons raw rest ih =>
    have first := other index (Nat.le_refl index) (by simp)
    have later : (b.putFrom index (raw :: rest)).cells[cell]? = (b.put index raw).cells[cell]? :=
      ih fun i lower upper => other i (by omega) (by simp only [List.length_cons]; omega)
    exact later.trans (put_other_cell raw first)

/-- The replaced elements hold the numbers of the list, and those around them
hold what they held before. -/
theorem putFrom_elements {b : Buffer} {index : Nat} {raws : List Float}
    (fits : index + raws.length ≤ b.size) :
    (b.putFrom index raws).elements =
      b.elements.take index ++ raws ++ b.elements.drop (index + raws.length) := by
  induction raws generalizing b index with
  | nil => simp [putFrom]
  | cons raw rest ih =>
    simp only [List.length_cons] at fits ⊢
    have inside : index < b.elements.length := by simp; omega
    have passed : index + 1 + rest.length = index + (rest.length + 1) := by omega
    have later : (b.putFrom index (raw :: rest)).elements = _ :=
      ih (show index + 1 + rest.length ≤ (b.put index raw).size by rw [put_size]; omega)
    have before : (b.elements.set index raw).take (index + 1) = b.elements.take index ++ [raw] := by
      rw [List.take_succ_eq_append_getElem (by simpa using inside), List.take_set_of_le (Nat.le_refl index),
        List.getElem_set_self]
    rw [later, put_elements, before, passed, List.drop_set_of_lt (by omega)]
    simp

/-- A list with one number for each element replaces all of them. -/
theorem putFrom_all_elements {b : Buffer} {raws : List Float} (fits : raws.length = b.size) :
    (b.putFrom 0 raws).elements = raws := by
  rw [putFrom_elements (by omega), List.drop_eq_nil_of_le (by simp; omega)]
  simp

theorem putFrom_all_cell {b : Buffer} {index : Nat} {raw : Float} {raws : List Float}
    (fits : raws.length = b.size) (held : raws[index]? = some raw) :
    (b.putFrom 0 raws).cells[b.layout.offset index]? = some raw := by
  rw [← putFrom_all_elements fits] at held
  have inside := elements_getElem?_some held
  rw [elements_getElem? inside, putFrom_layout] at held
  exact held

end Buffer

end Mensura
