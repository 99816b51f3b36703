import Mathlib.Data.List.Forall2
import Mensura.Proofs.Buffer.Addressing
import Mensura.Proofs.Buffer.Writing

namespace Mensura

namespace Buffer

/-- Two buffers with the same elements in the same unit, wherever their cells are. -/
structure Alike (b c : Buffer) : Prop where
  unit : b.unit = c.unit
  elements : b.elements = c.elements

namespace Alike

variable {b c : Buffer}

theorem size (alike : b.Alike c) : b.size = c.size := by
  rw [← b.elements_length, alike.elements, c.elements_length]

theorem put (alike : b.Alike c) (index : Nat) (raw : Float) :
    (b.put index raw).Alike (c.put index raw) where
  unit := alike.unit
  elements := by
    rw [put_elements, put_elements, alike.elements]

theorem putFrom (alike : b.Alike c) (index : Nat) (raws : List Float) :
    (b.putFrom index raws).Alike (c.putFrom index raws) := by
  induction raws generalizing b c index with
  | nil => exact alike
  | cons raw rest ih => exact ih (alike.put index raw) (index + 1)

theorem checkDimension (alike : b.Alike c) (place : Place) (d : Dimension) :
    b.checkDimension place d = c.checkDimension place d := by
  rw [Buffer.checkDimension, Buffer.checkDimension, alike.unit]

theorem read (alike : b.Alike c) (d : Dimension) (index : Nat) : b.read d index = c.read d index := by
  by_cases inside : index < b.size
  · obtain ⟨raw, held⟩ := b.element_exists inside
    rw [read_element held, read_element (alike.elements ▸ held), alike.unit]
  · rw [Buffer.read, Buffer.read, dif_neg inside, dif_neg (alike.size ▸ inside), alike.size]

theorem get (alike : b.Alike c) (d : Dimension) (index : Nat) : b.get d index = c.get d index := by
  rw [Buffer.get, Buffer.get, alike.checkDimension, alike.read]

theorem scalar (alike : b.Alike c) (d : Dimension) : b.scalar d = c.scalar d := by
  rw [Buffer.scalar, Buffer.scalar, isScalar, isScalar, alike.size, alike.checkDimension, alike.read]

theorem fitting {d : Dimension} (alike : b.Alike c) (index : Nat) (qs : List (Quantity d)) :
    Cursor.fitting b index qs = Cursor.fitting c index qs := by
  rw [Cursor.fitting, Cursor.fitting, alike.size, alike.unit]

theorem cursor_remaining {d : Dimension} (alike : b.Alike c) (index : Nat) :
    (b.cursorAt d index).remaining = (c.cursorAt d index).remaining :=
  congrArg (· - index) alike.size

/-- Both readers hold the same list, so nothing that is asked of them tells them apart. -/
theorem reader_run {α : Type} {d : Dimension} (alike : b.Alike c) (f : Quantity d → α)
    (steps : List ReaderStep) :
    ReaderStep.run ((b.readerAt d 0).map f) steps = ReaderStep.run ((c.readerAt d 0).map f) steps := by
  rw [ReaderStep.run_holds ((b.readerAt_holds d).map f),
    ReaderStep.run_holds ((c.readerAt_holds d).map f), alike.elements, alike.unit]

/-- Two cursors at the same index give the same answers, and what they write
keeps the buffers alike. -/
theorem cursor_run {d : Dimension} (alike : b.Alike c) {index : Nat} (inside : index ≤ b.size)
    (steps : List CursorStep) :
    (CursorStep.run (b.cursorAt d index) steps).1 = (CursorStep.run (c.cursorAt d index) steps).1 ∧
      (CursorStep.run (b.cursorAt d index) steps).2.buffer.Alike
        (CursorStep.run (c.cursorAt d index) steps).2.buffer := by
  induction steps generalizing b c index with
  | nil => exact ⟨rfl, alike⟩
  | cons step rest ih =>
    have next := alike.putFrom index (Cursor.fitting b index (step.quantities d))
    have bounded : min (index + (step.quantities d).length) b.size ≤
        (b.putFrom index (Cursor.fitting b index (step.quantities d))).size := by
      rw [putFrom_size]
      exact Nat.min_le_right _ _
    obtain ⟨answers, left⟩ := ih next bounded
    rw [CursorStep.run, CursorStep.run, CursorStep.apply_cursorAt step inside,
      CursorStep.apply_cursorAt step (alike.size ▸ inside), ← alike.size, ← alike.fitting]
    dsimp only
    rw [answers, next.cursor_remaining]
    exact ⟨rfl, left⟩

end Alike

/-- A later state of a buffer: nothing changed but the numbers of its elements. -/
structure Revision (before after : Buffer) : Prop where
  layout : after.layout = before.layout
  unit : after.unit = before.unit
  cells_size : after.cells.size = before.cells.size
  off_grid : ∀ cell, (∀ index, index < before.size → before.layout.offset index ≠ cell) →
    after.cells[cell]? = before.cells[cell]?

namespace Revision

variable {b c e : Buffer}

theorem refl (b : Buffer) : b.Revision b :=
  ⟨rfl, rfl, rfl, fun _ _ => rfl⟩

theorem size (revised : b.Revision c) : c.size = b.size :=
  congrArg Layout.len revised.layout

theorem trans (first : b.Revision c) (second : c.Revision e) : b.Revision e where
  layout := second.layout.trans first.layout
  unit := second.unit.trans first.unit
  cells_size := second.cells_size.trans first.cells_size
  off_grid := by
    intro cell outside
    refine (second.off_grid cell fun index inside => ?_).trans (first.off_grid cell outside)
    rw [first.layout]
    exact outside index (first.size ▸ inside)

theorem putFrom {index : Nat} {raws : List Float} (fits : index + raws.length ≤ b.size) :
    b.Revision (b.putFrom index raws) where
  layout := putFrom_layout b index raws
  unit := putFrom_unit b index raws
  cells_size := putFrom_cells_size b index raws
  off_grid := fun _ outside => putFrom_other_cell fun i _ upper => outside i (by omega)

theorem put {index : Nat} (inside : index < b.size) (raw : Float) : b.Revision (b.put index raw) :=
  putFrom (show index + [raw].length ≤ b.size from inside)

theorem fitting {d : Dimension} {index : Nat} (inside : index ≤ b.size) (qs : List (Quantity d)) :
    b.Revision (b.putFrom index (Cursor.fitting b index qs)) := by
  refine putFrom ?_
  rw [Cursor.fitting, List.length_map, List.length_take]
  omega

theorem cursor_run {d : Dimension} {index : Nat} (inside : index ≤ b.size) (steps : List CursorStep) :
    b.Revision (CursorStep.run (b.cursorAt d index) steps).2.buffer := by
  induction steps generalizing b index with
  | nil => exact .refl b
  | cons step rest ih =>
    rw [CursorStep.run, CursorStep.apply_cursorAt step inside]
    refine (fitting inside (step.quantities d)).trans (ih ?_)
    rw [putFrom_size]
    exact Nat.min_le_right _ _

end Revision

end Buffer

/-- The answer that would be given if the elements lay side by side. -/
def BufferAnswer.sideBySide : BufferAnswer → BufferAnswer
  | .shape layout unit => .shape (.contiguous layout.len) unit
  | answer => answer

namespace BufferStep

variable {b c : Buffer}

/-- A call changes nothing but the numbers of elements. -/
theorem apply_revision (b : Buffer) (step : BufferStep) : b.Revision (step.apply b).2 := by
  cases step with
  | shape => exact .refl b
  | get d index => rw [apply]; cases b.get d index <;> exact .refl b
  | scalar d => rw [apply]; cases b.scalar d <;> exact .refl b
  | read d steps => rw [apply]; cases b.reader d <;> exact .refl b
  | set d index value =>
    rw [apply]
    by_cases known : b.unit.dimension = d
    · by_cases inside : index < b.size
      · rw [Buffer.set_element known inside]
        exact .put inside _
      · rw [Buffer.set_behind known inside]
        exact .refl b
    · rw [Buffer.set_foreign known]
      exact .refl b
  | write d steps =>
    rw [apply]
    by_cases known : b.unit.dimension = d
    · rw [Buffer.cursor_ok known]
      exact .cursor_run (Nat.zero_le _) steps
    · rw [Buffer.cursor_foreign known]
      exact .refl b

/-- Alike buffers answer a call alike and are alike after it. -/
theorem apply_alike (alike : b.Alike c) (step : BufferStep) :
    (step.apply b).1.sideBySide = (step.apply c).1.sideBySide ∧
      (step.apply b).2.Alike (step.apply c).2 := by
  cases step with
  | shape =>
    refine ⟨?_, alike⟩
    show BufferAnswer.shape (.contiguous b.size) b.unit = .shape (.contiguous c.size) c.unit
    rw [alike.size, alike.unit]
  | get d index =>
    rw [apply, apply, alike.get]
    cases c.get d index <;> exact ⟨rfl, alike⟩
  | scalar d =>
    rw [apply, apply, alike.scalar]
    cases c.scalar d <;> exact ⟨rfl, alike⟩
  | read d steps =>
    rw [apply, apply]
    by_cases known : b.unit.dimension = d
    · rw [Buffer.reader_ok known, Buffer.reader_ok (alike.unit ▸ known)]
      dsimp only
      rw [alike.reader_run]
      exact ⟨rfl, alike⟩
    · rw [Buffer.reader_foreign known, Buffer.reader_foreign (alike.unit ▸ known), alike.unit]
      exact ⟨rfl, alike⟩
  | set d index value =>
    rw [apply, apply]
    by_cases known : b.unit.dimension = d
    · have known' : c.unit.dimension = d := alike.unit ▸ known
      by_cases inside : index < b.size
      · rw [Buffer.set_element known inside, Buffer.set_element known' (alike.size ▸ inside), alike.unit]
        exact ⟨rfl, alike.put index _⟩
      · rw [Buffer.set_behind known inside, Buffer.set_behind known' (alike.size ▸ inside), alike.size]
        exact ⟨rfl, alike⟩
    · rw [Buffer.set_foreign known, Buffer.set_foreign (alike.unit ▸ known), alike.unit]
      exact ⟨rfl, alike⟩
  | write d steps =>
    rw [apply, apply]
    by_cases known : b.unit.dimension = d
    · rw [Buffer.cursor_ok known, Buffer.cursor_ok (alike.unit ▸ known)]
      obtain ⟨answers, left⟩ := alike.cursor_run (d := d) (Nat.zero_le _) steps
      dsimp only
      rw [answers]
      exact ⟨rfl, left⟩
    · rw [Buffer.cursor_foreign known, Buffer.cursor_foreign (alike.unit ▸ known), alike.unit]
      exact ⟨rfl, alike⟩

end BufferStep

namespace Buffer

theorem elements_of_contiguous {b : Buffer} (side : b.layout = .contiguous b.cells.size) :
    b.elements = b.cells.toList := by
  have size : b.size = b.cells.size := congrArg Layout.len side
  apply List.ext_getElem?
  intro index
  by_cases inside : index < b.size
  · rw [elements_getElem? inside, Array.getElem?_toList, Layout.offset, side]
    exact congrArg (b.cells[·]?) (Nat.mul_one index)
  · have behind : b.size ≤ index := Nat.not_lt.mp inside
    rw [List.getElem?_eq_none (by rw [elements_length]; exact behind),
      List.getElem?_eq_none (by rw [Array.length_toList, ← size]; exact behind)]

/-- Putting a number in the place of every cell leaves these numbers. -/
theorem putFrom_whole_cells {cells : Array Float} {raws : List Float} (unit : MeasureUnit)
    (fits : raws.length = cells.size) :
    ((whole cells unit).putFrom 0 raws).cells.toList = raws := by
  have side : ((whole cells unit).putFrom 0 raws).layout =
      .contiguous ((whole cells unit).putFrom 0 raws).cells.size := by
    rw [putFrom_layout, putFrom_cells_size]
    rfl
  rw [← elements_of_contiguous side]
  exact putFrom_all_elements fits

theorem alike_gathered (b : Buffer) : b.Alike (whole b.elements.toArray b.unit) where
  unit := rfl
  elements := (elements_of_contiguous (b := whole b.elements.toArray b.unit) rfl).symm

/-- Two attempts to read that nothing tells apart: both are refused with the
same error, or both readers give the same answers whatever they are asked. -/
inductive SameReaders {d : Dimension} :
    Except BufferError (Reader (Quantity d)) → Except BufferError (Reader (Quantity d)) → Prop
  | refused {error : BufferError} : SameReaders (.error error) (.error error)
  | opened {r r' : Reader (Quantity d)} :
      (∀ steps, ReaderStep.run r steps = ReaderStep.run r' steps) → SameReaders (.ok r) (.ok r')

/-- A buffer does whatever another one does whose elements are all the cells of
its storage. Its own storage holds the same numbers as its elements, and keeps
what it holds elsewhere. -/
structure Refines (b c : Buffer) : Prop where
  size : b.size = c.size
  isEmpty : b.isEmpty = c.isEmpty
  isScalar : b.isScalar = c.isScalar
  get : ∀ d index, b.get d index = c.get d index
  scalar : ∀ d, b.scalar d = c.scalar d
  reader : ∀ d, SameReaders (b.reader d) (c.reader d)
  run : ∀ steps, List.Forall₂ (fun after after' => after.1.sideBySide = after'.1 ∧
    after.2.elements = after'.2.cells.toList ∧ b.Revision after.2)
    (BufferStep.run b steps) (BufferStep.run c steps)

variable {b c : Buffer}

theorem Alike.reader (alike : b.Alike c) (d : Dimension) : SameReaders (b.reader d) (c.reader d) := by
  by_cases known : b.unit.dimension = d
  · rw [reader_ok known, reader_ok (alike.unit ▸ known)]
    exact .opened (alike.reader_run id)
  · rw [reader_foreign known, reader_foreign (alike.unit ▸ known), alike.unit]
    exact .refused

end Buffer

/-- The answers of a buffer without gaps need no change. -/
theorem BufferStep.apply_sideBySide {c : Buffer} (side : c.layout = .contiguous c.cells.size)
    (step : BufferStep) : (step.apply c).1.sideBySide = (step.apply c).1 := by
  cases step with
  | shape =>
    show BufferAnswer.shape (.contiguous c.layout.len) c.unit = .shape c.layout c.unit
    rw [side]
    rfl
  | get d index => rw [apply]; cases c.get d index <;> rfl
  | scalar d => rw [apply]; cases c.scalar d <;> rfl
  | read d steps => rw [apply]; cases c.reader d <;> rfl
  | set d index value =>
    rw [apply]
    rcases c.set index (⟨value⟩ : Quantity d) with ⟨_ | _, _⟩ <;> rfl
  | write d steps => rw [apply]; cases c.cursor d <;> rfl

namespace Buffer

/-- From alike buffers, one of them without gaps, every run is the same on both. -/
theorem Alike.run {origin b c : Buffer} (alike : b.Alike c) (side : c.layout = .contiguous c.cells.size)
    (revised : origin.Revision b) (steps : List BufferStep) :
    List.Forall₂ (fun after after' => after.1.sideBySide = after'.1 ∧
      after.2.elements = after'.2.cells.toList ∧ origin.Revision after.2)
      (BufferStep.run b steps) (BufferStep.run c steps) := by
  induction steps generalizing b c with
  | nil => exact .nil
  | cons step rest ih =>
    obtain ⟨answer, left⟩ := BufferStep.apply_alike alike step
    have kept := BufferStep.apply_revision c step
    have side' : (step.apply c).2.layout = .contiguous (step.apply c).2.cells.size := by
      rw [kept.layout, kept.cells_size, side]
    have later := revised.trans (BufferStep.apply_revision b step)
    refine .cons ⟨?_, ?_, later⟩ (ih left side' later)
    · rw [answer, BufferStep.apply_sideBySide side]
    · rw [left.elements, elements_of_contiguous side']

/-- A buffer with gaps does what the buffer over its gathered elements does. -/
theorem strided_refines_gathered {cells : Array Float} {len stride : Nat} {unit : MeasureUnit}
    {b : Buffer} (made : strided cells len stride unit = .ok b) :
    (b.cells = cells ∧ b.unit = unit ∧ b.layout.len = len ∧ b.layout.stride = stride) ∧
      b.Refines (whole b.elements.toArray unit) := by
  obtain ⟨sameCells, rfl, layout⟩ := strided_eq_ok made
  obtain ⟨sameLen, sameStride⟩ := Layout.strided_shape layout
  have alike := b.alike_gathered
  exact ⟨⟨sameCells, rfl, sameLen, sameStride⟩, {
    size := alike.size
    isEmpty := congrArg (· == 0) alike.size
    isScalar := congrArg (· == 1) alike.size
    get := alike.get
    scalar := alike.scalar
    reader := alike.reader
    run := alike.run rfl (.refl b) }⟩

theorem strided_refines_gathered_apart :
    strided #[1.0, 9.0, 9.0, 9.0, 2.0, 9.0] 2 4 (.canonical .mass) = .ok apart ∧
      (apart.cells = #[1.0, 9.0, 9.0, 9.0, 2.0, 9.0] ∧ apart.unit = .canonical .mass ∧
        apart.layout.len = 2 ∧ apart.layout.stride = 4) ∧
      apart.Refines (whole apart.elements.toArray (.canonical .mass)) :=
  ⟨rfl, strided_refines_gathered rfl⟩

example : apart.elements = [1.0, 2.0] := by
  decide +kernel

end Buffer

end Mensura
