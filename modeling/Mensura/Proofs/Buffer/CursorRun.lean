import Mensura.Proofs.Buffer.Addressing
import Mensura.Proofs.Buffer.Writing

namespace Mensura

namespace Buffer

variable {b : Buffer} {d : Dimension}

theorem putFrom_append (b : Buffer) (index : Nat) (raws more : List Float) :
    b.putFrom index (raws ++ more) = (b.putFrom index raws).putFrom (index + raws.length) more := by
  induction raws generalizing b index with
  | nil => rfl
  | cons raw rest ih =>
    have passed : index + 1 + rest.length = index + (rest.length + 1) := by omega
    rw [List.length_cons, ← passed]
    exact ih (b.put index raw) (index + 1)

/-- The later state of a buffer after numbers were stored in the place of its
elements from an index on, and nowhere else. -/
structure Stores (before after : Buffer) (index : Nat) (raws : List Float) : Prop where
  layout : after.layout = before.layout
  unit : after.unit = before.unit
  cells_size : after.cells.size = before.cells.size
  own : ∀ i raw, raws[i]? = some raw →
    after.cells[(index + i) * before.layout.stride]? = some raw
  other : ∀ cell, (∀ i, i < raws.length → (index + i) * before.layout.stride ≠ cell) →
    after.cells[cell]? = before.cells[cell]?

theorem putFrom_stores {index : Nat} {raws : List Float} (fits : index + raws.length ≤ b.size) :
    b.Stores (b.putFrom index raws) index raws where
  layout := putFrom_layout b index raws
  unit := putFrom_unit b index raws
  cells_size := putFrom_cells_size b index raws
  own := by
    intro i raw held
    obtain ⟨listed, _⟩ := List.getElem?_eq_some_iff.mp held
    have inside : index + i < (b.putFrom index raws).size := by
      rw [putFrom_size]
      omega
    have cell := elements_getElem? inside
    have front : (b.elements.take index).length = index := by
      rw [List.length_take, elements_length]
      omega
    rw [putFrom_layout, putFrom_elements fits, List.append_assoc,
      List.getElem?_append_right (by omega), front, Nat.add_sub_cancel_left,
      List.getElem?_append_left listed, held] at cell
    exact cell.symm
  other := by
    intro cell outside
    refine putFrom_other_cell fun i lower upper => ?_
    have placed := outside (i - index) (by omega)
    rwa [Nat.add_sub_cancel' lower] at placed

/-- Writes quantities at one index after the other. All of these writes succeed. -/
def setFrom (b : Buffer) (index : Nat) : List (Quantity d) → Except BufferError Buffer
  | [] => .ok b
  | q :: rest =>
    match b.set index q with
    | (.ok (), b) => b.setFrom (index + 1) rest
    | (.error error, _) => .error error

theorem setFrom_eq_putFrom (known : b.unit.dimension = d) {index : Nat} {qs : List (Quantity d)}
    (fits : index + qs.length ≤ b.size) :
    b.setFrom index qs = .ok (b.putFrom index (qs.map fun q => b.unit.fromCanonical q.value)) := by
  induction qs generalizing b index with
  | nil => rfl
  | cons q rest ih =>
    rw [List.length_cons] at fits
    rw [setFrom, set_element known (by omega)]
    exact ih (b := b.put index (b.unit.fromCanonical q.value)) known
      (show index + 1 + rest.length ≤ b.size by omega)

end Buffer

namespace Cursor

variable {d : Dimension} {b : Buffer}

theorem length_fitting {index : Nat} (inside : index ≤ b.size) (qs : List (Quantity d)) :
    index + (fitting b index qs).length = min (index + qs.length) b.size := by
  rw [fitting, List.length_map, List.length_take]
  omega

theorem fitting_append (b : Buffer) (index : Nat) (qs more : List (Quantity d)) :
    fitting b index (qs ++ more) =
      fitting b index qs ++ fitting b (min (index + qs.length) b.size) more := by
  have left : b.size - index - qs.length = b.size - min (index + qs.length) b.size := by omega
  rw [fitting, fitting, fitting, List.take_append, List.map_append, left]

/-- Writing on behind what was written is one longer write. -/
theorem putFrom_fitting_append {index : Nat} (inside : index ≤ b.size) (qs more : List (Quantity d)) :
    b.putFrom index (fitting b index (qs ++ more)) =
      (b.putFrom index (fitting b index qs)).putFrom (min (index + qs.length) b.size)
        (fitting b (min (index + qs.length) b.size) more) := by
  rw [fitting_append, Buffer.putFrom_append, length_fitting inside]

end Cursor

namespace CursorStep

variable {d : Dimension} {b : Buffer}

/-- All values of a list of orders, in the order in which they are to be written. -/
def offered (d : Dimension) (steps : List CursorStep) : List (Quantity d) :=
  steps.flatMap (quantities d)

/-- After any orders a cursor stands behind what fitted, with all of its counters. -/
theorem run_cursorAt (steps : List CursorStep) {index : Nat} (inside : index ≤ b.size) :
    (run (b.cursorAt d index) steps).2 =
      (b.putFrom index (Cursor.fitting b index (offered d steps))).cursorAt d
        (min (index + (offered d steps).length) b.size) := by
  induction steps generalizing b index with
  | nil =>
    rw [offered, List.flatMap_nil, List.length_nil, Nat.add_zero, Nat.min_eq_left inside,
      Cursor.fitting, List.take_nil]
    rfl
  | cons step rest ih =>
    have bounded : min (index + (step.quantities d).length) b.size ≤
        (b.putFrom index (Cursor.fitting b index (step.quantities d))).size := by
      rw [Buffer.putFrom_size]
      exact Nat.min_le_right _ _
    have later := ih bounded
    have same (place : Nat) : Cursor.fitting
        (b.putFrom index (Cursor.fitting b index (step.quantities d))) place (offered d rest) =
        Cursor.fitting b place (offered d rest) := by
      simp only [Cursor.fitting, Buffer.putFrom_size, Buffer.putFrom_unit]
    have passed : min (min (index + (step.quantities d).length) b.size + (offered d rest).length)
        b.size = min (index + ((step.quantities d).length + (offered d rest).length)) b.size := by
      omega
    rw [same, Buffer.putFrom_size, passed, ← Cursor.putFrom_fitting_append inside,
      ← List.length_append] at later
    rw [run, apply_cursorAt step inside]
    exact later

/-- What an order does to a cursor in front of an element: it writes all of its
values, or as many as fit and then fails at the end. -/
inductive Effect (c : Cursor d) : CursorStep → Except BufferError (Option Nat) × Cursor d → Prop
  | written {value : Float} {after : Cursor d} : c.position < c.buffer.size →
      after.position = c.position + 1 →
      c.buffer.Stores after.buffer c.position [value / c.buffer.unit.scale] →
      Effect c (.write value) (.ok none, after)
  | full {value : Float} : c.position = c.buffer.size →
      Effect c (.write value) (.error (.outOfRange c.buffer.size c.buffer.size), c)
  | filled {values : Array Float} {after : Cursor d} :
      values.size ≤ c.buffer.size - c.position → after.position = c.position + values.size →
      c.buffer.Stores after.buffer c.position (values.toList.map (· / c.buffer.unit.scale)) →
      Effect c (.fill values) (.ok (some values.size), after)
  | overrun {values : Array Float} {after : Cursor d} :
      c.buffer.size - c.position < values.size → after.position = c.buffer.size →
      c.buffer.Stores after.buffer c.position
        ((values.toList.take (c.buffer.size - c.position)).map (· / c.buffer.unit.scale)) →
      Effect c (.fill values) (.error (.outOfRange c.buffer.size c.buffer.size), after)

theorem stores_fitting {index : Nat} (inside : index ≤ b.size) (qs : List (Quantity d)) :
    b.Stores (b.putFrom index (Cursor.fitting b index qs)) index (Cursor.fitting b index qs) := by
  refine Buffer.putFrom_stores ?_
  rw [Cursor.length_fitting inside]
  exact Nat.min_le_right _ _

theorem fitting_values (b : Buffer) (index : Nat) (values : List Float) :
    Cursor.fitting b index (values.map (Quantity.mk : Float → Quantity d)) =
      (values.take (b.size - index)).map (· / b.unit.scale) := by
  rw [Cursor.fitting, ← List.map_take, List.map_map]
  rfl

theorem apply_effect (step : CursorStep) {index : Nat} (inside : index ≤ b.size) :
    step.Effect (b.cursorAt d index) (step.apply (b.cursorAt d index)) := by
  have stored := stores_fitting inside (step.quantities d)
  cases step with
  | write value =>
    by_cases room : index < b.size
    · have fitted : Cursor.fitting b index [(⟨value⟩ : Quantity d)] = [value / b.unit.scale] := by
        obtain ⟨rest, more⟩ := Nat.exists_eq_add_of_lt room
        rw [Cursor.fitting, more, Nat.add_assoc, Nat.add_sub_cancel_left, List.take_succ_cons,
          List.take_nil]
        rfl
      rw [quantities, fitted] at stored
      rw [apply, Buffer.cursorAt_write room]
      exact .written room rfl stored
    · have full : index = b.size := by omega
      subst full
      rw [apply, Buffer.cursorAt_write_end (Nat.le_refl _)]
      exact .full rfl
  | fill values =>
    have listed : values.toList.length = values.size := Array.length_toList
    rw [quantities, fitting_values] at stored
    rw [apply_cursorAt _ inside, resultAt, quantities, fitting_values, List.length_map, listed]
    by_cases fits : index + values.size ≤ b.size
    · rw [List.take_of_length_le (by omega)] at stored ⊢
      rw [if_pos fits, Nat.min_eq_left fits]
      exact .filled (show values.size ≤ b.size - index by omega) rfl stored
    · rw [if_neg fits, Nat.min_eq_right (by omega)]
      exact .overrun (show b.size - index < values.size by omega) rfl stored

theorem run_answers (steps : List CursorStep) {index : Nat} (inside : index ≤ b.size) :
    ∀ answer ∈ (run (b.cursorAt d index) steps).1, answer.position + answer.remaining = b.size := by
  induction steps generalizing b index with
  | nil => exact List.forall_mem_nil _
  | cons step rest ih =>
    have size := Buffer.putFrom_size b index (Cursor.fitting b index (step.quantities d))
    have bounded : min (index + (step.quantities d).length) b.size ≤
        (b.putFrom index (Cursor.fitting b index (step.quantities d))).size := by
      rw [size]
      exact Nat.min_le_right _ _
    have later := ih bounded
    rw [size] at later bounded
    rw [run, apply_cursorAt step inside]
    refine List.forall_mem_cons.mpr ⟨?_, later⟩
    rw [Cursor.position, Cursor.remaining, Buffer.cursorAt, size]
    exact Nat.add_sub_of_le bounded

/-- A cursor after any orders: all of its counters agree, every further order does
what it should, and the storage is the one that writing by index leaves. -/
theorem run_writes_in_order {b : Buffer} {d : Dimension} (known : b.unit.dimension = d) :
    ∃ start, b.cursor d = .ok start ∧ ∀ steps, ∃ after, (run start steps).2 = after ∧
      after.position = min (offered d steps).length b.size ∧
      after.position + after.remaining = b.size ∧
      (∀ answer ∈ (run start steps).1, answer.position + answer.remaining = b.size) ∧
      after = after.buffer.cursorAt d after.position ∧
      (∀ step : CursorStep, step.Effect after (step.apply after)) ∧
      b.setFrom 0 ((offered d steps).take b.size) = .ok after.buffer ∧
      b.Stores after.buffer 0
        (((offered d steps).take b.size).map fun q => q.value / b.unit.scale) := by
  refine ⟨_, Buffer.cursor_ok known, fun steps => ⟨_, run_cursorAt steps (Nat.zero_le _), ?_⟩⟩
  have inside : min (0 + (offered d steps).length) b.size ≤ b.size := Nat.min_le_right _ _
  have size := Buffer.putFrom_size b 0 (Cursor.fitting b 0 (offered d steps))
  have fits : 0 + ((offered d steps).take b.size).length ≤ b.size := by
    rw [List.length_take]
    omega
  refine ⟨by rw [Buffer.cursorAt, Cursor.position, Nat.zero_add], ?_,
    run_answers steps (Nat.zero_le _), rfl, fun step => apply_effect step (by rwa [size]),
    Buffer.setFrom_eq_putFrom known fits, stores_fitting (Nat.zero_le _) _⟩
  rw [Cursor.position, Cursor.remaining, Buffer.cursorAt, size]
  exact Nat.add_sub_of_le inside

/-- Two elements with slack behind them: the second fill has one value too many. -/
theorem run_writes_in_order_apart :
    Buffer.apart.unit.dimension = .mass ∧
      ∃ start, Buffer.apart.cursor .mass = .ok start ∧ ∃ after,
        (run start [.write 5.0, .fill #[6.0, 7.0]]).2 = after ∧
        after.position = 2 ∧ after.remaining = 0 ∧
        Buffer.apart.setFrom 0 [(⟨5.0⟩ : Quantity .mass), ⟨6.0⟩] = .ok after.buffer := by
  have known : Buffer.apart.unit.dimension = .mass := rfl
  obtain ⟨start, opened, ran⟩ := run_writes_in_order known
  obtain ⟨after, reached, position, balance, _, _, _, stored, _⟩ :=
    ran [.write 5.0, .fill #[6.0, 7.0]]
  have atEnd : after.position = 2 := position
  have size : Buffer.apart.size = 2 := rfl
  exact ⟨known, start, opened, after, reached, atEnd, by omega, stored⟩

end CursorStep

end Mensura
