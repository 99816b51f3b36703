import Mensura.Proofs.Buffer.Reading

namespace Mensura

namespace Cursor

variable {d : Dimension} {b : Buffer} {r : Reader (Quantity d)} {qs : List (Quantity d)}

/-- What a list of quantities leaves when it is written from an index on: as
many of them as there are elements, in the unit of the buffer. -/
def fitting (b : Buffer) (index : Nat) (qs : List (Quantity d)) : List Float :=
  (qs.take (b.size - index)).map fun q => b.unit.fromCanonical q.value

/-- Copying from a reader writes what fits, and fails at the first element that
does not. -/
theorem copy_cursorAt (start : Nat) {index : Nat} (holds : r.Holds qs) (inside : index ≤ b.size) :
    copy start qs.length r (b.cursorAt d index) =
      (if index + qs.length ≤ b.size then .ok (index + qs.length - start)
        else .error (.outOfRange b.size b.size),
      (b.putFrom index (fitting b index qs)).cursorAt d (min (index + qs.length) b.size)) := by
  induction qs generalizing b r index with
  | nil =>
    rw [fitting, List.take_nil, List.length_nil, Nat.add_zero, Nat.min_eq_left inside, if_pos inside]
    rfl
  | cons q rest ih =>
    rw [List.length_cons, copy, holds.pull_cons]
    dsimp only
    by_cases room : index < b.size
    · have more : b.size - index = b.size - (index + 1) + 1 := by omega
      have next := ih (b := b.put index (b.unit.fromCanonical q.value)) (holds.skip 1)
        (show index + 1 ≤ b.size from room)
      have passed : index + 1 + rest.length = index + (rest.length + 1) := by omega
      rw [Buffer.cursorAt_write room]
      dsimp only
      rw [fitting, more, List.take_succ_cons, List.map_cons, Buffer.putFrom, ← passed]
      exact next
    · have full : index = b.size := by omega
      subst full
      rw [Buffer.cursorAt_write_end (Nat.le_refl _), fitting, Nat.sub_self, List.take_zero,
        if_neg (by omega : ¬ b.size + (rest.length + 1) ≤ b.size), Nat.min_eq_right (by omega)]
      rfl

/-- Filling a cursor answers how many elements were written, if all of them fit. -/
theorem fill_cursorAt {index : Nat} (holds : r.Holds qs) (inside : index ≤ b.size) :
    (b.cursorAt d index).fill r =
      (if index + qs.length ≤ b.size then .ok qs.length else .error (.outOfRange b.size b.size),
      (b.putFrom index (fitting b index qs)).cursorAt d (min (index + qs.length) b.size)) := by
  have copied := copy_cursorAt index holds inside
  rw [Nat.add_sub_cancel_left, ← holds.limit_eq] at copied
  rw [← holds.limit_eq]
  exact copied

end Cursor

namespace CursorStep

variable {d : Dimension} {b : Buffer}

/-- The values of an order, in the order in which they are to be written. -/
def quantities (d : Dimension) : CursorStep → List (Quantity d)
  | .write value => [⟨value⟩]
  | .fill values => values.toList.map Quantity.mk

/-- What comes of an order in front of an index of `size` elements. -/
def resultAt (size index : Nat) : CursorStep → Except BufferError (Option Nat)
  | .write _ => if index < size then .ok none else .error (.outOfRange index size)
  | .fill values =>
    if index + values.size ≤ size then .ok (some values.size) else .error (.outOfRange size size)

/-- An order writes what fits of its values and moves the cursor behind them. -/
theorem apply_cursorAt (step : CursorStep) {index : Nat} (inside : index ≤ b.size) :
    step.apply (b.cursorAt d index) =
      (step.resultAt b.size index,
      (b.putFrom index (Cursor.fitting b index (step.quantities d))).cursorAt d
        (min (index + (step.quantities d).length) b.size)) := by
  cases step with
  | write value =>
    rw [apply, resultAt, quantities, List.length_singleton, Cursor.fitting]
    by_cases room : index < b.size
    · have more : b.size - index = b.size - (index + 1) + 1 := by omega
      rw [Buffer.cursorAt_write room, if_pos room, more, List.take_succ_cons, List.take_nil,
        Nat.min_eq_left (Nat.succ_le_of_lt room)]
      rfl
    · have full : index = b.size := by omega
      subst full
      rw [Buffer.cursorAt_write_end (Nat.le_refl _), if_neg room, Nat.sub_self, List.take_zero,
        Nat.min_eq_right (Nat.le_succ _)]
      rfl
  | fill values =>
    have holds := (Reader.ofArray_holds values).map (Quantity.mk : Float → Quantity d)
    have length : (values.toList.map (Quantity.mk : Float → Quantity d)).length = values.size := by
      rw [List.length_map, Array.length_toList]
    rw [apply, resultAt, quantities, Cursor.fill_cursorAt holds inside, length]
    by_cases fits : index + values.size ≤ b.size
    · rw [if_pos fits, if_pos fits]
    · rw [if_neg fits, if_neg fits]

end CursorStep

end Mensura
