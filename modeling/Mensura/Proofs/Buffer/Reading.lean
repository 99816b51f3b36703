import Mensura.Buffer.Script
import Mensura.Proofs.Buffer.Access

namespace Mensura

namespace Reader

variable {α β : Type}

/-- The reader has exactly the elements of a list still to come. -/
structure Holds (r : Reader α) (xs : List α) : Prop where
  stride_pos : 0 < r.stride
  limit_eq : r.limit = xs.length
  cell : ∀ i, i < xs.length → (r.cells[r.offset + i * r.stride]?).map r.view = xs[i]?

variable {r : Reader α} {xs : List α}

theorem Holds.skip (holds : r.Holds xs) (count : Nat) : (r.skip count).Holds (xs.drop count) where
  stride_pos := holds.stride_pos
  limit_eq := by
    rw [List.length_drop, ← holds.limit_eq]
    rfl
  cell := by
    intro i inside
    rw [List.length_drop] at inside
    have moved : r.offset + count * r.stride + i * r.stride = r.offset + (count + i) * r.stride := by
      rw [Nat.add_mul, Nat.add_assoc]
    show (r.cells[r.offset + count * r.stride + i * r.stride]?).map r.view = _
    rw [moved, List.getElem?_drop]
    exact holds.cell (count + i) (by omega)

theorem Holds.pull_nil (holds : r.Holds []) : r.pull = (none, r) :=
  if_pos holds.limit_eq

theorem Holds.pull_cons {x : α} (holds : r.Holds (x :: xs)) : r.pull = (some x, r.skip 1) := by
  have first := holds.cell 0 (Nat.zero_lt_succ _)
  rw [Nat.zero_mul, Nat.add_zero, List.getElem?_cons_zero, Option.map_eq_some_iff] at first
  obtain ⟨raw, held, seen⟩ := first
  have some : ¬ r.limit = 0 := by rw [holds.limit_eq]; exact Nat.succ_ne_zero _
  rw [pull, if_neg some, held, ← seen]

theorem Holds.pull (holds : r.Holds xs) : r.pull.1 = xs.head? ∧ r.pull.2.Holds xs.tail := by
  cases xs with
  | nil =>
    rw [holds.pull_nil]
    exact ⟨rfl, holds⟩
  | cons x rest =>
    rw [holds.pull_cons]
    exact ⟨rfl, holds.skip 1⟩

theorem Holds.pullNth (holds : r.Holds xs) (count : Nat) :
    (r.pullNth count).1 = xs[count]? ∧ (r.pullNth count).2.Holds (xs.drop (count + 1)) := by
  have next := (holds.skip count).pull
  rwa [List.head?_drop, List.tail_drop] at next

/-- The cells up to the end of the storage are never fewer than the elements to come. -/
theorem Holds.remaining (holds : r.Holds xs) : r.remaining = xs.length := by
  rw [Reader.remaining, holds.limit_eq]
  refine Nat.min_eq_left ?_
  rcases Nat.eq_zero_or_pos xs.length with none | some
  · rw [none]
    exact Nat.zero_le _
  obtain ⟨last, length⟩ := Nat.exists_eq_add_of_lt some
  rw [Nat.zero_add] at length
  have final := holds.cell last (by omega)
  rw [List.getElem?_eq_getElem (by omega), Option.map_eq_some_iff] at final
  obtain ⟨_, held, _⟩ := final
  obtain ⟨inside, _⟩ := Array.getElem?_eq_some_iff.mp held
  have positive := holds.stride_pos
  rw [length, Nat.le_div_iff_mul_le positive, Nat.succ_mul]
  omega

theorem Holds.take (holds : r.Holds xs) (count : Nat) :
    (r.take count).1 = xs.take count ∧ (r.take count).2.Holds (xs.drop count) := by
  induction count generalizing r xs with
  | zero => exact ⟨rfl, holds⟩
  | succ count ih =>
    rw [Reader.take]
    cases xs with
    | nil =>
      rw [holds.pull_nil]
      exact ⟨rfl, holds⟩
    | cons x rest =>
      obtain ⟨taken, left⟩ := ih (holds.skip 1)
      rw [holds.pull_cons]
      exact ⟨congrArg (x :: ·) taken, left⟩

theorem Holds.toList (holds : r.Holds xs) : r.toList = xs := by
  rw [Reader.toList, holds.limit_eq, (holds.take xs.length).1, List.take_length]

theorem Holds.map (holds : r.Holds xs) (f : α → β) : (r.map f).Holds (xs.map f) where
  stride_pos := holds.stride_pos
  limit_eq := by
    rw [List.length_map]
    exact holds.limit_eq
  cell := by
    intro i inside
    rw [List.length_map] at inside
    rw [List.getElem?_map, ← holds.cell i inside, Option.map_map]
    rfl

theorem ofArray_holds (cells : Array Float) : (ofArray cells).Holds cells.toList where
  stride_pos := Nat.one_pos
  limit_eq := rfl
  cell := by
    intro i _
    show (cells[0 + i * 1]?).map id = _
    rw [Nat.zero_add, Nat.mul_one, Option.map_id, Array.getElem?_toList]
    rfl

end Reader

namespace ReaderStep

variable {α : Type}

/-- The answer to a step in front of the elements of a list, and the elements
that are left behind it. -/
def onList (xs : List α) : ReaderStep → ReaderAnswer α × List α
  | .next => (.element xs.head?, xs.tail)
  | .nth k => (.element xs[k]?, xs.drop (k + 1))
  | .len => (.size xs.length, xs)
  | .sizeHint => (.bounds xs.length (some xs.length), xs)
  | .take k => (.elements (xs.take k), xs.drop k)
  | .rest => (.elements xs, xs)
  | .count => (.size xs.length, xs)
  | .last => (.element xs.getLast?, xs)

/-- The answers to a list of steps in front of the elements of a list. -/
def runOnList (xs : List α) : List ReaderStep → List (ReaderAnswer α)
  | [] => []
  | step :: steps => (step.onList xs).1 :: runOnList (step.onList xs).2 steps

variable {r : Reader α} {xs : List α}

/-- A reader answers a step from the list of what it holds. -/
theorem apply_holds (holds : r.Holds xs) (step : ReaderStep) :
    (step.apply r).1 = (step.onList xs).1 ∧ (step.apply r).2.Holds (step.onList xs).2 := by
  cases step with
  | next =>
    obtain ⟨answer, left⟩ := holds.pull
    exact ⟨congrArg _ answer, left⟩
  | nth k =>
    obtain ⟨answer, left⟩ := holds.pullNth k
    exact ⟨congrArg _ answer, left⟩
  | take k =>
    obtain ⟨answer, left⟩ := holds.take k
    exact ⟨congrArg _ answer, left⟩
  | len => exact ⟨congrArg _ holds.remaining, holds⟩
  | sizeHint =>
    refine ⟨?_, holds⟩
    rw [apply, holds.remaining]
    rfl
  | rest => exact ⟨congrArg _ holds.toList, holds⟩
  | count =>
    refine ⟨?_, holds⟩
    rw [apply, holds.toList]
    rfl
  | last =>
    refine ⟨?_, holds⟩
    rw [apply, holds.toList]
    rfl

/-- Whatever is asked of a reader, its answers are those of the list of what it holds. -/
theorem run_holds (holds : r.Holds xs) (steps : List ReaderStep) : run r steps = runOnList xs steps := by
  induction steps generalizing r xs with
  | nil => rfl
  | cons step rest ih =>
    obtain ⟨answer, left⟩ := apply_holds holds step
    rw [run, runOnList, ← answer, ← ih left]

end ReaderStep

/-- The reader of a buffer holds its elements, each converted once. -/
theorem Buffer.readerAt_holds (b : Buffer) (d : Dimension) :
    (b.readerAt d 0).Holds (b.elements.map fun raw => ⟨b.unit.toCanonical raw⟩) where
  stride_pos := b.layout.stride_pos
  limit_eq := by
    rw [List.length_map, elements_length]
    rfl
  cell := by
    intro i inside
    rw [List.length_map, elements_length] at inside
    have start : b.layout.offset 0 + i * b.layout.stride = b.layout.offset i := by
      rw [Layout.offset, Layout.offset, Nat.zero_mul, Nat.zero_add]
    show (b.cells[b.layout.offset 0 + i * b.layout.stride]?).map _ = _
    rw [start, List.getElem?_map, elements_getElem? inside]
    rfl

end Mensura
