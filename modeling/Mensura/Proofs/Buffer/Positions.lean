import Mathlib.Data.List.Forall2
import Mensura.Buffer.Walk
import Mensura.Proofs.Buffer.Addressing
import Mensura.Proofs.Buffer.Reading

namespace Mensura

namespace ElementWalk

variable {α : Type}

/-- The cell of the next element, if there is one. -/
def nextCell (walk : ElementWalk α) : Nat :=
  walk.slots.steps.walk.front +
    if walk.slots.steps.untouched then 0 else walk.slots.steps.gap

/-- The walk has exactly the elements of a list still to come. -/
structure Holds (walk : ElementWalk α) (xs : List α) : Prop where
  limit_eq : walk.slots.limit = xs.length
  cell : ∀ i, i < xs.length →
    (walk.slots.steps.walk.cells[walk.nextCell + i * (walk.slots.steps.gap + 1)]?).map walk.view =
      xs[i]?

variable {walk : ElementWalk α} {xs : List α}

theorem Holds.pull_nil (holds : walk.Holds []) : walk.pull = (none, walk) := by
  have none : walk.slots.limit = 0 := holds.limit_eq
  rw [pull, SlotWalk.next, if_pos none]
  rfl

theorem Holds.pull_cons {x : α} (holds : walk.Holds (x :: xs)) :
    ∃ rest, walk.pull = (some x, rest) ∧ rest.Holds xs := by
  have first := holds.cell 0 (Nat.zero_lt_succ _)
  rw [Nat.zero_mul, Nat.add_zero, List.getElem?_cons_zero, Option.map_eq_some_iff] at first
  obtain ⟨raw, held, seen⟩ := first
  have some : ¬ walk.slots.limit = 0 := by rw [holds.limit_eq]; exact Nat.succ_ne_zero _
  have found : walk.slots.steps.walk.nth
      (if walk.slots.steps.untouched then 0 else walk.slots.steps.gap) =
        (.some raw, ⟨walk.slots.steps.walk.cells, walk.nextCell + 1⟩) := by
    rw [CellWalk.nth]
    rw [nextCell] at held
    rw [held]
    rfl
  refine ⟨⟨⟨⟨⟨walk.slots.steps.walk.cells, walk.nextCell + 1⟩, walk.slots.steps.gap, false⟩,
    walk.slots.limit - 1⟩, walk.view⟩, ?_, ?_, ?_⟩
  · rw [pull, SlotWalk.next, if_neg some, StrideWalk.next, found, ← seen]
    rfl
  · show walk.slots.limit - 1 = xs.length
    rw [holds.limit_eq, List.length_cons, Nat.add_sub_cancel]
  · intro i inside
    have later := holds.cell (i + 1) (Nat.succ_lt_succ inside)
    have moved : walk.nextCell + 1 + walk.slots.steps.gap + i * (walk.slots.steps.gap + 1) =
        walk.nextCell + (i + 1) * (walk.slots.steps.gap + 1) := by
      rw [Nat.succ_mul]
      omega
    show (walk.slots.steps.walk.cells[walk.nextCell + 1 + walk.slots.steps.gap +
      i * (walk.slots.steps.gap + 1)]?).map walk.view = _
    rw [moved, later, List.getElem?_cons_succ]

theorem Holds.pull (holds : walk.Holds xs) :
    walk.pull.1 = xs.head? ∧ walk.pull.2.Holds xs.tail := by
  cases xs with
  | nil =>
    rw [holds.pull_nil]
    exact ⟨rfl, holds⟩
  | cons x rest =>
    obtain ⟨left, pulled, later⟩ := holds.pull_cons
    rw [pulled]
    exact ⟨rfl, later⟩

theorem Holds.pullNth (holds : walk.Holds xs) (count : Nat) :
    (pullNth count walk).1 = xs[count]? ∧ (pullNth count walk).2.Holds (xs.drop (count + 1)) := by
  induction count generalizing walk xs with
  | zero =>
    have next := holds.pull
    rwa [List.head?_eq_getElem?, ← List.drop_one] at next
  | succ count ih =>
    rw [ElementWalk.pullNth]
    cases xs with
    | nil =>
      rw [holds.pull_nil]
      exact ⟨rfl, holds⟩
    | cons x rest =>
      obtain ⟨left, pulled, later⟩ := holds.pull_cons
      rw [pulled]
      exact ih later

theorem Holds.take (holds : walk.Holds xs) (count : Nat) :
    (take count walk).1 = xs.take count ∧ (take count walk).2.Holds (xs.drop count) := by
  induction count generalizing walk xs with
  | zero => exact ⟨rfl, holds⟩
  | succ count ih =>
    rw [ElementWalk.take]
    cases xs with
    | nil =>
      rw [holds.pull_nil]
      exact ⟨rfl, holds⟩
    | cons x rest =>
      obtain ⟨left, pulled, later⟩ := holds.pull_cons
      obtain ⟨taken, behind⟩ := ih later
      rw [pulled]
      exact ⟨congrArg (x :: ·) taken, behind⟩

theorem Holds.toList (holds : walk.Holds xs) : walk.toList = xs := by
  induction xs generalizing walk with
  | nil =>
    rw [ElementWalk.toList]
    split
    · rfl
    · rename_i pulled
      cases holds.pull_nil.symm.trans pulled
  | cons x rest ih =>
    obtain ⟨left, pulled, later⟩ := holds.pull_cons
    rw [ElementWalk.toList]
    split
    · rename_i none
      cases none.symm.trans pulled
    · rename_i again
      cases again.symm.trans pulled
      rw [ih later]

/-- The cells at the right distance are never fewer than the elements to come,
before the first of them is touched and afterwards. -/
theorem Holds.length_le_count (holds : walk.Holds xs) :
    xs.length ≤ walk.slots.steps.count walk.slots.steps.walk.length := by
  rcases Nat.eq_zero_or_pos xs.length with none | some
  · rw [none]
    exact Nat.zero_le _
  obtain ⟨last, length⟩ := Nat.exists_eq_add_of_lt some
  rw [Nat.zero_add] at length
  have final := holds.cell last (by omega)
  rw [List.getElem?_eq_getElem (by omega), Option.map_eq_some_iff] at final
  obtain ⟨_, held, _⟩ := final
  obtain ⟨inside, _⟩ := Array.getElem?_eq_some_iff.mp held
  have positive : 0 < walk.slots.steps.gap + 1 := Nat.succ_pos _
  rw [nextCell] at inside
  rw [StrideWalk.count, CellWalk.length, length]
  cases touched : walk.slots.steps.untouched with
  | true =>
    rw [touched, if_pos rfl, Nat.add_zero] at inside
    rw [if_pos rfl, if_neg (by omega), Nat.add_comm last 1]
    refine Nat.add_le_add_left ?_ 1
    rw [Nat.le_div_iff_mul_le positive]
    omega
  | false =>
    rw [touched, if_neg Bool.false_ne_true] at inside
    rw [if_neg Bool.false_ne_true, Nat.le_div_iff_mul_le positive, Nat.succ_mul]
    omega

theorem Holds.sizeHint (holds : walk.Holds xs) : walk.sizeHint = (xs.length, some xs.length) := by
  have enough := holds.length_le_count
  rw [ElementWalk.sizeHint, SlotWalk.sizeHint, holds.limit_eq]
  by_cases empty : xs.length = 0
  · rw [if_pos empty, empty]
  · rw [if_neg empty, StrideWalk.sizeHint]
    dsimp only
    rw [Nat.min_eq_right enough, if_neg (Nat.not_lt.mpr enough)]

theorem Holds.length? (holds : walk.Holds xs) : walk.length? = some xs.length := by
  rw [ElementWalk.length?, holds.sizeHint]
  exact if_pos rfl

/-- A walk answers a step from the list of what it holds, and never with a fault. -/
theorem answer_holds (holds : walk.Holds xs) (step : ReaderStep) :
    (walk.answer step).1 = some (step.onList xs).1 ∧ (walk.answer step).2.Holds (step.onList xs).2 := by
  cases step with
  | next =>
    obtain ⟨answer, left⟩ := holds.pull
    exact ⟨congrArg (some ∘ ReaderAnswer.element) answer, left⟩
  | nth k =>
    obtain ⟨answer, left⟩ := holds.pullNth k
    exact ⟨congrArg (some ∘ ReaderAnswer.element) answer, left⟩
  | take k =>
    obtain ⟨answer, left⟩ := holds.take k
    exact ⟨congrArg (some ∘ ReaderAnswer.elements) answer, left⟩
  | len =>
    refine ⟨?_, holds⟩
    rw [answer, holds.length?]
    rfl
  | sizeHint =>
    refine ⟨?_, holds⟩
    rw [answer, holds.sizeHint]
    rfl
  | rest | count | last =>
    refine ⟨?_, holds⟩
    rw [answer, holds.toList]
    rfl

end ElementWalk

namespace Buffer

variable {b : Buffer} {d : Dimension}

theorem walk_ok (known : b.unit.dimension = d) :
    ∃ walk, b.walk d = .ok walk ∧
      walk.Holds (b.elements.map fun raw => (⟨b.unit.toCanonical raw⟩ : Quantity d)) := by
  refine ⟨_, by rw [Buffer.walk, checkDimension_ok known]; rfl, ?_, ?_⟩
  · rw [List.length_map, elements_length]
  · intro i inside
    rw [List.length_map, elements_length] at inside
    have distance : b.layout.stride - 1 + 1 = b.layout.stride := Nat.sub_add_cancel b.layout.stride_pos
    show (b.cells[0 + 0 + i * (b.layout.stride - 1 + 1)]?).map _ = _
    rw [distance, Nat.add_zero, Nat.zero_add, List.getElem?_map, elements_getElem? inside]
    rfl

end Buffer

namespace ReaderStep

variable {α : Type}

/-- The answer to a step at a position in front of an element of a list, or behind
all of them, and the position behind the step. -/
def atPosition (xs : List α) (position : Nat) : ReaderStep → ReaderAnswer α × Nat
  | .next =>
    if position < xs.length then (.element xs[position]?, position + 1) else (.element none, position)
  | .nth k =>
    if position + k < xs.length then (.element xs[position + k]?, position + k + 1)
    else (.element none, xs.length)
  | .len => (.size (xs.length - position), position)
  | .sizeHint => (.bounds (xs.length - position) (some (xs.length - position)), position)
  | .take k => (.elements ((xs.drop position).take k), min (position + k) xs.length)
  | .rest => (.elements (xs.drop position), position)
  | .count => (.size (xs.length - position), position)
  | .last => (.element (xs.drop position).getLast?, position)

/-- A position stands for the elements behind it. -/
theorem onList_drop (xs : List α) {position : Nat} (inside : position ≤ xs.length) (step : ReaderStep) :
    step.onList (xs.drop position) =
        ((step.atPosition xs position).1, xs.drop (step.atPosition xs position).2) ∧
      (step.atPosition xs position).2 ≤ xs.length := by
  cases step with
  | next =>
    rw [onList, atPosition, List.head?_drop, List.tail_drop]
    split
    · exact ⟨rfl, by omega⟩
    · rw [List.getElem?_eq_none (by omega), List.drop_eq_nil_of_le (by omega),
        List.drop_eq_nil_of_le (by omega)]
      exact ⟨rfl, inside⟩
  | nth k =>
    rw [onList, atPosition, List.getElem?_drop, List.drop_drop, ← Nat.add_assoc]
    split
    · exact ⟨rfl, by omega⟩
    · rw [List.getElem?_eq_none (by omega), List.drop_eq_nil_of_le (by omega),
        List.drop_eq_nil_of_le (Nat.le_refl _)]
      exact ⟨rfl, Nat.le_refl _⟩
  | take k =>
    rw [onList, atPosition, List.drop_drop]
    refine ⟨?_, Nat.min_le_right _ _⟩
    by_cases fits : position + k ≤ xs.length
    · rw [Nat.min_eq_left fits]
    · have past : xs.length ≤ position + k := by omega
      rw [Nat.min_eq_right past, List.drop_eq_nil_of_le past, List.drop_eq_nil_of_le (Nat.le_refl _)]
  | len | sizeHint | count =>
    rw [onList, atPosition, List.length_drop]
    exact ⟨rfl, inside⟩
  | rest | last => exact ⟨rfl, inside⟩

end ReaderStep

/-- A call while there are several iterators: a step of one of them, or a new one
that is a clone of it. They are numbered in the order in which they were made. -/
inductive IteratorCall where
  | ask (which : Nat) (step : ReaderStep)
  | clone (which : Nat)

namespace IteratorCall

section Run

variable {σ τ α β : Type}

/-- The answer to a call and the iterators behind it. A clone has no answer, and
neither has a call of an iterator that was never made. -/
def apply (answer : σ → ReaderStep → α × σ) (states : List σ) : IteratorCall → Option α × List σ
  | .ask which step =>
    match states[which]? with
    | some state => (some (answer state step).1, states.set which (answer state step).2)
    | none => (none, states)
  | .clone which =>
    match states[which]? with
    | some state => (none, states ++ [state])
    | none => (none, states)

/-- The answers to a list of calls, and the iterators behind them. -/
def run (answer : σ → ReaderStep → α × σ) (states : List σ) : List IteratorCall → List (Option α) × List σ
  | [] => ([], states)
  | call :: calls =>
    let (first, states) := call.apply answer states
    let (rest, states) := run answer states calls
    (first :: rest, states)

theorem forall₂_getElem? {R : σ → τ → Prop} {states : List σ} {others : List τ}
    (related : List.Forall₂ R states others) (which : Nat) :
    (states[which]? = none ∧ others[which]? = none) ∨
      ∃ state other, states[which]? = some state ∧ others[which]? = some other ∧ R state other := by
  induction related generalizing which with
  | nil => exact Or.inl ⟨rfl, rfl⟩
  | cons first _ ih =>
    cases which with
    | zero => exact Or.inr ⟨_, _, rfl, rfl, first⟩
    | succ which => exact ih which

theorem forall₂_set {R : σ → τ → Prop} {states : List σ} {others : List τ}
    (related : List.Forall₂ R states others) {state : σ} {other : τ} (new : R state other) (which : Nat) :
    List.Forall₂ R (states.set which state) (others.set which other) := by
  induction related generalizing which with
  | nil => exact .nil
  | cons first rest ih =>
    cases which with
    | zero => exact .cons new rest
    | succ which => exact .cons first (ih which)

variable {answer : σ → ReaderStep → α × σ} {other : τ → ReaderStep → β × τ} {R : σ → τ → Prop}
  {seen : β → α}

/-- A call of iterators that stand for each other keeps them so. -/
theorem apply_related (keeps : ∀ s t step, R s t →
      (answer s step).1 = seen (other t step).1 ∧ R (answer s step).2 (other t step).2)
    {states : List σ} {others : List τ} (related : List.Forall₂ R states others) (call : IteratorCall) :
    (call.apply answer states).1 = (call.apply other others).1.map seen ∧
      List.Forall₂ R (call.apply answer states).2 (call.apply other others).2 := by
  cases call with
  | ask which step =>
    rcases forall₂_getElem? related which with ⟨none, none'⟩ | ⟨state, state', held, held', same⟩
    · rw [apply, apply, none, none']
      exact ⟨rfl, related⟩
    · obtain ⟨answered, later⟩ := keeps state state' step same
      rw [apply, apply, held, held']
      exact ⟨congrArg some answered, forall₂_set related later which⟩
  | clone which =>
    rcases forall₂_getElem? related which with ⟨none, none'⟩ | ⟨state, state', held, held', same⟩
    · rw [apply, apply, none, none']
      exact ⟨rfl, related⟩
    · rw [apply, apply, held, held']
      exact ⟨rfl, List.rel_append related (.cons same .nil)⟩

theorem run_related (keeps : ∀ s t step, R s t →
      (answer s step).1 = seen (other t step).1 ∧ R (answer s step).2 (other t step).2)
    {states : List σ} {others : List τ} (related : List.Forall₂ R states others)
    (calls : List IteratorCall) :
    (run answer states calls).1 = (run other others calls).1.map (Option.map seen) ∧
      List.Forall₂ R (run answer states calls).2 (run other others calls).2 := by
  induction calls generalizing states others with
  | nil => exact ⟨rfl, related⟩
  | cons call rest ih =>
    obtain ⟨first, later⟩ := apply_related keeps related call
    obtain ⟨answers, final⟩ := ih later
    rw [run, run, List.map_cons, ← first, ← answers]
    exact ⟨rfl, final⟩

end Run

section Positions

variable {α : Type} {xs : List α}

/-- Iterators that each answer from the elements behind a position answer every
call from these positions, and the positions stay within the list. -/
theorem run_positions {σ β : Type} {answer : σ → ReaderStep → β × σ} {f : ReaderAnswer α → β}
    {Holds : σ → List α → Prop}
    (holds_answer : ∀ {s left}, Holds s left → ∀ step : ReaderStep,
      (answer s step).1 = f (step.onList left).1 ∧ Holds (answer s step).2 (step.onList left).2)
    {start : σ} (holds : Holds start xs) (calls : List IteratorCall) :
    (run answer [start] calls).1 =
        (run (ReaderStep.atPosition xs) [0] calls).1.map (Option.map f) ∧
      ∀ position ∈ (run (ReaderStep.atPosition xs) [0] calls).2, position ≤ xs.length := by
  have keeps (s : σ) (position : Nat) (step : ReaderStep)
      (same : position ≤ xs.length ∧ Holds s (xs.drop position)) :
      (answer s step).1 = f (step.atPosition xs position).1 ∧
        (step.atPosition xs position).2 ≤ xs.length ∧
          Holds (answer s step).2 (xs.drop (step.atPosition xs position).2) := by
    obtain ⟨answered, later⟩ := holds_answer same.2 step
    obtain ⟨placed, inside⟩ := ReaderStep.onList_drop xs same.1 step
    rw [placed] at answered later
    exact ⟨answered, inside, later⟩
  obtain ⟨answers, related⟩ := run_related keeps
    (.cons ⟨Nat.zero_le _, holds⟩ .nil : List.Forall₂ _ [start] [0]) calls
  exact ⟨answers, (List.forall₂_and_left _ _ |>.mp related.flip).1⟩

end Positions

end IteratorCall

namespace Buffer

/-- The iterators of a buffer are positions in the list of its elements, whatever
is asked of them and of their clones, and none of the answers is a fault. -/
theorem iterators_are_positions {b : Buffer} {d : Dimension} (known : b.unit.dimension = d) :
    ∃ r walk xs, b.reader d = .ok r ∧ b.walk d = .ok walk ∧ xs.length = b.size ∧
      (∀ index, index < b.size → ∃ raw, b.cells[index * b.layout.stride]? = some raw ∧
        xs[index]? = some (⟨b.unit.toCanonical raw⟩ : Quantity d)) ∧
      ∀ calls, (IteratorCall.run ReaderStep.apply [r] calls).1 =
          (IteratorCall.run (ReaderStep.atPosition xs) [0] calls).1 ∧
        (IteratorCall.run ElementWalk.answer [walk] calls).1 =
          (IteratorCall.run (ReaderStep.atPosition xs) [0] calls).1.map (Option.map some) ∧
        ∀ position ∈ (IteratorCall.run (ReaderStep.atPosition xs) [0] calls).2,
          position ≤ b.size := by
  obtain ⟨walk, opened, walked⟩ := walk_ok known
  have size : (b.elements.map fun raw => (⟨b.unit.toCanonical raw⟩ : Quantity d)).length = b.size := by
    rw [List.length_map, elements_length]
  refine ⟨b.readerAt d 0, walk, _, reader_ok known, opened, size, ?_, fun calls => ?_⟩
  · intro index inside
    obtain ⟨raw, held⟩ := b.element_exists inside
    refine ⟨raw, (elements_getElem? inside).symm.trans held, ?_⟩
    rw [List.getElem?_map, held]
    rfl
  · obtain ⟨answers, inside⟩ := IteratorCall.run_positions
      (f := id) ReaderStep.apply_holds (b.readerAt_holds d) calls
    obtain ⟨walkAnswers, _⟩ := IteratorCall.run_positions
      ElementWalk.answer_holds walked calls
    rw [size] at inside
    rw [Option.map_id_fun, List.map_id] at answers
    exact ⟨answers, walkAnswers, inside⟩

/-- A clone that is taken past the end leaves the original where it is. -/
theorem iterators_are_positions_apart :
    apart.unit.dimension = .mass ∧ ∃ r walk, apart.reader .mass = .ok r ∧ apart.walk .mass = .ok walk ∧
      ∃ x y, apart.cells[0]? = some x ∧ apart.cells[4]? = some y ∧
        (IteratorCall.run ReaderStep.apply [r] [.ask 0 .next, .clone 0, .ask 1 (.nth (sizeLimit - 1)),
            .ask 1 .len, .ask 0 .len, .ask 0 .rest]).1 =
          [some (.element (some (⟨apart.unit.toCanonical x⟩ : Quantity .mass))), none,
            some (.element none), some (.size 0), some (.size 1),
            some (.elements [⟨apart.unit.toCanonical y⟩])] := by
  have known : apart.unit.dimension = .mass := rfl
  obtain ⟨r, walk, xs, opened, walked, size, held, ran⟩ := iterators_are_positions known
  obtain ⟨first, second, rfl⟩ := List.length_eq_two.mp size
  obtain ⟨x, atFirst, seenFirst⟩ := held 0 (by decide)
  obtain ⟨y, atSecond, seenSecond⟩ := held 1 (by decide)
  cases Option.some.inj seenFirst
  cases Option.some.inj seenSecond
  exact ⟨known, r, walk, opened, walked, x, y, atFirst, atSecond, (ran _).1.trans rfl⟩

end Buffer

end Mensura
