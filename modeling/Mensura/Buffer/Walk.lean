import Mensura.Buffer.Script

namespace Mensura

/-- The cells of a storage from one on, each in its turn. -/
structure CellWalk where
  cells : Array Float
  front : Nat

namespace CellWalk

def length (walk : CellWalk) : Nat :=
  walk.cells.size - walk.front

/-- The cell behind `count` others, which are passed. If the cells do not last
that long, none of them are left. -/
def nth (walk : CellWalk) (count : Nat) : Option Float × CellWalk :=
  match walk.cells[walk.front + count]? with
  | some raw => (some raw, { walk with front := walk.front + count + 1 })
  | none => (none, { walk with front := walk.cells.size })

end CellWalk

/-- Cells at equal distances: the one in front as long as it is still to come, and
from then on each one behind `gap` others. -/
structure StrideWalk where
  walk : CellWalk
  gap : Nat
  untouched : Bool

namespace StrideWalk

def next (steps : StrideWalk) : Option Float × StrideWalk :=
  let (raw, walk) := steps.walk.nth (if steps.untouched then 0 else steps.gap)
  (raw, { steps with walk := walk, untouched := false })

/-- How many of `length` cells are at the right distance. -/
def count (steps : StrideWalk) (length : Nat) : Nat :=
  if steps.untouched then if length = 0 then 0 else 1 + (length - 1) / (steps.gap + 1)
  else length / (steps.gap + 1)

/-- The least and the greatest number of cells that can still come. -/
def sizeHint (steps : StrideWalk) : Nat × Option Nat :=
  (steps.count steps.walk.length, some (steps.count steps.walk.length))

end StrideWalk

/-- Cells at equal distances, but no more than `limit` of them. -/
structure SlotWalk where
  steps : StrideWalk
  limit : Nat

namespace SlotWalk

def next (slots : SlotWalk) : Option Float × SlotWalk :=
  if slots.limit = 0 then (none, slots)
  else
    let (raw, steps) := slots.steps.next
    (raw, ⟨steps, slots.limit - 1⟩)

def sizeHint (slots : SlotWalk) : Nat × Option Nat :=
  if slots.limit = 0 then (0, some 0)
  else
    let (lower, upper) := slots.steps.sizeHint
    (min lower slots.limit,
      match upper with
      | some n => if n < slots.limit then some n else some slots.limit
      | none => some slots.limit)

theorem next_limit_lt {slots rest : SlotWalk} {raw : Float}
    (found : slots.next = (some raw, rest)) : rest.limit < slots.limit := by
  unfold next at found
  split at found
  · cases found
  · have left : slots.limit - 1 = rest.limit := congrArg (fun result => result.2.limit) found
    omega

end SlotWalk

/-- The elements of a buffer as a walk over its slots. Each raw number goes
through `view` when it is reached. -/
structure ElementWalk (α : Type) where
  slots : SlotWalk
  view : Float → α

namespace ElementWalk

variable {α : Type}

def pull (walk : ElementWalk α) : Option α × ElementWalk α :=
  match walk.slots.next with
  | (raw, slots) => (raw.map walk.view, { walk with slots := slots })

theorem pull_limit_lt {walk rest : ElementWalk α} {x : α} (found : walk.pull = (some x, rest)) :
    rest.slots.limit < walk.slots.limit := by
  unfold pull at found
  split at found
  rename_i raw slots next
  obtain ⟨seen, rfl⟩ := Prod.mk.inj found
  obtain ⟨_, rfl, _⟩ := Option.map_eq_some_iff.mp seen
  exact SlotWalk.next_limit_lt next

/-- Pulls `count` elements, unless there are none left before that, and then one more. -/
def pullNth : Nat → ElementWalk α → Option α × ElementWalk α
  | 0, walk => walk.pull
  | count + 1, walk =>
    match walk.pull with
    | (none, walk) => (none, walk)
    | (some _, walk) => pullNth count walk

/-- Pulls elements until there are `count` of them or none left. -/
def take : Nat → ElementWalk α → List α × ElementWalk α
  | 0, walk => ([], walk)
  | count + 1, walk =>
    match walk.pull with
    | (none, walk) => ([], walk)
    | (some x, walk) =>
      let (xs, walk) := take count walk
      (x :: xs, walk)

/-- Pulls elements until none are left. -/
def toList (walk : ElementWalk α) : List α :=
  match _found : walk.pull with
  | (none, _) => []
  | (some x, rest) => x :: rest.toList
termination_by walk.slots.limit
decreasing_by exact pull_limit_lt _found

def sizeHint (walk : ElementWalk α) : Nat × Option Nat :=
  walk.slots.sizeHint

/-- How many elements are still to come. There is no answer, but a fault, where
the two bounds are not the same. -/
def length? (walk : ElementWalk α) : Option Nat :=
  if walk.sizeHint.2 = some walk.sizeHint.1 then some walk.sizeHint.1 else none

/-- The answer to a step, unless it is a fault, and the walk behind it. -/
def answer (walk : ElementWalk α) : ReaderStep → Option (ReaderAnswer α) × ElementWalk α
  | .next => (some (.element walk.pull.1), walk.pull.2)
  | .nth k => (some (.element (pullNth k walk).1), (pullNth k walk).2)
  | .len => (walk.length?.map .size, walk)
  | .sizeHint => (some (.bounds walk.sizeHint.1 walk.sizeHint.2), walk)
  | .take k => (some (.elements (take k walk).1), (take k walk).2)
  | .rest => (some (.elements walk.toList), walk)
  | .count => (some (.size walk.toList.length), walk)
  | .last => (some (.element walk.toList.getLast?), walk)

end ElementWalk

/-- The walk over the elements of a buffer. Its dimension is compared once, here. -/
def Buffer.walk (b : Buffer) (d : Dimension) : Except BufferError (ElementWalk (Quantity d)) := do
  b.checkDimension (.index 0) d
  return {
    slots := ⟨⟨⟨b.cells, 0⟩, b.layout.stride - 1, true⟩, b.size⟩
    view := fun raw => ⟨b.unit.toCanonical raw⟩ }

end Mensura
