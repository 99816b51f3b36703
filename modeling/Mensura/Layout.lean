import Mensura.Buffer.Error

namespace Mensura

/-- Sizes and cell numbers are below this limit. -/
def sizeLimit : Nat := twoPow 64

/-- Elements at equal distances: how many there are, and how many cells lie
from each to the next. -/
structure Layout where
  len : Nat
  stride : Nat
  stride_pos : 0 < stride
deriving DecidableEq

namespace Layout

def contiguous (len : Nat) : Layout :=
  ⟨len, 1, Nat.one_pos⟩

def isEmpty (layout : Layout) : Bool :=
  layout.len == 0

/-- The cell of an element. -/
def offset (layout : Layout) (index : Nat) : Nat :=
  index * layout.stride

/-- How many cells reach from the first element to the last, both counted. -/
def extent (layout : Layout) : Nat :=
  if layout.len = 0 then 0 else layout.offset (layout.len - 1) + 1

/-- The extent, if it is a size. -/
def required? (layout : Layout) : Option Nat :=
  if layout.extent < sizeLimit then some layout.extent else none

/-- A layout for a storage of `available` cells. An extent that is no size is
reported as the largest size. -/
def strided (len stride available : Nat) : Except BufferError Layout :=
  if pos : 0 < stride then
    let layout : Layout := ⟨len, stride, pos⟩
    match layout.required? with
    | some required =>
      if required ≤ available then .ok layout
      else .error (.invalidLayout len stride required available)
    | none => .error (.invalidLayout len stride (sizeLimit - 1) available)
  else .error .zeroStride

theorem extent_contiguous (len : Nat) : (contiguous len).extent = len := by
  by_cases empty : len = 0
  · rw [extent, if_pos (show (contiguous len).len = 0 from empty), empty]
  · rw [extent, if_neg (show ¬ (contiguous len).len = 0 from empty)]
    show (len - 1) * 1 + 1 = len
    omega

theorem strided_extent_le {len stride available : Nat} {layout : Layout}
    (made : strided len stride available = .ok layout) : layout.extent ≤ available := by
  simp only [strided, required?] at made
  split at made
  next pos =>
    split at made
    next required known =>
      split at known <;> simp only [Option.some.injEq, reduceCtorEq] at known
      split at made
      · cases made
        omega
      · cases made
    next => cases made
  next => cases made

/-- The cells of the elements of a layout lie inside its extent. -/
theorem offset_lt_extent {layout : Layout} {index : Nat} (inside : index < layout.len) :
    layout.offset index < layout.extent := by
  have step : layout.offset index ≤ layout.offset (layout.len - 1) :=
    Nat.mul_le_mul_right _ (by omega)
  rw [extent, if_neg (by omega)]
  omega

end Layout

end Mensura
