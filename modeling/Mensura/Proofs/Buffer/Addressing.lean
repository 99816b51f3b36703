import Mensura.Dimension.Named
import Mensura.Proofs.Buffer.Access

namespace Mensura

namespace Layout

/-- The cells from the first element to the last, in unbounded numbers. -/
def exactExtent (len stride : Nat) : Nat :=
  (len - 1) * stride + 1

theorem extent_eq (layout : Layout) :
    layout.extent = if layout.len = 0 then 0 else exactExtent layout.len layout.stride :=
  rfl

/-- A number, if it is a size. -/
def size? (n : Nat) : Option Nat :=
  if n < sizeLimit then some n else none

theorem size?_of_lt {n : Nat} (sized : n < sizeLimit) : size? n = some n :=
  if_pos sized

theorem size?_of_not_lt {n : Nat} (large : ¬ n < sizeLimit) : size? n = none :=
  if_neg large

/-- The extent computed with sizes only. The product may be none, and so may
the number behind it. -/
def sizedExtent? (layout : Layout) : Option Nat :=
  match layout.len with
  | 0 => some 0
  | last + 1 => (size? (last * layout.stride)).bind fun cell => size? (cell + 1)

theorem required?_eq_sizedExtent? (layout : Layout) : layout.required? = layout.sizedExtent? := by
  obtain ⟨len, stride, pos⟩ := layout
  cases len with
  | zero => rfl
  | succ last =>
    have extent : Layout.extent ⟨last + 1, stride, pos⟩ = last * stride + 1 := by
      rw [extent_eq, if_neg (Nat.succ_ne_zero last), exactExtent, Nat.add_sub_cancel]
    rw [required?, extent]
    show size? (last * stride + 1) = (size? (last * stride)).bind fun cell => size? (cell + 1)
    by_cases product : last * stride < sizeLimit
    · rw [size?_of_lt product, Option.bind_some]
    · rw [size?_of_not_lt product, size?_of_not_lt (by omega), Option.bind_none]

/-- Which layouts are made for a storage, and what is said of the others. An
extent that is no size is reported as the largest size. -/
theorem strided_eq {len stride available : Nat} (room : available < sizeLimit) :
    strided len stride available =
      if pos : 0 < stride then
        if len = 0 ∨ exactExtent len stride ≤ available then .ok ⟨len, stride, pos⟩
        else .error (.invalidLayout len stride
          (min (exactExtent len stride) (sizeLimit - 1)) available)
      else .error .zeroStride := by
  unfold strided
  by_cases pos : 0 < stride
  · rw [dif_pos pos, dif_pos pos]
    dsimp only
    rw [required?, extent_eq]
    dsimp only
    by_cases empty : len = 0
    · have none : 0 < sizeLimit := by omega
      rw [if_pos empty, if_pos none, if_pos (Or.inl empty)]
      exact if_pos (Nat.zero_le available)
    · rw [if_neg empty]
      by_cases sized : exactExtent len stride < sizeLimit
      · have exact : min (exactExtent len stride) (sizeLimit - 1) = exactExtent len stride := by omega
        rw [if_pos sized, exact]
        by_cases fits : exactExtent len stride ≤ available
        · rw [if_pos (Or.inr fits)]
          exact if_pos fits
        · rw [if_neg (by omega : ¬ (len = 0 ∨ exactExtent len stride ≤ available))]
          exact if_neg fits
      · have largest : min (exactExtent len stride) (sizeLimit - 1) = sizeLimit - 1 := by omega
        rw [if_neg sized, if_neg (by omega : ¬ (len = 0 ∨ exactExtent len stride ≤ available)), largest]
  · rw [dif_neg pos, dif_neg pos]

theorem strided_shape {len stride available : Nat} {layout : Layout}
    (made : strided len stride available = .ok layout) : layout.len = len ∧ layout.stride = stride := by
  simp only [strided] at made
  split at made
  · split at made
    · split at made
      · cases made
        exact ⟨rfl, rfl⟩
      · cases made
    · cases made
  · cases made

/-- The cell of an element as a product of two words of 64 bits, which wraps. -/
def wordOffset (layout : Layout) (index : Nat) : Nat :=
  (UInt64.ofNat index * UInt64.ofNat layout.stride).toNat

theorem wordOffset_eq {layout : Layout} {index : Nat} (sized : layout.offset index < sizeLimit) :
    layout.wordOffset index = layout.offset index := by
  rw [wordOffset, UInt64.toNat_mul, UInt64.toNat_ofNat', UInt64.toNat_ofNat', ← Nat.mul_mod]
  exact Nat.mod_eq_of_lt sized

theorem offset_strictMono (layout : Layout) {i j : Nat} (before : i < j) :
    layout.offset i < layout.offset j :=
  Nat.mul_lt_mul_of_pos_right before layout.stride_pos

end Layout

namespace Buffer

/-- The buffers that can be made over a storage. -/
inductive Over (cells : Array Float) (unit : MeasureUnit) : Buffer → Prop
  | whole : Over cells unit (whole cells unit)
  | strided {len stride : Nat} {b : Buffer} : strided cells len stride unit = .ok b → Over cells unit b

theorem strided_eq_ok {cells : Array Float} {len stride : Nat} {unit : MeasureUnit} {b : Buffer}
    (made : strided cells len stride unit = .ok b) :
    b.cells = cells ∧ b.unit = unit ∧ Layout.strided len stride cells.size = .ok b.layout := by
  unfold strided at made
  split at made
  · rename_i layout known
    cases made
    exact ⟨rfl, rfl, known⟩
  · cases made

theorem Over.cells_eq {cells : Array Float} {unit : MeasureUnit} {b : Buffer}
    (view : Over cells unit b) : b.cells = cells := by
  cases view with
  | whole => rfl
  | strided made => exact (strided_eq_ok made).1

/-- The cell of an element is where it should be: its number does not wrap, it
is a cell of the storage, and reading and writing get to it. -/
structure Reached (b : Buffer) (index : Nat) : Prop where
  sized : index * b.layout.stride < sizeLimit
  word : b.layout.wordOffset index = index * b.layout.stride
  inside : index * b.layout.stride < b.cells.size
  later : ∀ next, index < next → b.layout.offset index < b.layout.offset next
  read : ∃ raw, b.cells[b.layout.wordOffset index]? = some raw ∧
    ∀ d, b.read d index = .ok ⟨b.unit.toCanonical raw⟩
  set : ∀ d (q : Quantity d), b.unit.dimension = d →
    (b.set index q).1 = .ok () ∧
      (b.set index q).2.cells[b.layout.wordOffset index]? = some (b.unit.fromCanonical q.value)

theorem reached {b : Buffer} (room : b.cells.size < sizeLimit) {index : Nat} (inside : index < b.size) :
    b.Reached index := by
  have cell := offset_lt inside
  have sized := Nat.lt_trans cell room
  have word := Layout.wordOffset_eq sized
  obtain ⟨raw, held⟩ := b.element_exists inside
  refine ⟨sized, word, cell, fun _ before => b.layout.offset_strictMono before, ⟨raw, ?_, ?_⟩, ?_⟩
  · rw [word]
    exact (elements_getElem? inside).symm.trans held
  · exact fun d => read_element held
  · intro d q known
    rw [set_element known inside, word]
    exact ⟨rfl, put_own_cell _ inside⟩

end Buffer

/-- Layouts are checked exactly, up to the largest size, and every element of a
buffer that is made lies in a cell of its own inside the storage. -/
theorem Layout.addressing_exact (available : Nat) (room : available < sizeLimit) :
    (∀ len stride, strided len stride available =
      if pos : 0 < stride then
        if len = 0 ∨ (len - 1) * stride + 1 ≤ available then .ok ⟨len, stride, pos⟩
        else .error (.invalidLayout len stride
          (min ((len - 1) * stride + 1) (sizeLimit - 1)) available)
      else .error .zeroStride) ∧
    (∀ layout : Layout, layout.required? = layout.sizedExtent?) ∧
    ∀ cells unit b, cells.size = available → Buffer.Over cells unit b →
      ∀ index, index < b.size → b.Reached index := by
  refine ⟨fun len stride => strided_eq room, required?_eq_sizedExtent?, ?_⟩
  intro cells unit b size view index inside
  refine Buffer.reached ?_ inside
  rw [view.cells_eq, size]
  exact room

/-- Two elements in six cells, the last of which is behind both. -/
def Buffer.apart : Buffer :=
  ⟨#[1.0, 9.0, 9.0, 9.0, 2.0, 9.0], ⟨2, 4, by decide⟩, .canonical .mass, by decide⟩

theorem Layout.addressing_exact_apart :
    6 < sizeLimit ∧ Layout.strided 2 4 6 = .ok Buffer.apart.layout ∧
      Layout.strided (sizeLimit - 1) 2 6 =
        .error (.invalidLayout (sizeLimit - 1) 2 (sizeLimit - 1) 6) ∧
      Buffer.apart.cells.size = 6 ∧
      Buffer.Over Buffer.apart.cells (.canonical .mass) Buffer.apart ∧
      1 < Buffer.apart.size ∧ Buffer.apart.Reached 1 := by
  have room : 6 < sizeLimit := by decide
  have view : Buffer.Over Buffer.apart.cells (.canonical .mass) Buffer.apart :=
    .strided (show Buffer.strided _ 2 4 _ = _ from rfl)
  have inside : 1 < Buffer.apart.size := by decide
  obtain ⟨checked, _, reached⟩ := addressing_exact 6 room
  exact ⟨room, checked 2 4, checked (sizeLimit - 1) 2, rfl, view, inside,
    reached _ _ _ rfl view 1 inside⟩

end Mensura
