import Mensura.Proofs.Buffer.CursorRun
import Mensura.Proofs.Buffer.Refinement
import Mensura.Proofs.Buffer.WritableAccess

namespace Mensura

namespace Buffer

variable {b c : Buffer} {d : Dimension}

theorem eq_of_cells (layout : b.layout = c.layout) (unit : b.unit = c.unit)
    (cells : b.cells = c.cells) : b = c := by
  obtain ⟨_, _, _, _⟩ := b
  obtain ⟨_, _, _, _⟩ := c
  cases layout
  cases unit
  cases cells
  rfl

theorem put_comm {i j : Nat} (apart : i ≠ j) (x y : Float) :
    (b.put i x).put j y = (b.put j y).put i x := by
  have cells : b.layout.offset i ≠ b.layout.offset j := mt Layout.offset_inj.mp apart
  exact eq_of_cells rfl rfl (Array.setIfInBounds_comm x y cells)

/-- What is read at an index depends on the unit, the size and the number that
is held there. -/
theorem get_congr {index : Nat} (unit : b.unit = c.unit) (size : b.size = c.size)
    (held : b.elements[index]? = c.elements[index]?) (d : Dimension) :
    b.get d index = c.get d index := by
  by_cases known : b.unit.dimension = d
  · have known' : c.unit.dimension = d := unit ▸ known
    by_cases inside : index < b.size
    · obtain ⟨raw, here⟩ := b.element_exists inside
      rw [get_element known here, get_element known' (held ▸ here), unit]
    · have behind : b.size ≤ index := Nat.not_lt.mp inside
      rw [get_behind known behind, get_behind known' (size ▸ behind), size]
  · rw [get_foreign known, get_foreign (unit ▸ known), unit]

end Buffer

namespace WritableBuffer

variable {w : WritableBuffer} {d : Dimension} {index : Nat}

/-- An element that was replaced reads as its new number, and every other one as
it did before. -/
theorem get_put_own (known : w.unit.dimension = d) (inside : index < w.size) (raw : Float) :
    (w.put index raw).get d index = .ok ⟨raw * w.unit.scale⟩ := by
  have held : (w.toBuffer.put index raw).elements[index]? = some raw := by
    rw [Buffer.put_elements, List.getElem?_set_self (by simpa using inside)]
  exact Buffer.get_element (b := w.toBuffer.put index raw) known held

theorem get_put_other {other : Nat} (apart : other ≠ index) (raw : Float) (d : Dimension) :
    (w.put index raw).get d other = w.get d other := by
  have held : (w.toBuffer.put index raw).elements[other]? = w.elements[other]? := by
    rw [Buffer.put_elements, List.getElem?_set_ne apart.symm]
  exact Buffer.get_congr (b := w.toBuffer.put index raw) (c := w.toBuffer) rfl rfl held d

/-- All that a call can do. A value is stored as a number of the unit, its
quotient by the scale, and is read back as the product of the two. The dimension
is compared before the index, and a call that is refused changes nothing. -/
inductive SetEffect (w : WritableBuffer) {d : Dimension} (index : Nat) (q : Quantity d) :
    Except BufferError Unit × WritableBuffer → Prop
  | stored {after : WritableBuffer} : w.unit.dimension = d → index < w.size →
      w.toBuffer.Stores after.toBuffer index [q.value / w.unit.scale] →
      after.get d index = .ok ⟨q.value / w.unit.scale * w.unit.scale⟩ →
      (∀ other e, other ≠ index → after.get e other = w.get e other) →
      SetEffect w index q (.ok (), after)
  | mismatch : w.unit.dimension ≠ d →
      SetEffect w index q (.error (.dimensionMismatch (.index index) w.unit.dimension d), w)
  | outOfRange : w.unit.dimension = d → w.size ≤ index →
      SetEffect w index q (.error (.outOfRange index w.size), w)

theorem set_effect (w : WritableBuffer) {d : Dimension} (index : Nat) (q : Quantity d) :
    w.SetEffect index q (w.set index q) := by
  by_cases known : w.unit.dimension = d
  · by_cases inside : index < w.size
    · have stores := Buffer.putFrom_stores (b := w.toBuffer)
        (show index + [w.unit.fromCanonical q.value].length ≤ w.size from inside)
      rw [set_accepted known inside]
      exact .stored known inside stores (get_put_own known inside _)
        fun _ e apart => get_put_other apart _ e
    · rw [set_out_of_range known inside]
      exact .outOfRange known (Nat.not_lt.mp inside)
  · rw [set_mismatch known]
    exact .mismatch known

end WritableBuffer

namespace SetCall

variable {w v : WritableBuffer}

/-- A call that a buffer carries out. -/
def Accepted (call : SetCall) (w : WritableBuffer) : Prop :=
  w.unit.dimension = call.dimension ∧ call.index < w.size

instance (call : SetCall) (w : WritableBuffer) : Decidable (call.Accepted w) :=
  inferInstanceAs (Decidable (_ ∧ _))

/-- The answer to a call, by the unit and the size of the buffer alone. -/
def verdict (w : WritableBuffer) (call : SetCall) : Except BufferError Unit :=
  if w.unit.dimension = call.dimension then
    if call.index < w.size then .ok () else .error (.outOfRange call.index w.size)
  else .error (.dimensionMismatch (.index call.index) w.unit.dimension call.dimension)

/-- The buffer behind a call. -/
def after (w : WritableBuffer) (call : SetCall) : WritableBuffer :=
  if call.Accepted w then w.put call.index (w.unit.fromCanonical call.value) else w

theorem after_accepted {call : SetCall} (accepted : call.Accepted w) :
    call.after w = w.put call.index (w.unit.fromCanonical call.value) :=
  if_pos accepted

theorem after_refused {call : SetCall} (refused : ¬ call.Accepted w) : call.after w = w :=
  if_neg refused

theorem apply_eq (w : WritableBuffer) (call : SetCall) :
    call.apply w = (call.verdict w, call.after w) := by
  rw [apply, verdict]
  by_cases known : w.unit.dimension = call.dimension
  · rw [if_pos known]
    by_cases inside : call.index < w.size
    · rw [WritableBuffer.set_accepted known inside, if_pos inside, after_accepted ⟨known, inside⟩]
    · have refused : ¬ call.Accepted w := fun accepted => inside accepted.2
      rw [WritableBuffer.set_out_of_range known inside, if_neg inside, after_refused refused]
  · have refused : ¬ call.Accepted w := fun accepted => known accepted.1
    rw [WritableBuffer.set_mismatch known, if_neg known, after_refused refused]

theorem run_cons (w : WritableBuffer) (call : SetCall) (rest : List SetCall) :
    run w (call :: rest) =
      (call.verdict w :: (run (call.after w) rest).1, (run (call.after w) rest).2) := by
  rw [run, apply_eq]

theorem run_append (w : WritableBuffer) (calls more : List SetCall) :
    (run w (calls ++ more)).2 = (run (run w calls).2 more).2 := by
  induction calls generalizing w with
  | nil => rfl
  | cons call rest ih =>
    rw [List.cons_append, run_cons, run_cons]
    exact ih (call.after w)

/-- One call changes nothing but the numbers of elements. -/
theorem after_revision (w : WritableBuffer) (call : SetCall) :
    w.toBuffer.Revision (call.after w).toBuffer := by
  by_cases accepted : call.Accepted w
  · rw [after_accepted accepted]
    exact .put accepted.2 _
  · rw [after_refused accepted]
    exact .refl w.toBuffer

theorem run_revision (w : WritableBuffer) (calls : List SetCall) :
    w.toBuffer.Revision (run w calls).2.toBuffer := by
  induction calls generalizing w with
  | nil => exact .refl w.toBuffer
  | cons call rest ih =>
    rw [run_cons]
    exact (after_revision w call).trans (ih (call.after w))

/-- Later states of a buffer accept the same calls, and answer them alike. -/
theorem accepted_iff_of_revision (revised : w.toBuffer.Revision v.toBuffer) (call : SetCall) :
    call.Accepted v ↔ call.Accepted w := by
  have size : v.size = w.size := revised.size
  unfold Accepted
  rw [revised.unit, size]

theorem verdict_of_revision (revised : w.toBuffer.Revision v.toBuffer) (call : SetCall) :
    call.verdict v = call.verdict w := by
  have size : v.size = w.size := revised.size
  unfold verdict
  rw [revised.unit, size]

theorem run_verdicts (w : WritableBuffer) (calls : List SetCall) :
    (run w calls).1 = calls.map (verdict w) := by
  induction calls generalizing w with
  | nil => rfl
  | cons call rest ih =>
    have same := verdict_of_revision (after_revision w call)
    rw [run_cons, List.map_cons, ih (call.after w), List.map_congr_left fun next _ => same next]

theorem get_after_other {index : Nat} {call : SetCall}
    (apart : call.Accepted w → call.index ≠ index) (d : Dimension) :
    (call.after w).get d index = w.get d index := by
  by_cases accepted : call.Accepted w
  · rw [after_accepted accepted]
    exact WritableBuffer.get_put_other (apart accepted).symm _ d
  · rw [after_refused accepted]

/-- An element at whose index no call is accepted reads as it did before. -/
theorem get_run_other {index : Nat} {calls : List SetCall}
    (apart : ∀ call ∈ calls, call.Accepted w → call.index ≠ index) (d : Dimension) :
    (run w calls).2.get d index = w.get d index := by
  induction calls generalizing w with
  | nil => rfl
  | cons call rest ih =>
    obtain ⟨first, later⟩ := List.forall_mem_cons.mp apart
    have kept : ∀ next ∈ rest, next.Accepted (call.after w) → next.index ≠ index := by
      intro next member accepted
      exact later next member ((accepted_iff_of_revision (after_revision w call) next).mp accepted)
    rw [run_cons]
    exact (ih kept).trans (get_after_other first d)

/-- The last call that is accepted for an index decides what is read there. -/
theorem get_run_last (w : WritableBuffer) (before : List SetCall) {call : SetCall}
    {later : List SetCall} (accepted : call.Accepted w)
    (last : ∀ next ∈ later, next.Accepted w → next.index ≠ call.index) :
    (run w (before ++ call :: later)).2.get call.dimension call.index =
      .ok ⟨call.value / w.unit.scale * w.unit.scale⟩ := by
  -- The calls in front lead to a later state of the same buffer, and from there
  -- on only this call touches the element.
  have reached := run_revision w before
  have accepted' := (accepted_iff_of_revision reached call).mpr accepted
  have revised := reached.trans (after_revision (run w before).2 call)
  have kept : ∀ next ∈ later, next.Accepted (call.after (run w before).2) →
      next.index ≠ call.index := by
    intro next member taken
    exact last next member ((accepted_iff_of_revision revised next).mp taken)
  rw [run_append, run_cons, get_run_other kept, after_accepted accepted',
    WritableBuffer.get_put_own accepted'.1 accepted'.2, reached.unit]
  rfl

theorem after_comm (w : WritableBuffer) {first second : SetCall} (apart : first.index ≠ second.index) :
    second.after (first.after w) = first.after (second.after w) := by
  have secondKept := accepted_iff_of_revision (after_revision w first) second
  have firstKept := accepted_iff_of_revision (after_revision w second) first
  by_cases taken : first.Accepted w
  · by_cases taken' : second.Accepted w
    · rw [after_accepted (secondKept.mpr taken'), after_accepted (firstKept.mpr taken),
        after_accepted taken, after_accepted taken']
      exact congrArg WritableBuffer.mk (Buffer.put_comm apart _ _)
    · rw [after_refused (mt secondKept.mp taken'), after_refused taken']
  · rw [after_refused taken, after_refused (mt firstKept.mp taken)]

/-- Calls for different indices may be made in either order, among any others. -/
theorem run_swap (w : WritableBuffer) (before later : List SetCall) {first second : SetCall}
    (apart : first.index ≠ second.index) :
    (run w (before ++ first :: second :: later)).2 =
      (run w (before ++ second :: first :: later)).2 := by
  rw [run_append, run_append, run_cons, run_cons, run_cons, run_cons, after_comm _ apart]

/-- A later state of a buffer in which every element holds what was written to
it last, and what it held before if nothing was. -/
structure LastWriteWins (w v : WritableBuffer) (calls : List SetCall) : Prop where
  revision : w.toBuffer.Revision v.toBuffer
  written : ∀ before call later, calls = before ++ call :: later → call.Accepted w →
    (∀ next ∈ later, next.Accepted w → next.index ≠ call.index) →
    v.get call.dimension call.index = .ok ⟨call.value / w.unit.scale * w.unit.scale⟩
  unwritten : ∀ index, (∀ call ∈ calls, call.Accepted w → call.index ≠ index) →
    ∀ d, v.get d index = w.get d index

theorem run_lastWriteWins (w : WritableBuffer) (calls : List SetCall) :
    LastWriteWins w (run w calls).2 calls where
  revision := run_revision w calls
  written := by
    intro before call later same accepted last
    rw [same]
    exact get_run_last w before accepted last
  unwritten := fun _ apart d => get_run_other apart d

end SetCall

/-- The laws of a buffer that is written by index, for one call and for any
sequence of calls, some of which are refused. Words address the elements in the
same way for both reading and writing. -/
theorem WritableBuffer.store_laws (w : WritableBuffer) :
    (∀ (d : Dimension) (index : Nat) (q : Quantity d), w.SetEffect index q (w.set index q)) ∧
    (w.cells.size < sizeLimit → ∀ (d : Dimension) (index : Nat),
      w.wordGet d index = w.get d index ∧
        ∀ q : Quantity d, w.wordSet index q = w.set index q) ∧
    (∀ calls, (SetCall.run w calls).1 = calls.map (SetCall.verdict w) ∧
      SetCall.LastWriteWins w (SetCall.run w calls).2 calls) ∧
    ∀ before first second later, first.index ≠ second.index →
      (SetCall.run w (before ++ first :: second :: later)).2 =
        (SetCall.run w (before ++ second :: first :: later)).2 :=
  ⟨fun _ index q => w.set_effect index q,
    fun room d index => ⟨wordGet_eq_get room d index, wordSet_eq_set room index⟩,
    fun calls => ⟨SetCall.run_verdicts w calls, SetCall.run_lastWriteWins w calls⟩,
    fun before _ _ later apart => SetCall.run_swap w before later apart⟩

/-- Two calls for one element, with one between them that is refused. -/
example : (SetCall.run ⟨Buffer.apart⟩ [⟨.mass, 1, 5.0⟩, ⟨.length, 0, 6.0⟩, ⟨.mass, 1, 7.0⟩]).2.cells =
    #[1.0, 9.0, 9.0, 9.0, 7.0, 9.0] := by decide +kernel

end Mensura
