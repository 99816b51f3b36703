import Mensura.Proofs.Decimal.Positional

namespace Mensura

namespace Dimension

theorem chars_injective : Function.Injective chars := by
  intro d e same
  have text : d.text = e.text := congrArg String.ofList same
  have read := parseUnit_dimension_text d
  rw [text, parseUnit_dimension_text e] at read
  cases read
  rfl

end Dimension

/-- A character that neither a number nor a blank is written with. -/
def Lettered (c : Char) : Prop :=
  isNumberChar c = false ∧ c ≠ ' '

theorem Base.power_head (base : Base) (e : Int) : ∃ c tail, base.power e = c :: tail ∧ Lettered c := by
  unfold power
  split <;> cases base <;> exact ⟨_, _, rfl, by decide, by decide⟩

/-- The text of a signature starts with the letter of a symbol unless it is empty. -/
theorem Dimension.chars_head {d : Dimension} (composed : d.isDimensionless = false) :
    ∃ c tail, d.chars = c :: tail ∧ Lettered c := by
  obtain ⟨base, rest, bases⟩ := List.exists_cons_of_ne_nil (d.bases_ne_nil composed)
  obtain ⟨c, tail, start, letter⟩ := base.power_head (d.exponent base)
  rw [d.chars_eq composed, bases, powersText, List.map_cons, start]
  cases rest with
  | nil => exact ⟨c, tail, List.intercalate_singleton .., letter⟩
  | cons next later =>
    rw [List.map_cons, List.intercalate_cons_cons]
    exact ⟨c, _, rfl, letter⟩

section Apart

variable {x y : Float} {d e : Dimension}

theorem not_blank_of_plain_write (valid : PositiveFinite x) : ' ' ∉ (NumberStyle.plain.write x).toList :=
  fun member => absurd (isNumberChar_of_mem_plain_write valid _ member) (by decide)

theorem eq_one_of_plain_write (valid : PositiveFinite x)
    (same : (NumberStyle.plain.write x).toList = ['1']) : x = 1.0 := by
  refine plain_write_injective valid (by decide) (String.toList_inj.mp (same.trans ?_))
  decide +kernel

/-- A signature is not written like a number, except the empty one like one. -/
theorem eq_one_of_chars (valid : PositiveFinite x) (same : d.chars = (NumberStyle.plain.write x).toList) :
    x = 1.0 := by
  cases plain : d.isDimensionless with
  | true =>
    rw [Dimension.chars, plain] at same
    exact eq_one_of_plain_write valid same.symm
  | false =>
    obtain ⟨c, tail, start, letter, _⟩ := Dimension.chars_head plain
    have number := isNumberChar_of_mem_plain_write valid c (by rw [← same, start]; exact List.mem_cons_self ..)
    rw [letter] at number
    cases number

/-- A signature does not start like a number that a blank stands behind. -/
theorem chars_ne_spaced (valid : PositiveFinite x) :
    d.chars ≠ (NumberStyle.plain.write x).toList ++ ' ' :: e.chars := by
  intro same
  cases plain : d.isDimensionless with
  | true =>
    rw [Dimension.chars, plain] at same
    have blank : ' ' ∈ ['1'] := by
      rw [show ['1'] = _ from same]
      exact List.mem_append_right _ (List.mem_cons_self ..)
    exact absurd blank (by decide)
  | false =>
    obtain ⟨c, tail, start, letter, notBlank⟩ := Dimension.chars_head plain
    rw [start] at same
    cases written : (NumberStyle.plain.write x).toList with
    | nil =>
      rw [written] at same
      exact notBlank (List.cons.inj same).1
    | cons first later =>
      rw [written] at same
      have number := isNumberChar_of_mem_plain_write valid c
        (by rw [written, (List.cons.inj same).1]; exact List.mem_cons_self ..)
      rw [letter] at number
      cases number

/-- A number, a blank and a signature are read off the text of the three. -/
theorem spaced_injective (validX : PositiveFinite x) (validY : PositiveFinite y)
    (same : (NumberStyle.plain.write x).toList ++ ' ' :: d.chars =
      (NumberStyle.plain.write y).toList ++ ' ' :: e.chars) : x = y ∧ d = e := by
  have stop (tail : List Char) : ∀ c ∈ (' ' :: tail).head?, isNumberChar c = false :=
    outside_head (by decide) tail
  have number : (NumberStyle.plain.write x).toList = (NumberStyle.plain.write y).toList := by
    rw [← takeWhile_run (isNumberChar_of_mem_plain_write validX) (stop _), same,
      takeWhile_run (isNumberChar_of_mem_plain_write validY) (stop _)]
  rw [number] at same
  exact ⟨plain_write_injective validX validY (String.toList_inj.mp number),
    Dimension.chars_injective (List.cons.inj (List.append_cancel_left same)).2⟩

end Apart

namespace MeasureUnit

/-- The three ways to write a unit. -/
inductive Printed (u : MeasureUnit) : List Char → Prop
  | coherent : u.scale = 1.0 → Printed u u.dimension.chars
  | number : u.scale ≠ 1.0 → u.dimension = .dimensionless →
      Printed u (NumberStyle.plain.write u.scale).toList
  | spaced : u.scale ≠ 1.0 →
      Printed u ((NumberStyle.plain.write u.scale).toList ++ ' ' :: u.dimension.chars)

theorem text_printed (u : MeasureUnit) : u.Printed u.text.toList := by
  have one : (u.scale == 1.0) = true ↔ u.scale = 1.0 := by
    constructor
    · intro equal
      obtain ⟨_, _, same | ⟨_, zero⟩ | ⟨_, zero⟩⟩ := Float.beq_iff_ne_nan_and_eq.mp equal
      · exact same
      · exact absurd zero (by decide)
      · exact absurd zero (by decide)
    · intro same
      rw [same]
      decide
  unfold text
  split
  · rename_i coherent
    rw [Dimension.text, String.toList_ofList]
    exact .coherent (one.mp coherent)
  · rename_i scaled
    split
    · rename_i plain
      exact .number (mt one.mpr scaled) (u.dimension.eq_dimensionless plain)
    · simp only [String.toList_append, Dimension.text, String.toList_ofList, List.append_assoc]
      exact .spaced (mt one.mpr scaled)

theorem eq_of {u v : MeasureUnit} (scale : u.scale = v.scale) (dimension : u.dimension = v.dimension) :
    u = v := by
  obtain ⟨_, _⟩ := u
  cases scale
  cases dimension
  rfl

/-- The three ways to write units do not meet. -/
theorem Printed.unique {u v : MeasureUnit} (validU : PositiveFinite u.scale)
    (validV : PositiveFinite v.scale) {text : List Char} (printed : u.Printed text)
    (again : v.Printed text) : u = v := by
  generalize same : text = text' at again
  cases printed with
  | coherent one =>
    cases again with
    | coherent one' => exact eq_of (one.trans one'.symm) (Dimension.chars_injective same)
    | number scaled _ => exact absurd (eq_one_of_chars validV same) scaled
    | spaced => exact absurd same (chars_ne_spaced validV)
  | number scaled plain =>
    cases again with
    | coherent => exact absurd (eq_one_of_chars validU same.symm) scaled
    | number _ plain' =>
      exact eq_of (plain_write_injective validU validV (String.toList_inj.mp same)) (plain.trans plain'.symm)
    | spaced =>
      refine absurd ?_ (not_blank_of_plain_write validU)
      rw [same]
      exact List.mem_append_right _ (List.mem_cons_self ..)
  | spaced scaled =>
    cases again with
    | coherent => exact absurd same.symm (chars_ne_spaced validU)
    | number =>
      refine absurd ?_ (not_blank_of_plain_write validV)
      rw [← same]
      exact List.mem_append_right _ (List.mem_cons_self ..)
    | spaced =>
      obtain ⟨scale, dimension⟩ := spaced_injective validU validV same
      exact eq_of scale dimension

/-- The text of a unit identifies it. -/
theorem text_identifies {u v : MeasureUnit} (validU : PositiveFinite u.scale)
    (validV : PositiveFinite v.scale) : u.text = v.text ↔ u = v := by
  constructor
  · intro same
    have again := v.text_printed
    rw [← same] at again
    exact u.text_printed.unique validU validV again
  · exact congrArg text

/-- A thousand, and a thousand metres. -/
theorem text_identifies_thousand :
    PositiveFinite 1e3 ∧ ((⟨1e3, {}⟩ : MeasureUnit).text = (⟨1e3, { m := 1 }⟩ : MeasureUnit).text ↔
      (⟨1e3, {}⟩ : MeasureUnit) = ⟨1e3, { m := 1 }⟩) := by
  have valid : PositiveFinite 1e3 := by decide
  exact ⟨valid, text_identifies valid valid⟩

example : (⟨1e3, { m := 1 }⟩ : MeasureUnit).text = "1000 m" := by
  decide +kernel

end MeasureUnit

end Mensura
