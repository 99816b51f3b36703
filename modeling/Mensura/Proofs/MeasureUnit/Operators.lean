import Mensura.Proofs.MeasureUnit.RoundTrip
import Mensura.Proofs.MeasureUnit.Scale

namespace Mensura

theorem Base.symbol_injective : Function.Injective Base.symbol := by
  intro base other
  cases base <;> cases other <;> decide

/-- The number in the message of an overflow ends at the blank behind it, and
the symbol at the text that every message ends with. -/
theorem ExponentOverflow.message_injective : Function.Injective ExponentOverflow.message := by
  intro overflow other same
  obtain ⟨base, e⟩ := overflow
  obtain ⟨base', e'⟩ := other
  have chars := congrArg String.toList same
  simp only [message, String.toList_append, String.toList_ofList, List.append_assoc,
    List.append_cancel_left_eq] at chars
  have ended (tail : List Char) : ∀ c ∈ (" of '".toList ++ tail).head?, isExponentChar c = false :=
    outside_head (by decide) _
  have number (k : Int) : ∀ c ∈ decimalInt k, isExponentChar c = true :=
    fun _ => isExponentChar_of_mem_decimalInt
  have digits : decimalInt e = decimalInt e' := by
    rw [← takeWhile_run (number e) (ended _), chars, takeWhile_run (number e') (ended _)]
  obtain rfl := decimalInt_injective digits
  rw [List.append_cancel_left_eq, List.append_cancel_left_eq, List.append_cancel_right_eq,
    String.toList_inj] at chars
  obtain rfl := Base.symbol_injective chars
  rfl

theorem Fault.message_injective : Function.Injective Fault.message := by
  have apart (overflow : ExponentOverflow) : overflow.message ≠ Fault.scale.message := by
    intro same
    have first := congrArg (fun text : String => text.toList.head?) same
    simp only [ExponentOverflow.message, String.toList_append, List.append_assoc] at first
    exact absurd (Option.some.inj first) (by decide)
  intro fault other same
  cases fault with
  | exponent overflow =>
    cases other with
    | exponent overflow' => exact congrArg _ (ExponentOverflow.message_injective same)
    | scale => exact (apart overflow same).elim
  | scale =>
    cases other with
    | exponent overflow' => exact (apart overflow' same.symm).elim
    | scale => rfl

namespace MeasureUnit

/-- A calculation that stops the program with a text. -/
def StopsWith (outcome : Except Fault MeasureUnit) (text : String) : Prop :=
  ∃ fault, outcome = .error fault ∧ fault.message = text

theorem stopsWith_message_iff {outcome : Except Fault MeasureUnit} {fault : Fault} :
    StopsWith outcome fault.message ↔ outcome = .error fault := by
  constructor
  · rintro ⟨other, stopped, same⟩
    rw [stopped, Fault.message_injective same]
  · intro stopped
    exact ⟨fault, stopped, rfl⟩

/-- The two forms of a calculation with a given scale and given exact exponents.
The checked form looks at the exponents only. The operator has the same results
as far as they are units, and stops the program otherwise, for the exponents
first. -/
structure TwoForms (scale : Float) (lanes : Base → Int)
    (checked : Except ExponentOverflow MeasureUnit) (operator : Except Fault MeasureUnit) : Prop where
  checked_ok : ∀ u, checked = .ok u ↔
    (∀ base, Dimension.ExponentFits (lanes base)) ∧ u.Has scale lanes
  checked_error : ∀ overflow, checked = .error overflow ↔ overflow.Of lanes
  returns : ∀ u, operator = .ok u ↔ checked = .ok u ∧ u.scale.isFinite = true ∧ 0.0 < u.scale
  overflows : ∀ overflow : ExponentOverflow,
    StopsWith operator overflow.message ↔ checked = .error overflow
  asserts : StopsWith operator "assertion failed: scale.is_finite() && scale > 0.0" ↔
    ∃ u, checked = .ok u ∧ ¬ (u.scale.isFinite = true ∧ 0.0 < u.scale)

theorem guarded_twoForms {scale : Float} {lanes : Base → Int}
    {checked : Except ExponentOverflow MeasureUnit}
    (formed : ∀ u, checked = .ok u ↔
      (∀ base, Dimension.ExponentFits (lanes base)) ∧ u.Has scale lanes)
    (refused : ∀ overflow, checked = .error overflow ↔ overflow.Of lanes) :
    TwoForms scale lanes checked (guarded checked) := by
  refine ⟨formed, refused, fun u => guarded_eq_ok_iff, fun overflow => ?_, ?_⟩
  · rw [← show (Fault.exponent overflow).message = overflow.message from rfl, stopsWith_message_iff,
      guarded_eq_error_iff]
    constructor
    · rintro (⟨other, failed, same⟩ | ⟨_, _, _, same⟩)
      · cases same
        exact failed
      · cases same
    · intro failed
      exact Or.inl ⟨overflow, failed, rfl⟩
  · refine (@stopsWith_message_iff _ .scale).trans (guarded_eq_error_iff.trans ?_)
    constructor
    · rintro (⟨_, _, same⟩ | ⟨u, made, invalid, _⟩)
      · cases same
      · exact ⟨u, made, invalid⟩
    · rintro ⟨u, made, invalid⟩
      exact Or.inr ⟨u, made, invalid, rfl⟩

/-- Products, quotients and powers in their two forms. -/
theorem operators_twoForms (u v : MeasureUnit) (n : Int) :
    TwoForms (u.scale * v.scale) (fun base => u.dimension.exponent base + v.dimension.exponent base)
      (u.tryMul v) (u.mul v) ∧
    TwoForms (u.scale / v.scale) (fun base => u.dimension.exponent base - v.dimension.exponent base)
      (u.tryDiv v) (u.div v) ∧
    TwoForms (integerPower u.scale n) (fun base => u.dimension.exponent base * n)
      (u.tryPow n) (u.pow n) := by
  rw [mul_eq_guarded, div_eq_guarded, pow_eq_guarded]
  exact ⟨guarded_twoForms (fun _ => tryMul_eq_ok_iff) fun _ => tryMul_eq_error_iff,
    guarded_twoForms (fun _ => tryDiv_eq_ok_iff) fun _ => tryDiv_eq_error_iff,
    guarded_twoForms (fun _ => tryPow_eq_ok_iff) fun _ => tryPow_eq_error_iff⟩

/-- Where the exponent and the scale are both too large, the exponent is reported. -/
example : (MeasureUnit.mk 1e300 { m := 100 }).pow 2 = .error (.exponent ⟨.length, 200⟩) := by
  decide +kernel

end MeasureUnit

end Mensura
