import Mensura.Proofs.MeasureUnit.Overflow

namespace Mensura

/-- The exact exponents that a text comes to as it is read: in its numerator, in
the denominator once the numerator is formed, and in the quotient once both are.
What follows the place of the step does not matter. -/
inductive ExponentStep (operatorForm : Prop) : List Char → (Base → Int) → Prop
  | numerator {text : List Char} {lanes : Base → Int} :
      ProductStep operatorForm (fun _ => 0) text lanes → ExponentStep operatorForm text lanes
  | denominator {start inside below : List Char} {factors : List Factor} {terms : List Term}
      {lanes : Base → Int} : OpenedText start factors → List.Forall₂ Factor.Means factors terms →
      Formable operatorForm (fun _ => 0) terms → Blanks inside →
      ProductStep operatorForm (fun _ => 0) below lanes →
      ExponentStep operatorForm (start ++ (inside ++ below)) lanes
  | quotient {start inside below behind rest : List Char} {factors divisors : List Factor}
      {terms others : List Term} : OpenedText start factors → List.Forall₂ Factor.Means factors terms →
      Formable operatorForm (fun _ => 0) terms → Blanks inside → ProductText below divisors →
      List.Forall₂ Factor.Means divisors others → Formable operatorForm (fun _ => 0) others →
      Blanks behind →
      ExponentStep operatorForm (start ++ (inside ++ (below ++ behind ++ ')' :: rest)))
        fun base => productLane terms base - productLane others base

namespace Product

theorem eval_eq_ok_iff {operatorForm : Bool} {text rest : List Char} {product : Product}
    {unit : MeasureUnit} :
    product.eval operatorForm text = .ok (unit, rest) ↔
      evalProduct operatorForm product.factors = .ok unit ∧ product.ending = .ok rest := by
  rw [eval_eq, bind_eq_ok_iff]
  constructor
  · rintro ⟨made, formed, later⟩
    obtain ⟨_, ended, same⟩ := bind_eq_ok_iff.mp later
    cases same
    exact ⟨formed, mapError_eq_ok_iff.mp ended⟩
  · rintro ⟨formed, ended⟩
    exact ⟨unit, formed, bind_eq_ok_iff.mpr ⟨rest, mapError_eq_ok_iff.mpr ended, rfl⟩⟩

theorem eval_eq_overflow_iff {operatorForm : Bool} {text : List Char} {product : Product}
    {overflow : ExponentOverflow} :
    product.eval operatorForm text = .error (.exponentOverflow overflow) ↔
      evalProduct operatorForm product.factors = .error (.exponentOverflow overflow) := by
  rw [eval_eq, bind_eq_error_iff]
  refine ⟨?_, Or.inl⟩
  rintro (failed | ⟨unit, _, later⟩)
  · exact failed
  rcases bind_eq_error_iff.mp later with unended | ⟨_, _, done⟩
  · obtain ⟨place, _, same⟩ := mapError_eq_error_iff.mp unended
    cases place <;> cases same
  · cases done

end Product

/-- A product overflows, wherever it stands, just in a step of its text behind the blanks. -/
theorem readProduct_overflow_iff {operatorForm : Bool} {text place : List Char}
    {overflow : ExponentOverflow} :
    (readProduct place).eval operatorForm text = .error (.exponentOverflow overflow) ↔
      ∃ w body lanes, Blanks w ∧ place = w ++ body ∧
        ProductStep (operatorForm = true) (fun _ => 0) body lanes ∧ overflow.Of lanes := by
  rw [Product.eval_eq_overflow_iff, readProduct, evalProduct_read_overflow_iff]
  constructor
  · rintro ⟨lanes, step, outside⟩
    obtain ⟨w, white, split⟩ := skipBlanks_split place
    exact ⟨w, skipBlanks place, lanes, white, split, step, outside⟩
  · rintro ⟨w, body, lanes, white, rfl, step, outside⟩
    refine ⟨lanes, ?_, outside⟩
    obtain ⟨c, tail, rfl, symbol⟩ := step.head
    rwa [skipBlanks_append white (outside_head (isBlank_eq_false_of_isSymbolChar symbol) tail)]

/-- A product that has been read to its end and has a unit spells factors that
can be formed. -/
theorem formed_of_eval {operatorForm : Bool} {text place rest : List Char} {unit : MeasureUnit}
    (done : (readProduct place).eval operatorForm text = .ok (unit, rest)) :
    ∃ factors terms before body w, Blanks before ∧ ProductText body factors ∧ Blanks w ∧
      place = before ++ (body ++ w ++ rest) ∧ List.Forall₂ Factor.Means factors terms ∧
      Formable (operatorForm = true) (fun _ => 0) terms ∧
      unit.Has (productScale terms) (productLane terms) := by
  obtain ⟨formed, ended⟩ := Product.eval_eq_ok_iff.mp done
  obtain ⟨terms, meanings, formable, has⟩ := evalProduct_eq_ok_iff.mp formed
  have read : readProduct place = ⟨(readProduct place).factors, .ok rest⟩ := by rw [← ended]
  obtain ⟨before, body, w, white, product, blank, split⟩ := product_of_readProduct read
  exact ⟨_, terms, before, body, w, white, product, blank, split, meanings, formable, has⟩

theorem evalProduct_formed {operatorForm : Bool} {factors : List Factor} {terms : List Term}
    (meanings : List.Forall₂ Factor.Means factors terms)
    (formable : Formable (operatorForm = true) (fun _ => 0) terms) :
    ∃ unit, evalProduct operatorForm factors = .ok unit ∧
      unit.Has (productScale terms) (productLane terms) := by
  have fits (base : Base) : Dimension.ExponentFits (productLane terms base) := by
    simpa using formable.whole_fits base
  obtain ⟨unit, has⟩ := MeasureUnit.has_exists (productScale terms) fits
  exact ⟨unit, evalProduct_eq_ok_iff.mpr ⟨terms, meanings, formable, has⟩, has⟩

theorem ending_ne_overflow {rest : List Char} {scale : Float} {dimension : Dimension} {position : Nat}
    {overflow : ExponentOverflow} :
    (if rest.isEmpty then MeasureUnit.checked scale dimension else .error (.trailingInput position)) ≠
      .error (.exponentOverflow overflow) := by
  split
  · intro refused
    obtain ⟨_, _, same⟩ := mapError_eq_error_iff.mp refused
    cases same
  · nofun

section Opened

variable {operatorForm : Bool} {text start inner : List Char} {factors : List Factor}
  {terms : List Term} {overflow : ExponentOverflow}

theorem step_of_denominator (opened : OpenedText start factors)
    (meanings : List.Forall₂ Factor.Means factors terms)
    (formable : Formable (operatorForm = true) (fun _ => 0) terms)
    (refused : (readProduct inner).eval operatorForm text = .error (.exponentOverflow overflow)) :
    ∃ lanes, ExponentStep (operatorForm = true) (start ++ inner) lanes ∧ overflow.Of lanes := by
  obtain ⟨inside, below, lanes, white, rfl, step, outside⟩ := readProduct_overflow_iff.mp refused
  exact ⟨lanes, .denominator opened meanings formable white step, outside⟩

theorem step_of_quotient {numerator denominator : MeasureUnit} {tail : List Char}
    (opened : OpenedText start factors) (meanings : List.Forall₂ Factor.Means factors terms)
    (formable : Formable (operatorForm = true) (fun _ => 0) terms)
    (numeratorHas : numerator.Has (productScale terms) (productLane terms))
    (readBelow : (readProduct inner).eval operatorForm text = .ok (denominator, ')' :: tail))
    (refused : numerator.tryDiv denominator = .error overflow) :
    ∃ lanes, ExponentStep (operatorForm = true) (start ++ inner) lanes ∧ overflow.Of lanes := by
  obtain ⟨divisors, others, inside, below, behind, white, divisor, whiteBehind, rfl,
    otherMeanings, otherFormable, denominatorHas⟩ := formed_of_eval readBelow
  rw [MeasureUnit.tryDiv_eq_error_iff, numeratorHas.exponents, denominatorHas.exponents] at refused
  exact ⟨_, .quotient opened meanings formable white divisor otherMeanings otherFormable whiteBehind,
    refused⟩

end Opened

/-- A text that overflows comes to the exponents that do. -/
theorem step_of_parseTrimmed {text : List Char} {overflow : ExponentOverflow}
    (first : ∀ c ∈ text.head?, isBlank c = false)
    (failed : parseTrimmed text = .error (.exponentOverflow overflow)) :
    ∃ lanes, ExponentStep (hasOperator text = true) text lanes ∧ overflow.Of lanes := by
  rcases bind_eq_error_iff.mp failed with refused | ⟨⟨numerator, rest⟩, readAbove, later⟩
  · obtain ⟨w, body, lanes, white, split, step, outside⟩ := readProduct_overflow_iff.mp refused
    cases blanks_start first white split
    cases split
    exact ⟨lanes, .numerator step, outside⟩
  obtain ⟨factors, terms, before, above, beforeSlash, white, product, whiteBefore, split,
    meanings, formable, numeratorHas⟩ := formed_of_eval readAbove
  cases blanks_start first white split
  dsimp only at later
  -- Only a denominator can still overflow, or the quotient by it.
  split at later
  · rename_i afterSlash
    obtain ⟨w, whiteAfter, splitSlash⟩ := skipBlanks_split afterSlash
    split at later
    · rename_i inner opened
      have opening : OpenedText (above ++ beforeSlash ++ '/' :: w ++ ['(']) factors :=
        .opened product whiteBefore whiteAfter
      have joined : text = above ++ beforeSlash ++ '/' :: w ++ ['('] ++ inner := by
        rw [split, splitSlash, opened]
        simp only [List.append_assoc, List.cons_append, List.nil_append]
      rcases bind_eq_error_iff.mp later with refused | ⟨⟨denominator, place⟩, readBelow, later⟩
      · have placed := step_of_denominator opening meanings formable refused
        rwa [← joined] at placed
      dsimp only at later
      split at later
      · rcases bind_eq_error_iff.mp later with refused | ⟨_, _, later⟩
        · obtain ⟨_, outside, same⟩ := mapError_eq_error_iff.mp refused
          cases same
          have placed := step_of_quotient opening meanings formable numeratorHas readBelow outside
          rwa [← joined] at placed
        · exact absurd later ending_ne_overflow
      · cases place <;> cases later
    · cases later
  · exact absurd later ending_ne_overflow

/-- A text that comes to exponents that do not fit overflows. -/
theorem parseTrimmed_of_step {text : List Char} {lanes : Base → Int} {overflow : ExponentOverflow}
    (step : ExponentStep (hasOperator text = true) text lanes) (outside : overflow.Of lanes) :
    parseTrimmed text = .error (.exponentOverflow overflow) := by
  generalize operator : hasOperator text = operatorForm at step
  cases step with
  | numerator step =>
    refine bind_eq_error_iff.mpr (Or.inl ?_)
    rw [← hasOperator.eq_def, operator]
    exact readProduct_overflow_iff.mpr ⟨[], text, lanes, List.forall_mem_nil _, rfl, step, outside⟩
  | @denominator start inside below factors terms _ opened meanings formable white step =>
    obtain ⟨afterSlash, readAbove, skipped⟩ := opened.read (inside ++ below)
    obtain ⟨numerator, formed, _⟩ := evalProduct_formed meanings formable
    refine bind_eq_error_iff.mpr (Or.inr ⟨(numerator, '/' :: afterSlash), ?_, ?_⟩)
    · rw [← hasOperator.eq_def, operator, readAbove]
      exact Product.eval_eq_ok_iff.mpr ⟨formed, rfl⟩
    · simp only [skipped]
      refine bind_eq_error_iff.mpr (Or.inl ?_)
      rw [← hasOperator.eq_def, operator]
      exact readProduct_overflow_iff.mpr ⟨inside, below, lanes, white, rfl, step, outside⟩
  | @quotient start inside below behind rest factors divisors terms others opened meanings formable
      white divisor otherMeanings otherFormable whiteBehind =>
    obtain ⟨afterSlash, readAbove, skipped⟩ := opened.read (inside ++ (below ++ behind ++ ')' :: rest))
    have readBelow := readProduct_product white divisor whiteBehind (closes_parenthesis rest)
    obtain ⟨numerator, formed, numeratorHas⟩ := evalProduct_formed meanings formable
    obtain ⟨denominator, otherFormed, denominatorHas⟩ := evalProduct_formed otherMeanings otherFormable
    refine bind_eq_error_iff.mpr (Or.inr ⟨(numerator, '/' :: afterSlash), ?_, ?_⟩)
    · rw [← hasOperator.eq_def, operator, readAbove]
      exact Product.eval_eq_ok_iff.mpr ⟨formed, rfl⟩
    · simp only [skipped]
      refine bind_eq_error_iff.mpr (Or.inr ⟨(denominator, ')' :: rest), ?_, ?_⟩)
      · rw [← hasOperator.eq_def, operator, readBelow]
        exact Product.eval_eq_ok_iff.mpr ⟨otherFormed, rfl⟩
      · refine bind_eq_error_iff.mpr (Or.inl (mapError_eq_error_iff.mpr ⟨overflow, ?_, rfl⟩))
        rw [MeasureUnit.tryDiv_eq_error_iff, numeratorHas.exponents, denominatorHas.exponents]
        exact outside

/-- What a text is worth. A text with a unit spells one formula, and the unit has
the exact exponents and the scale of what the formula means. A text overflows just
if the first step that fails as it is read comes to exponents that do not fit, and
then the first of them is reported. -/
theorem parseUnit_meaning (text : String) :
    (∀ u, parseUnit text = .ok u → ∃ formula meaning,
      (∀ other, UnitText (trimBlanks text.toList) other ↔ other = formula) ∧ formula.Means meaning ∧
        (∀ base, u.dimension.exponent base = meaning.lane base) ∧ u.scale = meaning.scale) ∧
      ∀ overflow, parseUnit text = .error (.exponentOverflow overflow) ↔ ∃ lanes,
        ExponentStep ('*' ∈ trimBlanks text.toList ∨ '/' ∈ trimBlanks text.toList)
          (trimBlanks text.toList) lanes ∧ overflow.Of lanes := by
  constructor
  · intro u done
    obtain ⟨_, formula, meaning, written, means, _, _, has⟩ := parseUnit_eq_ok_iff.mp done
    refine ⟨formula, meaning, fun other => ⟨fun again => again.unique written, ?_⟩, means,
      has.exponent_eq, has.scale_eq⟩
    rintro rfl
    exact written
  · intro overflow
    have first := trimBlanks_head text.toList
    unfold parseUnit
    generalize trimBlanks text.toList = trimmed at first
    rw [← hasOperator_iff]
    dsimp only
    split
    · rename_i empty
      refine ⟨nofun, ?_⟩
      rintro ⟨lanes, step, outside⟩
      rw [List.isEmpty_iff.mp empty] at step
      have missing : parseTrimmed [] = .error (.missingFactor 0) := by decide +kernel
      cases missing.symm.trans (parseTrimmed_of_step step outside)
    · constructor
      · exact step_of_parseTrimmed first
      · rintro ⟨lanes, step, outside⟩
        exact parseTrimmed_of_step step outside

/-- The product overflows before the unknown symbol is reached. -/
example : parseUnit "m^100 m^100 furlong" = .error (.exponentOverflow ⟨.length, 200⟩) := by
  decide +kernel

end Mensura
