import Mensura.Proofs.Binary64.Degenerate

namespace Mensura

section Powers

variable {x r : Float}

theorem powerLoop_unsigned (base : Unsigned x) (power : Unsigned r) (b : Nat) :
    Unsigned (powerLoop x r b) := by
  induction b using Nat.strongRecOn generalizing x r with
  | ind b ih =>
    have next : Unsigned (if b % 2 = 1 then r * x else r) := by
      split
      · exact power.mul base
      · exact power
    rw [powerLoop]
    split
    · exact next
    · exact ih (b / 2) (by omega) (base.mul base) next

theorem integerPower_unsigned (base : Unsigned x) (n : Int) : Unsigned (integerPower x n) := by
  have one : Unsigned 1.0 := PositiveFinite.unsigned (by decide)
  have power := powerLoop_unsigned base one n.natAbs
  unfold integerPower
  dsimp only
  split
  · exact one.div power
  · exact power

end Powers

theorem symbolMeaning?_scale {symbol : List Char} {scale : Float} {dimension : Dimension}
    (known : symbolMeaning? symbol = some (scale, dimension)) : PositiveFinite scale := by
  unfold symbolMeaning? at known
  split at known
  · cases known
    decide
  · exact resolveSymbol_scale known

/-- An answer that is a unit with a scale as it is meant to be. -/
def Sound (answer : Except UnitError MeasureUnit) : Prop :=
  ∃ u, answer = .ok u ∧ PositiveFinite u.scale

variable {operatorForm : Bool} {start u : MeasureUnit} {factor : Factor} {factors rest : List Factor}

/-- A power may leave the positive finite numbers, but not for the negative ones. -/
theorem Factor.eval_unsigned (made : factor.eval operatorForm = .ok u) : Unsigned u.scale := by
  obtain ⟨term, means, _, _, has⟩ := Factor.eval_eq_ok_iff.mp made
  rw [has.scale_eq]
  cases means with
  | plain known => exact (symbolMeaning?_scale known).unsigned
  | raised known => exact integerPower_unsigned (symbolMeaning?_scale known).unsigned _

/-- One round of a product takes the value of the next factor into the unit. -/
theorem evalFactors_cons_iff :
    evalFactors operatorForm start (factor :: rest) = .ok u ↔
      ∃ unit product, factor.eval operatorForm = .ok unit ∧ start.tryMul unit = .ok product ∧
        evalFactors operatorForm product rest = .ok u := by
  simp only [evalFactors, bind_eq_ok_iff, mapError_eq_ok_iff, exists_and_left]

theorem evalFactors_unsigned (unsigned : Unsigned start.scale)
    (made : evalFactors operatorForm start factors = .ok u) : Unsigned u.scale := by
  induction factors generalizing start with
  | nil =>
    cases made
    exact unsigned
  | cons factor rest ih =>
    obtain ⟨unit, product, raised, multiplied, done⟩ := evalFactors_cons_iff.mp made
    have scale := (MeasureUnit.tryMul_eq_ok_iff.mp multiplied).2.scale_eq
    refine ih ?_ done
    rw [scale]
    exact unsigned.mul (Factor.eval_unsigned raised)

/-- If a run over factors ends in a positive finite scale, it has gone through such
scales only. -/
theorem evalFactors_sound (unsigned : Unsigned start.scale)
    (made : evalFactors operatorForm start factors = .ok u) (valid : PositiveFinite u.scale) :
    (∀ factor ∈ factors, Sound (factor.eval operatorForm)) ∧
      ∀ part, part <+: factors → Sound (evalFactors operatorForm start part) := by
  -- The start of the next round is the running product, so it is generalized.
  induction factors generalizing start with
  | nil =>
    cases made
    refine ⟨nofun, fun part front => ?_⟩
    rw [List.prefix_nil.mp front]
    exact ⟨u, rfl, valid⟩
  | cons factor rest ih =>
    obtain ⟨unit, product, raised, multiplied, done⟩ := evalFactors_cons_iff.mp made
    have scale := (MeasureUnit.tryMul_eq_ok_iff.mp multiplied).2.scale_eq
    have raisedUnsigned := Factor.eval_unsigned raised
    have productUnsigned : Unsigned product.scale := by
      rw [scale]
      exact unsigned.mul raisedUnsigned
    obtain ⟨factorsSound, partsSound⟩ := ih productUnsigned done
    obtain ⟨_, same, productValid⟩ := partsSound [] List.nil_prefix
    cases same
    rw [scale] at productValid
    obtain ⟨startValid, raisedValid⟩ := positiveFinite_of_mul unsigned raisedUnsigned productValid
    constructor
    · intro other member
      rcases List.mem_cons.mp member with rfl | member
      · exact ⟨unit, raised, raisedValid⟩
      · exact factorsSound other member
    · intro part front
      rcases List.prefix_cons_iff.mp front with rfl | ⟨tail, rfl, inner⟩
      · exact ⟨start, rfl, startValid⟩
      · obtain ⟨v, running, runningValid⟩ := partsSound tail inner
        exact ⟨v, evalFactors_cons_iff.mpr ⟨unit, product, raised, multiplied, running⟩, runningValid⟩

theorem evalProduct_unsigned (made : evalProduct operatorForm factors = .ok u) : Unsigned u.scale := by
  cases factors with
  | nil =>
    cases made
    exact PositiveFinite.unsigned (by decide)
  | cons first rest =>
    obtain ⟨unit, raised, done⟩ := bind_eq_ok_iff.mp made
    exact evalFactors_unsigned (Factor.eval_unsigned raised) done

theorem evalProduct_sound (made : evalProduct operatorForm factors = .ok u)
    (valid : PositiveFinite u.scale) :
    (∀ factor ∈ factors, Sound (factor.eval operatorForm)) ∧
      ∀ part, part <+: factors → Sound (evalProduct operatorForm part) := by
  have empty : Sound (evalProduct operatorForm []) := ⟨.one, rfl, by decide⟩
  cases factors with
  | nil =>
    refine ⟨nofun, fun part front => ?_⟩
    rw [List.prefix_nil.mp front]
    exact empty
  | cons first rest =>
    obtain ⟨unit, raised, done⟩ := bind_eq_ok_iff.mp made
    obtain ⟨factorsSound, partsSound⟩ := evalFactors_sound (Factor.eval_unsigned raised) done valid
    obtain ⟨_, same, raisedValid⟩ := partsSound [] List.nil_prefix
    cases same
    constructor
    · intro factor member
      rcases List.mem_cons.mp member with rfl | member
      · exact ⟨unit, raised, raisedValid⟩
      · exact factorsSound factor member
    · intro part front
      rcases List.prefix_cons_iff.mp front with rfl | ⟨tail, rfl, inner⟩
      · exact empty
      · obtain ⟨v, running, runningValid⟩ := partsSound tail inner
        exact ⟨v, bind_eq_ok_iff.mpr ⟨unit, raised, running⟩, runningValid⟩

namespace Fraction

variable {formula : Fraction Factor}

/-- The answers on the way to the unit of a formula: the value of each factor with
its power taken, each running product of the numerator and of the denominator, and
the value of the formula itself. -/
inductive Stage (operatorForm : Bool) (formula : Fraction Factor) : Except UnitError MeasureUnit → Prop
  | factor {factor : Factor} : factor ∈ formula.factors →
      Stage operatorForm formula (factor.eval operatorForm)
  | numerator {part : List Factor} : part <+: formula.numerator →
      Stage operatorForm formula (evalProduct operatorForm part)
  | denominator {part divisors : List Factor} : formula.denominator = some divisors →
      part <+: divisors → Stage operatorForm formula (evalProduct operatorForm part)
  | whole : Stage operatorForm formula (formula.eval operatorForm)

/-- Every stage of a formula with a positive finite scale has such a scale. -/
theorem stages_sound (made : formula.eval operatorForm = .ok u) (valid : PositiveFinite u.scale)
    {answer : Except UnitError MeasureUnit} (stage : formula.Stage operatorForm answer) :
    Sound answer := by
  obtain ⟨numerator, denominator⟩ := formula
  obtain ⟨above, madeAbove, later⟩ := bind_eq_ok_iff.mp made
  cases denominator with
  | none =>
    cases later
    obtain ⟨factorsSound, partsSound⟩ := evalProduct_sound madeAbove valid
    cases stage with
    | factor member => exact factorsSound _ (by simpa [factors] using member)
    | numerator front => exact partsSound _ front
    | denominator none _ => cases none
    | whole => exact ⟨u, made, valid⟩
  | some divisors =>
    obtain ⟨below, madeBelow, divided⟩ := bind_eq_ok_iff.mp later
    have scale := (MeasureUnit.tryDiv_eq_ok_iff.mp (mapError_eq_ok_iff.mp divided)).2.scale_eq
    have quotient := valid
    rw [scale] at quotient
    obtain ⟨validAbove, validBelow⟩ := positiveFinite_of_div (evalProduct_unsigned madeAbove)
      (evalProduct_unsigned madeBelow) quotient
    obtain ⟨factorsAbove, partsAbove⟩ := evalProduct_sound madeAbove validAbove
    obtain ⟨factorsBelow, partsBelow⟩ := evalProduct_sound madeBelow validBelow
    cases stage with
    | factor member =>
      rcases List.mem_append.mp member with member | member
      · exact factorsAbove _ member
      · exact factorsBelow _ member
    | numerator front => exact partsAbove _ front
    | denominator same front =>
      cases same
      exact partsBelow _ front
    | whole => exact ⟨u, made, valid⟩

end Fraction

theorem MeasureUnit.checked_eq_error {scale : Float} {dimension : Dimension}
    (invalid : ¬ PositiveFinite scale) : checked scale dimension = .error (.invalidScale scale) := by
  unfold checked tryNew
  rw [if_neg (mt scaleIsValid_iff.mp invalid)]
  rfl

/-- The scale is checked only once, at the end, but no bad scale on the way is
hidden by what follows it. A text that is accepted has positive finite scales in
all of its stages, and a text with another scale in one of them is refused for the
scale if it is not refused for something else. -/
theorem parseUnit_stages_sound (text : String) :
    (∀ u, parseUnit text = .ok u → ∃ formula,
      (∀ other, UnitText (trimBlanks text.toList) other ↔ other = formula) ∧
      formula.eval (hasOperator (trimBlanks text.toList)) = .ok u ∧
      ∀ answer, formula.Stage (hasOperator (trimBlanks text.toList)) answer → Sound answer) ∧
    ∀ formula v, UnitText (trimBlanks text.toList) formula →
      formula.Stage (hasOperator (trimBlanks text.toList)) (.ok v) → ¬ PositiveFinite v.scale →
      (∀ u, formula.eval (hasOperator (trimBlanks text.toList)) = .ok u →
        parseUnit text = .error (.invalidScale u.scale)) ∧
      ∀ e, formula.eval (hasOperator (trimBlanks text.toList)) = .error e → parseUnit text = .error e := by
  constructor
  · intro u done
    obtain ⟨formula, written⟩ := formula_of_parseUnit done
    rw [parseUnit_formula written] at done
    obtain ⟨unit, made, checked⟩ := bind_eq_ok_iff.mp done
    obtain ⟨valid, rfl⟩ := MeasureUnit.checked_eq_ok_iff.mp checked
    refine ⟨formula, fun other => ⟨fun again => again.unique written, ?_⟩, made, fun answer stage => ?_⟩
    · rintro rfl
      exact written
    · exact Fraction.stages_sound made valid stage
  · intro formula v written stage invalid
    rw [parseUnit_formula written]
    constructor
    · intro u made
      rw [made]
      refine MeasureUnit.checked_eq_error fun valid => ?_
      obtain ⟨_, same, stageValid⟩ := Fraction.stages_sound made valid stage
      cases same
      exact invalid stageValid
    · intro e failed
      rw [failed]
      rfl

/-- The denominator is infinite, and the quotient is zero. -/
example : parseUnit "1/(Ym^20)" = .error (.invalidScale 0.0) := by
  decide +kernel

end Mensura
