import Mensura.Proofs.MeasureUnit.Meaning
import Mensura.Proofs.MeasureUnit.Parsing

namespace Mensura

/-- The exact exponent of a base in a product: the sum over its factors. -/
def productLane : List Term → Base → Int
  | [], _ => 0
  | term :: terms, base => term.lane base + productLane terms base

@[simp]
theorem productLane_nil (base : Base) : productLane [] base = 0 :=
  rfl

@[simp]
theorem productLane_cons (term : Term) (terms : List Term) (base : Base) :
    productLane (term :: terms) base = term.lane base + productLane terms base :=
  rfl

/-- A scale multiplied by the factors of a list, from left to right. -/
def scaleOnto (start : Float) (terms : List Term) : Float :=
  terms.foldl (fun scale term => scale * term.magnitude) start

/-- The scale of a product. It starts with the first factor, not with one. -/
def productScale : List Term → Float
  | [] => 1.0
  | first :: rest => scaleOnto first.magnitude rest

/-- Factors that can be multiplied one by one onto given exponents. Beside an
operator no exponent is negative, and the exponents of every factor and of every
running product fit a signature. -/
structure Formable (operatorForm : Prop) (start : Base → Int) (terms : List Term) : Prop where
  positive : operatorForm → ∀ term ∈ terms, ∀ n ∈ term.exponent, 0 < n
  factor_fits : ∀ term ∈ terms, ∀ base, Dimension.ExponentFits (term.lane base)
  running_fits : ∀ part, part <+: terms → ∀ base,
    Dimension.ExponentFits (start base + productLane part base)

namespace Formable

variable {operatorForm : Prop} {start : Base → Int} {term : Term} {terms : List Term}

theorem start_fits (formable : Formable operatorForm start terms) (base : Base) :
    Dimension.ExponentFits (start base) := by
  simpa using formable.running_fits [] List.nil_prefix base

theorem whole_fits (formable : Formable operatorForm start terms) (base : Base) :
    Dimension.ExponentFits (start base + productLane terms base) :=
  formable.running_fits terms List.prefix_rfl base

theorem nil_iff : Formable operatorForm start [] ↔ ∀ base, Dimension.ExponentFits (start base) := by
  refine ⟨start_fits, fun fits => ⟨fun _ => nofun, nofun, fun part front base => ?_⟩⟩
  rw [List.prefix_nil.mp front]
  simpa using fits base

/-- One more factor in front moves its exponents into the start. -/
theorem cons_iff :
    Formable operatorForm start (term :: terms) ↔
      ((operatorForm → ∀ n ∈ term.exponent, 0 < n) ∧
        (∀ base, Dimension.ExponentFits (term.lane base)) ∧
        ∀ base, Dimension.ExponentFits (start base)) ∧
      Formable operatorForm (fun base => start base + term.lane base) terms := by
  constructor
  · intro formable
    refine ⟨⟨fun operator => formable.positive operator term (List.mem_cons_self ..),
      formable.factor_fits term (List.mem_cons_self ..), formable.start_fits⟩, ?_, ?_, ?_⟩
    · intro operator other member
      exact formable.positive operator other (List.mem_cons_of_mem _ member)
    · intro other member
      exact formable.factor_fits other (List.mem_cons_of_mem _ member)
    · intro part front base
      have whole := formable.running_fits (term :: part) (List.cons_prefix_cons.mpr ⟨rfl, front⟩) base
      rwa [productLane_cons, ← Int.add_assoc] at whole
  · rintro ⟨⟨positive, fits, started⟩, formable⟩
    refine ⟨?_, ?_, ?_⟩
    · intro operator other member
      rcases List.mem_cons.mp member with rfl | member
      · exact positive operator
      · exact formable.positive operator other member
    · intro other member
      rcases List.mem_cons.mp member with rfl | member
      · exact fits
      · exact formable.factor_fits other member
    · intro part front base
      rcases List.prefix_cons_iff.mp front with rfl | ⟨tail, rfl, inner⟩
      · simpa using started base
      · rw [productLane_cons, ← Int.add_assoc]
        exact formable.running_fits tail inner base

end Formable

/-- One round: the first factor has a value, and multiplied onto the start it
gives the unit that the other factors are multiplied onto. -/
theorem evalFactors_cons_eq_ok_iff {operatorForm : Bool} {factor : Factor} {rest : List Factor}
    {start u : MeasureUnit} :
    evalFactors operatorForm start (factor :: rest) = .ok u ↔
      ∃ term product, factor.Means term ∧
        ((operatorForm = true → ∀ n ∈ term.exponent, 0 < n) ∧
          ∀ base, Dimension.ExponentFits (term.lane base)) ∧
        (∀ base, Dimension.ExponentFits (start.dimension.exponent base + term.lane base)) ∧
        MeasureUnit.Has product (start.scale * term.magnitude)
          (fun base => start.dimension.exponent base + term.lane base) ∧
        evalFactors operatorForm product rest = .ok u := by
  rw [evalFactors, bind_eq_ok_iff]
  constructor
  · rintro ⟨unit, made, later⟩
    obtain ⟨product, multiplied, done⟩ := bind_eq_ok_iff.mp later
    obtain ⟨term, means, positive, fits, unitHas⟩ := Factor.eval_eq_ok_iff.mp made
    obtain ⟨running, productHas⟩ := MeasureUnit.tryMul_eq_ok_iff.mp (mapError_eq_ok_iff.mp multiplied)
    rw [unitHas.exponents] at running productHas
    rw [unitHas.scale_eq] at productHas
    exact ⟨term, product, means, ⟨positive, fits⟩, running, productHas, done⟩
  · rintro ⟨term, product, means, ⟨positive, fits⟩, running, productHas, done⟩
    obtain ⟨unit, unitHas⟩ := MeasureUnit.has_exists term.magnitude fits
    have multiplied : start.tryMul unit = .ok product := by
      rw [MeasureUnit.tryMul_eq_ok_iff, unitHas.exponents, unitHas.scale_eq]
      exact ⟨running, productHas⟩
    exact ⟨unit, Factor.eval_eq_ok_iff.mpr ⟨term, means, positive, fits, unitHas⟩,
      bind_eq_ok_iff.mpr ⟨product, mapError_eq_ok_iff.mpr multiplied, done⟩⟩

/-- Factors multiply onto a unit just if they mean factors that can be multiplied
onto its exponents. -/
theorem evalFactors_eq_ok_iff {operatorForm : Bool} {factors : List Factor} {start u : MeasureUnit} :
    evalFactors operatorForm start factors = .ok u ↔
      ∃ terms, List.Forall₂ Factor.Means factors terms ∧
        Formable (operatorForm = true) start.dimension.exponent terms ∧
        u.Has (scaleOnto start.scale terms)
          (fun base => start.dimension.exponent base + productLane terms base) := by
  -- The start of the next round is the running product, so it is generalized.
  induction factors generalizing start with
  | nil =>
    have own : start.Has (scaleOnto start.scale [])
        (fun base => start.dimension.exponent base + productLane [] base) :=
      ⟨rfl, fun base => (Int.add_zero _).symm⟩
    constructor
    · intro made
      cases made
      exact ⟨[], .nil, Formable.nil_iff.mpr u.dimension.exponent_fits, own⟩
    · rintro ⟨_, ⟨⟩, _, has⟩
      exact congrArg Except.ok (own.unique has)
  | cons factor rest ih =>
    rw [evalFactors_cons_eq_ok_iff]
    constructor
    · rintro ⟨term, product, means, allowed, _, productHas, done⟩
      obtain ⟨terms, meanings, formable, has⟩ := ih.mp done
      rw [productHas.scale_eq] at has
      rw [productHas.exponents] at formable has
      refine ⟨term :: terms, .cons means meanings,
        Formable.cons_iff.mpr ⟨⟨allowed.1, allowed.2, start.dimension.exponent_fits⟩, formable⟩,
        has.scale_eq, fun base => ?_⟩
      rw [has.exponent_eq, productLane_cons, Int.add_assoc]
    · rintro ⟨_, ⟨⟩, formable, has⟩
      rename_i term terms means meanings
      obtain ⟨⟨positive, fits, _⟩, formable⟩ := Formable.cons_iff.mp formable
      obtain ⟨product, productHas⟩ :=
        MeasureUnit.has_exists (start.scale * term.magnitude) formable.start_fits
      refine ⟨term, product, means, ⟨positive, fits⟩, formable.start_fits, productHas, ?_⟩
      refine ih.mpr ⟨terms, meanings, ?_, ?_, fun base => ?_⟩
      · rw [productHas.exponents]
        exact formable
      · rw [productHas.scale_eq]
        exact has.scale_eq
      · rw [has.exponent_eq, productHas.exponents, productLane_cons, Int.add_assoc]

theorem evalProduct_eq_ok_iff {operatorForm : Bool} {factors : List Factor} {u : MeasureUnit} :
    evalProduct operatorForm factors = .ok u ↔
      ∃ terms, List.Forall₂ Factor.Means factors terms ∧
        Formable (operatorForm = true) (fun _ => 0) terms ∧
        u.Has (productScale terms) (productLane terms) := by
  have zero_fits : ∀ base : Base, Dimension.ExponentFits ((fun _ => 0) base) :=
    fun _ => (by decide : Dimension.ExponentFits 0)
  have onto_zero (term : Term) : (fun base => 0 + term.lane base) = term.lane :=
    funext fun base => Int.zero_add _
  cases factors with
  | nil =>
    have own : MeasureUnit.one.Has (productScale []) (productLane []) :=
      ⟨rfl, fun base => by cases base <;> rfl⟩
    constructor
    · intro made
      cases made
      exact ⟨[], .nil, Formable.nil_iff.mpr zero_fits, own⟩
    · rintro ⟨_, ⟨⟩, _, has⟩
      exact congrArg Except.ok (own.unique has)
  | cons factor rest =>
    unfold evalProduct
    rw [bind_eq_ok_iff]
    constructor
    · rintro ⟨unit, made, later⟩
      obtain ⟨term, means, positive, fits, unitHas⟩ := Factor.eval_eq_ok_iff.mp made
      obtain ⟨terms, meanings, formable, has⟩ := evalFactors_eq_ok_iff.mp later
      rw [unitHas.exponents] at formable has
      rw [unitHas.scale_eq] at has
      refine ⟨term :: terms, .cons means meanings, Formable.cons_iff.mpr
        ⟨⟨positive, fits, zero_fits⟩, ?_⟩, has.scale_eq, fun base => ?_⟩
      · rw [onto_zero]
        exact formable
      · rw [has.exponent_eq, productLane_cons]
    · rintro ⟨_, ⟨⟩, formable, has⟩
      rename_i term terms means meanings
      obtain ⟨⟨positive, fits, _⟩, formable⟩ := Formable.cons_iff.mp formable
      rw [onto_zero] at formable
      obtain ⟨unit, unitHas⟩ := MeasureUnit.has_exists term.magnitude fits
      refine ⟨unit, Factor.eval_eq_ok_iff.mpr ⟨term, means, positive, fits, unitHas⟩,
        evalFactors_eq_ok_iff.mpr ⟨terms, meanings, ?_, ?_, fun base => ?_⟩⟩
      · rw [unitHas.exponents]
        exact formable
      · rw [unitHas.scale_eq]
        exact has.scale_eq
      · rw [has.exponent_eq, unitHas.exponents, productLane_cons]

namespace Fraction

/-- The scale of a formula: one division, after all products. -/
def scale (meaning : Fraction Term) : Float :=
  match meaning.denominator with
  | none => productScale meaning.numerator
  | some divisors => productScale meaning.numerator / productScale divisors

/-- The exact exponent of a base in a formula. -/
def lane (meaning : Fraction Term) (base : Base) : Int :=
  match meaning.denominator with
  | none => productLane meaning.numerator base
  | some divisors => productLane meaning.numerator base - productLane divisors base

/-- A formula means something just if all of its factors do. -/
inductive Means : Fraction Factor → Fraction Term → Prop
  | product {factors : List Factor} {terms : List Term} : List.Forall₂ Factor.Means factors terms →
      Means ⟨factors, none⟩ ⟨terms, none⟩
  | quotient {factors divisors : List Factor} {terms others : List Term} :
      List.Forall₂ Factor.Means factors terms → List.Forall₂ Factor.Means divisors others →
      Means ⟨factors, some divisors⟩ ⟨terms, some others⟩

/-- A formula whose products can be formed and whose exponents fit a signature. -/
structure Formable (operatorForm : Prop) (meaning : Fraction Term) : Prop where
  numerator : Mensura.Formable operatorForm (fun _ => 0) meaning.numerator
  denominator : ∀ divisors ∈ meaning.denominator,
    Mensura.Formable operatorForm (fun _ => 0) divisors
  fits : ∀ base, Dimension.ExponentFits (meaning.lane base)

/-- A formula has a unit just if it means something that can be formed. The
scale can be anything. -/
theorem eval_eq_ok_iff {operatorForm : Bool} {formula : Fraction Factor} {u : MeasureUnit} :
    formula.eval operatorForm = .ok u ↔
      ∃ meaning, formula.Means meaning ∧ meaning.Formable (operatorForm = true) ∧
        u.Has meaning.scale meaning.lane := by
  obtain ⟨factors, denominator⟩ := formula
  unfold Fraction.eval
  rw [bind_eq_ok_iff]
  constructor
  · rintro ⟨numerator, made, later⟩
    obtain ⟨terms, meanings, formable, numeratorHas⟩ := evalProduct_eq_ok_iff.mp made
    cases denominator with
    | none =>
      cases later
      refine ⟨⟨terms, none⟩, .product meanings, ⟨formable, nofun, fun base => ?_⟩, numeratorHas⟩
      simpa [lane] using formable.whole_fits base
    | some divisors =>
      obtain ⟨quotient, made, divided⟩ := bind_eq_ok_iff.mp later
      obtain ⟨others, otherMeanings, otherFormable, quotientHas⟩ := evalProduct_eq_ok_iff.mp made
      obtain ⟨fits, has⟩ := MeasureUnit.tryDiv_eq_ok_iff.mp (mapError_eq_ok_iff.mp divided)
      rw [numeratorHas.exponents, quotientHas.exponents] at fits has
      rw [numeratorHas.scale_eq, quotientHas.scale_eq] at has
      refine ⟨⟨terms, some others⟩, .quotient meanings otherMeanings, ⟨formable, ?_, fits⟩, has⟩
      intro _ member
      cases Option.some.inj member
      exact otherFormable
  · rintro ⟨_, means, ⟨formable, denominatorFormable, fits⟩, has⟩
    cases means with
    | product meanings =>
      exact ⟨u, evalProduct_eq_ok_iff.mpr ⟨_, meanings, formable, has⟩, rfl⟩
    | @quotient _ divisors terms others meanings otherMeanings =>
      have numeratorFits (base : Base) : Dimension.ExponentFits (productLane terms base) := by
        simpa using formable.whole_fits base
      have otherFormable := denominatorFormable others rfl
      have otherFits (base : Base) : Dimension.ExponentFits (productLane others base) := by
        simpa using otherFormable.whole_fits base
      obtain ⟨numerator, numeratorHas⟩ := MeasureUnit.has_exists (productScale terms) numeratorFits
      obtain ⟨quotient, quotientHas⟩ := MeasureUnit.has_exists (productScale others) otherFits
      refine ⟨numerator, evalProduct_eq_ok_iff.mpr ⟨terms, meanings, formable, numeratorHas⟩,
        bind_eq_ok_iff.mpr ⟨quotient,
          evalProduct_eq_ok_iff.mpr ⟨others, otherMeanings, otherFormable, quotientHas⟩,
          mapError_eq_ok_iff.mpr (MeasureUnit.tryDiv_eq_ok_iff.mpr ?_)⟩⟩
      rw [numeratorHas.exponents, quotientHas.exponents, numeratorHas.scale_eq, quotientHas.scale_eq]
      exact ⟨fits, has⟩

end Fraction

theorem MeasureUnit.checked_eq_ok_iff {scale : Float} {dimension : Dimension} {u : MeasureUnit} :
    MeasureUnit.checked scale dimension = .ok u ↔
      (scale.isFinite = true ∧ 0.0 < scale) ∧ u = ⟨scale, dimension⟩ := by
  rw [MeasureUnit.checked, mapError_eq_ok_iff, MeasureUnit.tryNew]
  simp only [scaleIsValid, Bool.and_eq_true, decide_eq_true_eq]
  split
  · rename_i valid
    exact ⟨fun made => ⟨valid, (Except.ok.inj made).symm⟩, fun made => congrArg _ made.2.symm⟩
  · rename_i invalid
    exact ⟨nofun, fun made => absurd made.1 invalid⟩

/-- A text has a unit just if, without its outer blanks, it is not empty and spells
a formula that means something, can be formed and has a positive finite scale. -/
theorem parseUnit_eq_ok_iff {text : String} {u : MeasureUnit} :
    parseUnit text = .ok u ↔
      trimBlanks text.toList ≠ [] ∧ ∃ formula meaning, UnitText (trimBlanks text.toList) formula ∧
        formula.Means meaning ∧
        meaning.Formable ('*' ∈ trimBlanks text.toList ∨ '/' ∈ trimBlanks text.toList) ∧
        (meaning.scale.isFinite = true ∧ 0.0 < meaning.scale) ∧ u.Has meaning.scale meaning.lane := by
  have first := trimBlanks_head text.toList
  have last := trimBlanks_last text.toList
  unfold parseUnit
  generalize trimBlanks text.toList = trimmed at first last
  rw [← hasOperator_iff]
  dsimp only
  split
  · rename_i empty
    exact ⟨nofun, fun made => absurd (List.isEmpty_iff.mp empty) made.1⟩
  · rename_i notEmpty
    constructor
    · intro done
      obtain ⟨formula, written⟩ := formula_of_parseTrimmed first last done
      rw [parseTrimmed_formula written] at done
      obtain ⟨unit, made, checked⟩ := bind_eq_ok_iff.mp done
      obtain ⟨meaning, means, formable, has⟩ := Fraction.eval_eq_ok_iff.mp made
      obtain ⟨valid, rfl⟩ := MeasureUnit.checked_eq_ok_iff.mp checked
      rw [has.scale_eq] at valid
      exact ⟨mt List.isEmpty_iff.mpr notEmpty, formula, meaning, written, means, formable, valid, has⟩
    · rintro ⟨_, formula, meaning, written, means, formable, valid, has⟩
      rw [parseTrimmed_formula written, Fraction.eval_eq_ok_iff.mpr ⟨meaning, means, formable, has⟩]
      rw [← has.scale_eq] at valid
      exact MeasureUnit.checked_eq_ok_iff.mpr ⟨valid, rfl⟩

/-- The parser accepts its grammar and nothing else. -/
theorem parseUnit_accepts_iff (text : String) :
    (∃ unit, parseUnit text = .ok unit) ↔
      trimBlanks text.toList ≠ [] ∧ ∃ formula meaning, UnitText (trimBlanks text.toList) formula ∧
        formula.Means meaning ∧
        meaning.Formable ('*' ∈ trimBlanks text.toList ∨ '/' ∈ trimBlanks text.toList) ∧
        meaning.scale.isFinite = true ∧ 0.0 < meaning.scale := by
  constructor
  · rintro ⟨unit, done⟩
    obtain ⟨some, formula, meaning, written, means, formable, ⟨finite, positive⟩, _⟩ :=
      parseUnit_eq_ok_iff.mp done
    exact ⟨some, formula, meaning, written, means, formable, finite, positive⟩
  · rintro ⟨some, formula, meaning, written, means, formable, finite, positive⟩
    obtain ⟨unit, has⟩ := MeasureUnit.has_exists meaning.scale formable.fits
    exact ⟨unit, parseUnit_eq_ok_iff.mpr
      ⟨some, formula, meaning, written, means, formable, ⟨finite, positive⟩, has⟩⟩

end Mensura
