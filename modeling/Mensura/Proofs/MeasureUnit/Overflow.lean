import Mensura.Proofs.MeasureUnit.Acceptance

namespace Mensura

namespace Factor

/-- What a factor stands for, where no exponent beside an operator is negative. -/
structure Allowed (operatorForm : Prop) (factor : Factor) (term : Term) : Prop where
  means : factor.Means term
  positive : operatorForm → ∀ n ∈ term.exponent, 0 < n

/-- The exact exponents that one factor comes to: those of its power, and those of
the running product with it if the power fits. -/
inductive Step (operatorForm : Prop) (running : Base → Int) (factor : Factor) : (Base → Int) → Prop
  | power {term : Term} : factor.Allowed operatorForm term → Step operatorForm running factor term.lane
  | product {term : Term} : factor.Allowed operatorForm term →
      (∀ base, Dimension.ExponentFits (term.lane base)) →
      Step operatorForm running factor fun base => running base + term.lane base

theorem base_ne_overflow {factor : Factor} {overflow : ExponentOverflow} :
    factor.base ≠ .error (.exponentOverflow overflow) := by
  rw [base_eq]
  split <;> nofun

theorem power_ne_overflow {operatorForm : Bool} {symbol text : List Char} {overflow : ExponentOverflow} :
    power operatorForm symbol text ≠ .error (.exponentOverflow overflow) := by
  unfold power
  split
  · nofun
  · split
    · nofun
    · split <;> nofun

/-- The value of a factor overflows just if the exact power does. -/
theorem eval_eq_overflow_iff {operatorForm : Bool} {factor : Factor} {overflow : ExponentOverflow} :
    factor.eval operatorForm = .error (.exponentOverflow overflow) ↔
      ∃ term, factor.Allowed (operatorForm = true) term ∧ overflow.Of term.lane := by
  obtain ⟨symbol, exponent⟩ := factor
  unfold eval
  rw [bind_eq_error_iff]
  constructor
  · rintro (unknown | ⟨base, known, later⟩)
    · exact absurd unknown base_ne_overflow
    rw [base_eq_ok_iff] at known
    cases exponent with
    | none => cases later
    | some text =>
      rcases bind_eq_error_iff.mp later with unread | ⟨n, powered, refused⟩
      · exact absurd unread power_ne_overflow
      obtain ⟨⟨written, lower, upper⟩, notZero, positive⟩ := power_eq_ok_iff.mp powered
      obtain ⟨_, outside, same⟩ := mapError_eq_error_iff.mp refused
      cases same
      refine ⟨_, ⟨.raised known written lower upper notZero, ?_⟩,
        MeasureUnit.tryPow_eq_error_iff.mp outside⟩
      intro operator k member
      cases Option.some.inj member
      exact positive operator
  · rintro ⟨term, ⟨means, positive⟩, outside⟩
    cases means with
    | @plain _ scale dimension known =>
      refine absurd (fun base => ?_) outside.not_fits
      rw [show Term.lane ⟨scale, dimension, none⟩ base = dimension.exponent base from Int.mul_one _]
      exact dimension.exponent_fits base
    | @raised _ text scale dimension n known written lower upper notZero =>
      refine Or.inr ⟨⟨scale, dimension⟩, base_eq_ok_iff.mpr known, bind_eq_error_iff.mpr (Or.inr ⟨n, ?_, ?_⟩)⟩
      · exact power_eq_ok_iff.mpr
          ⟨⟨written, lower, upper⟩, notZero, fun operator => positive operator n rfl⟩
      · exact mapError_eq_error_iff.mpr ⟨overflow, MeasureUnit.tryPow_eq_error_iff.mpr outside, rfl⟩

end Factor

/-- One round overflows in its own factor or product, or in a later round. -/
theorem evalFactors_cons_overflow_iff {operatorForm : Bool} {factor : Factor} {rest : List Factor}
    {start : MeasureUnit} {overflow : ExponentOverflow} :
    evalFactors operatorForm start (factor :: rest) = .error (.exponentOverflow overflow) ↔
      (∃ lanes, factor.Step (operatorForm = true) start.dimension.exponent lanes ∧ overflow.Of lanes) ∨
        ∃ term product, factor.Allowed (operatorForm = true) term ∧
          (∀ base, Dimension.ExponentFits (term.lane base)) ∧
          (∀ base, Dimension.ExponentFits (start.dimension.exponent base + term.lane base)) ∧
          MeasureUnit.Has product (start.scale * term.magnitude)
            (fun base => start.dimension.exponent base + term.lane base) ∧
          evalFactors operatorForm product rest = .error (.exponentOverflow overflow) := by
  rw [evalFactors, bind_eq_error_iff]
  constructor
  · rintro (refused | ⟨unit, made, later⟩)
    · obtain ⟨term, allowed, outside⟩ := Factor.eval_eq_overflow_iff.mp refused
      exact Or.inl ⟨term.lane, .power allowed, outside⟩
    obtain ⟨term, means, positive, fits, unitHas⟩ := Factor.eval_eq_ok_iff.mp made
    rcases bind_eq_error_iff.mp later with refused | ⟨product, multiplied, failed⟩
    · obtain ⟨_, outside, same⟩ := mapError_eq_error_iff.mp refused
      cases same
      rw [MeasureUnit.tryMul_eq_error_iff, unitHas.exponents] at outside
      exact Or.inl ⟨_, .product ⟨means, positive⟩ fits, outside⟩
    · obtain ⟨running, productHas⟩ := MeasureUnit.tryMul_eq_ok_iff.mp (mapError_eq_ok_iff.mp multiplied)
      rw [unitHas.exponents] at running productHas
      rw [unitHas.scale_eq] at productHas
      exact Or.inr ⟨term, product, ⟨means, positive⟩, fits, running, productHas, failed⟩
  · rintro (⟨lanes, step, outside⟩ | ⟨term, product, ⟨means, positive⟩, fits, running, productHas, failed⟩)
    · cases step with
      | @power term allowed => exact Or.inl (Factor.eval_eq_overflow_iff.mpr ⟨term, allowed, outside⟩)
      | @product term allowed fits =>
        obtain ⟨unit, unitHas⟩ := MeasureUnit.has_exists term.magnitude fits
        have refused : start.tryMul unit = .error overflow := by
          rw [MeasureUnit.tryMul_eq_error_iff, unitHas.exponents]
          exact outside
        exact Or.inr ⟨unit, Factor.eval_eq_ok_iff.mpr ⟨term, allowed.means, allowed.positive, fits, unitHas⟩,
          bind_eq_error_iff.mpr (Or.inl (mapError_eq_error_iff.mpr ⟨overflow, refused, rfl⟩))⟩
    · obtain ⟨unit, unitHas⟩ := MeasureUnit.has_exists term.magnitude fits
      have multiplied : start.tryMul unit = .ok product := by
        rw [MeasureUnit.tryMul_eq_ok_iff, unitHas.exponents, unitHas.scale_eq]
        exact ⟨running, productHas⟩
      exact Or.inr ⟨unit, Factor.eval_eq_ok_iff.mpr ⟨term, means, positive, fits, unitHas⟩,
        bind_eq_error_iff.mpr (Or.inr ⟨product, mapError_eq_ok_iff.mpr multiplied, failed⟩)⟩

/-- The exact exponents that a product comes to, factor by factor, as its text is
read. Whatever follows a factor that is not passed does not matter. -/
inductive ProductStep (operatorForm : Prop) : (Base → Int) → List Char → (Base → Int) → Prop
  | here {running lanes : Base → Int} {body rest : List Char} {factor : Factor} :
      factor.Written body → factor.Ends rest → factor.Step operatorForm running lanes →
      ProductStep operatorForm running (body ++ rest) lanes
  | later {running lanes : Base → Int} {body between rest : List Char} {factor : Factor} {term : Term} :
      factor.Written body → Separator between → factor.Allowed operatorForm term →
      (∀ base, Dimension.ExponentFits (term.lane base)) →
      (∀ base, Dimension.ExponentFits (running base + term.lane base)) →
      ProductStep operatorForm (fun base => running base + term.lane base) rest lanes →
      ProductStep operatorForm running (body ++ between ++ rest) lanes

namespace ProductStep

variable {operatorForm : Prop} {running lanes : Base → Int} {text : List Char}

theorem head (step : ProductStep operatorForm running text lanes) :
    ∃ c tail, text = c :: tail ∧ isSymbolChar c = true := by
  cases step with
  | here written _ _ | later written _ _ _ _ _ =>
    obtain ⟨c, tail, rfl, symbol⟩ := written.head
    exact ⟨c, _, rfl, symbol⟩

/-- The steps of a product in terms of its reader. -/
theorem iff_read :
    ProductStep operatorForm running text lanes ↔
      ∃ factor behind, readFactor text = some (factor, behind) ∧
        (factor.Step operatorForm running lanes ∨
          ∃ next term, nextFactor? behind = some next ∧ factor.Allowed operatorForm term ∧
            (∀ base, Dimension.ExponentFits (term.lane base)) ∧
            (∀ base, Dimension.ExponentFits (running base + term.lane base)) ∧
            ProductStep operatorForm (fun base => running base + term.lane base) next lanes) := by
  constructor
  · intro step
    cases step with
    | @here _ _ body rest factor written ends step =>
      exact ⟨factor, rest, readFactor_ended written ends, Or.inl step⟩
    | @later _ _ body between rest factor term written separator allowed fits running more =>
      obtain ⟨c, tail, rfl, symbol⟩ := more.head
      refine ⟨factor, between ++ c :: tail, ?_, Or.inr
        ⟨c :: tail, term, nextFactor?_separator separator symbol, allowed, fits, running, more⟩⟩
      rw [List.append_assoc]
      exact readFactor_written written (stops_separator separator _)
  · rintro ⟨factor, behind, read, step | ⟨next, term, found, allowed, fits, running, more⟩⟩
    · obtain ⟨body, written, ends, rfl⟩ := ended_of_readFactor read
      exact .here written ends step
    · obtain ⟨body, written, rfl⟩ := written_of_readFactor read
      obtain ⟨between, separator, rfl⟩ := separator_of_nextFactor? found
      rw [← List.append_assoc]
      exact .later written separator allowed fits running more

end ProductStep

/-- Factors that are read overflow in a step of their text. -/
theorem evalFactors_read_overflow_iff {operatorForm : Bool} {text : List Char} {start : MeasureUnit}
    {overflow : ExponentOverflow} :
    evalFactors operatorForm start (readFactors text).factors = .error (.exponentOverflow overflow) ↔
      ∃ lanes, ProductStep (operatorForm = true) start.dimension.exponent text lanes ∧
        overflow.Of lanes := by
  -- Along the reader: each of its rounds is one round of the evaluation.
  induction text using readFactors.induct generalizing start with
  | case1 text unread =>
    rw [readFactors_missing unread]
    constructor
    · intro done
      cases done
    · rintro ⟨_, step, _⟩
      obtain ⟨_, _, read, _⟩ := ProductStep.iff_read.mp step
      cases unread.symm.trans read
  | case2 text factor behind first last =>
    rw [readFactors_last first last, evalFactors_cons_overflow_iff]
    constructor
    · rintro (⟨lanes, step, outside⟩ | ⟨_, _, _, _, _, _, done⟩)
      · exact ⟨lanes, ProductStep.iff_read.mpr ⟨factor, behind, first, Or.inl step⟩, outside⟩
      · cases done
    · rintro ⟨lanes, step, outside⟩
      obtain ⟨_, _, read, here | ⟨_, _, found, _⟩⟩ := ProductStep.iff_read.mp step
      · cases first.symm.trans read
        exact Or.inl ⟨lanes, here, outside⟩
      · cases first.symm.trans read
        cases last.symm.trans found
  | case3 text factor behind first next found ih =>
    rw [readFactors_more first found, evalFactors_cons_overflow_iff]
    constructor
    · rintro (⟨lanes, step, outside⟩ | ⟨term, product, allowed, fits, running, productHas, failed⟩)
      · exact ⟨lanes, ProductStep.iff_read.mpr ⟨factor, behind, first, Or.inl step⟩, outside⟩
      · obtain ⟨lanes, more, outside⟩ := ih.mp failed
        rw [productHas.exponents] at more
        exact ⟨lanes, ProductStep.iff_read.mpr
          ⟨factor, behind, first, Or.inr ⟨next, term, found, allowed, fits, running, more⟩⟩, outside⟩
    · rintro ⟨lanes, step, outside⟩
      obtain ⟨_, _, read, here | ⟨_, term, foundAgain, allowed, fits, running, more⟩⟩ :=
        ProductStep.iff_read.mp step
      · cases first.symm.trans read
        exact Or.inl ⟨lanes, here, outside⟩
      · cases first.symm.trans read
        cases found.symm.trans foundAgain
        obtain ⟨product, productHas⟩ :=
          MeasureUnit.has_exists (start.scale * term.magnitude) running
        refine Or.inr ⟨term, product, allowed, fits, running, productHas, ih.mpr ⟨lanes, ?_, outside⟩⟩
        rw [productHas.exponents]
        exact more

/-- The same for a product, whose first factor is not multiplied onto anything. -/
theorem evalProduct_read_overflow_iff {operatorForm : Bool} {text : List Char}
    {overflow : ExponentOverflow} :
    evalProduct operatorForm (readFactors text).factors = .error (.exponentOverflow overflow) ↔
      ∃ lanes, ProductStep (operatorForm = true) (fun _ => 0) text lanes ∧ overflow.Of lanes := by
  cases read : readFactor text with
  | none =>
    rw [readFactors_missing read]
    refine ⟨nofun, ?_⟩
    rintro ⟨_, step, _⟩
    obtain ⟨_, _, again, _⟩ := ProductStep.iff_read.mp step
    cases read.symm.trans again
  | some result =>
    obtain ⟨factor, behind⟩ := result
    have opening : ∃ rest, (readFactors text).factors = factor :: rest ∧
        ((nextFactor? behind = none ∧ rest = []) ∨
          ∃ next, nextFactor? behind = some next ∧ rest = (readFactors next).factors) := by
      cases found : nextFactor? behind with
      | none => exact ⟨[], by rw [readFactors_last read found], Or.inl ⟨rfl, rfl⟩⟩
      | some next => exact ⟨_, by rw [readFactors_more read found], Or.inr ⟨next, rfl, rfl⟩⟩
    obtain ⟨rest, factors, origin⟩ := opening
    rw [factors, evalProduct, bind_eq_error_iff]
    constructor
    · rintro (refused | ⟨unit, made, failed⟩)
      · obtain ⟨term, allowed, outside⟩ := Factor.eval_eq_overflow_iff.mp refused
        exact ⟨term.lane, ProductStep.iff_read.mpr ⟨factor, behind, read, Or.inl (.power allowed)⟩, outside⟩
      · obtain ⟨term, means, positive, fits, unitHas⟩ := Factor.eval_eq_ok_iff.mp made
        rcases origin with ⟨_, rfl⟩ | ⟨next, found, rfl⟩
        · cases failed
        obtain ⟨lanes, more, outside⟩ := evalFactors_read_overflow_iff.mp failed
        rw [unitHas.exponents] at more
        refine ⟨lanes, ProductStep.iff_read.mpr ⟨factor, behind, read, Or.inr
          ⟨next, term, found, ⟨means, positive⟩, fits, ?_, ?_⟩⟩, outside⟩
        · simpa only [Int.zero_add] using fits
        · simpa only [Int.zero_add] using more
    · rintro ⟨lanes, step, outside⟩
      obtain ⟨_, _, again, here | ⟨next, term, found, allowed, fits, _, more⟩⟩ :=
        ProductStep.iff_read.mp step
      · cases read.symm.trans again
        cases here with
        | @power term allowed => exact Or.inl (Factor.eval_eq_overflow_iff.mpr ⟨term, allowed, outside⟩)
        | product _ fits => exact absurd (by simpa only [Int.zero_add] using fits) outside.not_fits
      · cases read.symm.trans again
        obtain ⟨unit, unitHas⟩ := MeasureUnit.has_exists term.magnitude fits
        refine Or.inr ⟨unit,
          Factor.eval_eq_ok_iff.mpr ⟨term, allowed.means, allowed.positive, fits, unitHas⟩, ?_⟩
        rcases origin with ⟨last, _⟩ | ⟨_, foundAgain, rfl⟩
        · cases last.symm.trans found
        cases foundAgain.symm.trans found
        refine evalFactors_read_overflow_iff.mpr ⟨lanes, ?_, outside⟩
        rw [unitHas.exponents]
        simpa only [Int.zero_add] using more

end Mensura
