import Mensura.Proofs.MeasureUnit.Acceptance
import Mensura.Proofs.MeasureUnit.Spacing

namespace Mensura

/-- The symbol and the exponent of a factor with a negative power. -/
def Factor.negative? (factor : Factor) : Option (List Char × Int) :=
  match factor.exponent.bind (readSigned (-2147483648) 2147483647) with
  | some n => if n < 0 then some (factor.symbol, n) else none
  | none => none

/-- What becomes of an answer beside an operator: the first of the factors that has
a negative exponent is refused. -/
def unlessNegative {α : Type} (factors : List Factor) (answer : Except UnitError α) : Except UnitError α :=
  match factors.findSome? Factor.negative? with
  | none => answer
  | some (symbol, n) => .error (.negativeExponent symbol n)

section Negative

variable {α β : Type} {factors others : List Factor} {start u : MeasureUnit}

theorem unlessNegative_append (answer : Except UnitError α) :
    unlessNegative (factors ++ others) answer = unlessNegative factors (unlessNegative others answer) := by
  unfold unlessNegative
  rw [List.findSome?_append]
  cases factors.findSome? Factor.negative? <;> rfl

theorem unlessNegative_bind (answer : Except UnitError α) (f : α → Except UnitError β) :
    unlessNegative factors answer >>= f = unlessNegative factors (answer >>= f) := by
  unfold unlessNegative
  cases factors.findSome? Factor.negative? <;> rfl

theorem Factor.power_beside {symbol text : List Char} {n : Int}
    (powered : Factor.power false symbol text = .ok n) :
    Factor.power true symbol text = unlessNegative [⟨symbol, some text⟩] (.ok n) := by
  obtain ⟨written, notZero, _⟩ := Factor.power_eq_ok_iff.mp powered
  have read := readSigned_eq_some_iff.mpr written
  have negative : Factor.negative? ⟨symbol, some text⟩ = if n < 0 then some (symbol, n) else none := by
    rw [Factor.negative?, Option.bind_some, read]
  rw [Factor.power, read, unlessNegative, List.findSome?_singleton, negative]
  simp only [if_neg notZero, Bool.true_and, decide_eq_true_eq]
  split <;> rfl

/-- Beside an operator the value of a factor is the same, or its sign is refused. -/
theorem Factor.eval_beside {factor : Factor} (made : factor.eval false = .ok u) :
    factor.eval true = unlessNegative [factor] (.ok u) := by
  obtain ⟨symbol, exponent⟩ := factor
  cases exponent with
  | none => exact made
  | some text =>
    obtain ⟨base, known, later⟩ := bind_eq_ok_iff.mp made
    obtain ⟨n, powered, raised⟩ := bind_eq_ok_iff.mp later
    calc Factor.eval true ⟨symbol, some text⟩
      _ = Factor.power true symbol text >>= fun n => (base.tryPow n).mapError .exponentOverflow := by
        rw [Factor.eval, known]
        rfl
      _ = unlessNegative [⟨symbol, some text⟩] ((base.tryPow n).mapError .exponentOverflow) := by
        rw [Factor.power_beside powered, unlessNegative_bind]
        rfl
      _ = unlessNegative [⟨symbol, some text⟩] (.ok u) := by rw [raised]

theorem evalFactors_beside (made : evalFactors false start factors = .ok u) :
    evalFactors true start factors = unlessNegative factors (.ok u) := by
  induction factors generalizing start with
  | nil => exact made
  | cons factor rest ih =>
    obtain ⟨unit, raised, later⟩ := bind_eq_ok_iff.mp made
    obtain ⟨product, multiplied, done⟩ := bind_eq_ok_iff.mp later
    calc evalFactors true start (factor :: rest)
      _ = unlessNegative [factor] (evalFactors true product rest) := by
        rw [evalFactors, Factor.eval_beside raised, unlessNegative_bind]
        change unlessNegative [factor] (Except.mapError _ (start.tryMul unit) >>= _) = _
        rw [multiplied]
        rfl
      _ = unlessNegative (factor :: rest) (.ok u) := by
        rw [ih done, ← unlessNegative_append, List.singleton_append]

theorem evalProduct_beside (made : evalProduct false factors = .ok u) :
    evalProduct true factors = unlessNegative factors (.ok u) := by
  cases factors with
  | nil => exact made
  | cons first rest =>
    obtain ⟨unit, raised, done⟩ := bind_eq_ok_iff.mp made
    calc evalProduct true (first :: rest)
      _ = unlessNegative [first] (evalFactors true unit rest) := by
        rw [evalProduct, Factor.eval_beside raised, unlessNegative_bind]
        rfl
      _ = unlessNegative (first :: rest) (.ok u) := by
        rw [evalFactors_beside done, ← unlessNegative_append, List.singleton_append]

end Negative

theorem Formable.mono {p q : Prop} {start : Base → Int} {terms : List Term} (weaker : q → p)
    (formable : Formable p start terms) : Formable q start terms :=
  ⟨fun operator => formable.positive (weaker operator), formable.factor_fits, formable.running_fits⟩

namespace Fraction

variable {formula : Fraction Factor} {u : MeasureUnit}

theorem eval_beside (made : formula.eval false = .ok u) :
    formula.eval true = unlessNegative formula.factors (.ok u) := by
  obtain ⟨numerator, denominator⟩ := formula
  obtain ⟨above, madeAbove, later⟩ := bind_eq_ok_iff.mp made
  cases denominator with
  | none =>
    cases later
    rw [Fraction.eval, factors, evalProduct_beside madeAbove, unlessNegative_bind]
    exact congrArg (unlessNegative · _) (List.append_nil numerator).symm
  | some divisors =>
    obtain ⟨below, madeBelow, divided⟩ := bind_eq_ok_iff.mp later
    calc Fraction.eval true ⟨numerator, some divisors⟩
      _ = unlessNegative numerator (evalProduct true divisors >>= fun denominator =>
          (above.tryDiv denominator).mapError .exponentOverflow) := by
        rw [Fraction.eval, evalProduct_beside madeAbove, unlessNegative_bind]
        rfl
      _ = unlessNegative numerator (unlessNegative divisors
          ((above.tryDiv below).mapError .exponentOverflow)) := by
        rw [evalProduct_beside madeBelow, unlessNegative_bind]
        rfl
      _ = unlessNegative (numerator ++ divisors) (.ok u) := by
        rw [divided, unlessNegative_append]

/-- What has a value beside an operator has the same value without one. -/
theorem eval_apart {operatorForm : Bool} (made : formula.eval operatorForm = .ok u) :
    formula.eval false = .ok u := by
  obtain ⟨meaning, means, ⟨numerator, denominator, fits⟩, has⟩ := eval_eq_ok_iff.mp made
  refine eval_eq_ok_iff.mpr ⟨meaning, means, ⟨numerator.mono nofun, ?_, fits⟩, has⟩
  exact fun divisors member => (denominator divisors member).mono nofun

end Fraction

/-- The edit that puts a star, with any blanks around it, in the place of the blanks
between two symbols. -/
inductive Starred : List Char → List Char → Prop
  | between {front run before after behind : List Char} {c d : Char} : isSymbolChar c = true →
      run ≠ [] → Blanks run → isSymbolChar d = true → Blanks before → Blanks after →
      Starred (front ++ c :: (run ++ d :: behind)) (front ++ c :: (before ++ '*' :: (after ++ d :: behind)))

theorem Starred.respaced {text other : List Char} (edit : Starred text other) :
    Respaced True false text other := by
  cases edit with
  | @between front run before after behind c d symbol some white symbol' whiteBefore whiteAfter =>
    refine Respaced.append_left front fun flag => .keep c ?_
    rw [symbol]
    exact .tighten trivial some white symbol' whiteBefore whiteAfter (Respaced.refl _)

theorem Starred.star_mem {text other : List Char} (edit : Starred text other) : '*' ∈ other := by
  cases edit with
  | between => simp

theorem mem_trimBlanks {c : Char} {text : List Char} (ink : isBlank c = false) :
    c ∈ trimBlanks text ↔ c ∈ text := by
  obtain ⟨before, after, whiteBefore, whiteAfter, split⟩ := trimBlanks_split text
  conv => rhs; rw [split]
  simp [whiteBefore.not_mem ink, whiteAfter.not_mem ink]

theorem hasOperator_trimBlanks {text : List Char} :
    hasOperator (trimBlanks text) = true ↔ '*' ∈ text ∨ '/' ∈ text := by
  rw [hasOperator_iff, mem_trimBlanks (by decide), mem_trimBlanks (by decide)]

/-- Where no stars are added, a text does not become one with an operator. -/
theorem Respaced.hasOperator {flag : Bool} {text other : List Char} (edit : Respaced False flag text other)
    (operator : hasOperator (trimBlanks other) = true) : hasOperator (trimBlanks text) = true := by
  rw [hasOperator_trimBlanks] at operator ⊢
  exact operator.imp (edit.mem (by decide)) (edit.mem (by decide))

/-- How a text is spaced does not matter. Blanks around a text change no answer at
all. In a text that has a unit, blanks may become other blanks and stars may become
blanks. Blanks between two factors may become a star unless an exponent is negative,
and then the first negative exponent is refused. -/
theorem parseUnit_spacing (text : String) :
    (∀ before after : String, Blanks before.toList → Blanks after.toList →
      parseUnit (before ++ text ++ after) = parseUnit text) ∧
    ∀ u, parseUnit text = .ok u →
      (∀ other : String, Respaced False false text.toList other.toList → parseUnit other = .ok u) ∧
      ∃ formula, (∀ spelled, UnitText (trimBlanks text.toList) spelled ↔ spelled = formula) ∧
        ∀ other : String, Starred text.toList other.toList →
          parseUnit other = match formula.factors.findSome? Factor.negative? with
            | none => .ok u
            | some (symbol, n) => .error (.negativeExponent symbol n) := by
  constructor
  · intro before after whiteBefore whiteAfter
    rw [parseUnit, String.toList_append, String.toList_append, List.append_assoc,
      trimBlanks_pad whiteBefore whiteAfter, ← parseUnit]
  intro u done
  obtain ⟨formula, written⟩ := formula_of_parseUnit done
  rw [parseUnit_formula written] at done
  obtain ⟨unit, made, checked⟩ := bind_eq_ok_iff.mp done
  constructor
  · intro other edit
    rw [parseUnit_formula (written.trimBlanks_respaced edit)]
    refine bind_eq_ok_iff.mpr ⟨unit, ?_, checked⟩
    cases operator : hasOperator (trimBlanks other.toList) with
    | false => exact Fraction.eval_apart made
    | true =>
      rw [edit.hasOperator operator] at made
      exact made
  · refine ⟨formula, fun spelled => ⟨fun again => again.unique written, ?_⟩, fun other edit => ?_⟩
    · rintro rfl
      exact written
    · have operator : hasOperator (trimBlanks other.toList) = true :=
        hasOperator_trimBlanks.mpr (Or.inl edit.star_mem)
      rw [parseUnit_formula (written.trimBlanks_respaced edit.respaced), operator,
        Fraction.eval_beside (Fraction.eval_apart made), unlessNegative_bind]
      change unlessNegative formula.factors (MeasureUnit.checked unit.scale unit.dimension) = _
      rw [checked]
      rfl

/-- The star forbids the exponent of the last factor, far behind it. -/
example : parseUnit "kg*m s^-2" = .error (.negativeExponent ['s'] (-2)) := by
  decide +kernel

end Mensura
