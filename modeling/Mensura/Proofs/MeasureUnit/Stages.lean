import Mensura.Proofs.MeasureUnit.Parsing

namespace Mensura

section Places

variable {text place tail rest : List Char}

theorem skipBlanks_skipBlanks (text : List Char) : skipBlanks (skipBlanks text) = skipBlanks text := by
  have noBlanks : Blanks [] := nofun
  exact skipBlanks_append noBlanks (skipBlanks_head text)

/-- Behind a product there are no blanks left. -/
theorem skipBlanks_ending (closed : (readFactors text).ending = .ok rest) : skipBlanks rest = rest := by
  induction text using readFactors.induct with
  | case1 text unread =>
    rw [readFactors_missing unread] at closed
    cases closed
  | case2 text factor behind first last =>
    rw [readFactors_last first last] at closed
    cases closed
    exact skipBlanks_skipBlanks behind
  | case3 text factor behind first next found ih =>
    rw [readFactors_more first found] at closed
    exact ih closed

theorem head?_ne {c : Char} (other : ∀ tail, place ≠ c :: tail) : place.head? ≠ .some c := by
  intro first
  obtain ⟨tail, same⟩ := List.head?_eq_some_iff.mp first
  exact other tail same

theorem readFactor_none (none : place.takeWhile isSymbolChar = []) : readFactor place = .none := by
  simp only [readFactor, none, List.isEmpty_nil, if_true]

theorem readFactor_power (some : place.takeWhile isSymbolChar ≠ [])
    (after : place.dropWhile isSymbolChar = '^' :: tail) :
    readFactor place = .some
      (⟨place.takeWhile isSymbolChar, .some (tail.takeWhile isExponentChar)⟩, tail.dropWhile isExponentChar) := by
  simp only [readFactor, List.isEmpty_iff, some, if_false, after]

theorem readFactor_plain (some : place.takeWhile isSymbolChar ≠ [])
    (plain : (place.dropWhile isSymbolChar).head? ≠ .some '^') :
    readFactor place = .some (⟨place.takeWhile isSymbolChar, .none⟩, place.dropWhile isSymbolChar) := by
  simp only [readFactor, List.isEmpty_iff, some, if_false]
  split
  · rename_i tail after
    rw [after] at plain
    exact absurd rfl plain
  · rfl

theorem nextFactor?_star (star : skipBlanks place = '*' :: tail) :
    nextFactor? place = .some (skipBlanks tail) := by
  rw [nextFactor?, star]
  rfl

/-- Without a star the next factor is behind blanks. -/
theorem nextFactor?_plain (plain : (skipBlanks place).head? ≠ .some '*') :
    nextFactor? place = if decide ((skipBlanks place).length < place.length) &&
      (skipBlanks place).head?.any isSymbolChar then .some (skipBlanks place) else .none := by
  rw [nextFactor?]
  split
  · rename_i tail after
    rw [after] at plain
    exact absurd rfl plain
  · rename_i after
    rw [after]
    rfl
  · rename_i after
    rw [after, List.head?_nil, Option.any_none, Bool.and_false]
    rfl

end Places

/-- The unit of the factor at a place of a text, and what follows the factor. -/
def factorAt (operatorForm : Bool) (text place : List Char) : Except UnitError (MeasureUnit × List Char) :=
  match readFactor place with
  | none => .error (unexpectedAt text place)
  | some (factor, rest) => do
    let unit ← factor.eval operatorForm
    return (unit, rest)

/-- A product with one more factor, and what follows the factor. At the end of the
product there is none. -/
def roundAt (operatorForm : Bool) (text : List Char) (unit : MeasureUnit) (place : List Char) :
    Except UnitError (Option MeasureUnit × List Char) :=
  match nextFactor? place with
  | none => .ok (none, skipBlanks place)
  | some next => do
    let (factor, rest) ← factorAt operatorForm text next
    let product ← (unit.tryMul factor).mapError .exponentOverflow
    return (some product, rest)

/-- The unit of a product whose factors up to a place have been multiplied, and
what follows the product. -/
def productFrom (operatorForm : Bool) (text : List Char) (unit : MeasureUnit) (place : List Char) :
    Except UnitError (MeasureUnit × List Char) :=
  match nextFactor? place with
  | none => .ok (unit, skipBlanks place)
  | some next => do
    let product ← evalFactors operatorForm unit (readFactors next).factors
    let rest ← (readFactors next).ending.mapError (unexpectedAt text)
    return (product, rest)

section Product

variable {operatorForm : Bool} {text place next rest : List Char}

theorem factorAt_missing (unread : readFactor place = none) :
    factorAt operatorForm text place = .error (unexpectedAt text place) := by
  rw [factorAt, unread]

theorem factorAt_read {factor : Factor} (read : readFactor place = some (factor, rest)) :
    factorAt operatorForm text place = (do
      let unit ← factor.eval operatorForm
      return (unit, rest)) := by
  rw [factorAt, read]

theorem productFrom_last {unit : MeasureUnit} (last : nextFactor? place = none) :
    productFrom operatorForm text unit place = .ok (unit, skipBlanks place) := by
  rw [productFrom, last]

/-- Behind its first factor a product is read on as one that goes on from there. -/
theorem readFactors_first {factor : Factor} (read : readFactor place = some (factor, rest)) :
    ∃ later ending, readFactors place = ⟨factor :: later, ending⟩ ∧
      ∀ operatorForm text unit, productFrom operatorForm text unit rest = (do
        let product ← evalFactors operatorForm unit later
        let behind ← ending.mapError (unexpectedAt text)
        return (product, behind)) := by
  cases after : nextFactor? rest with
  | none => exact ⟨[], _, readFactors_last read after, fun _ _ _ => productFrom_last after⟩
  | some next =>
    refine ⟨_, _, readFactors_more read after, fun _ _ _ => ?_⟩
    rw [productFrom, after]

/-- A product goes on with one round, unless it is over, and is a product from there on. -/
theorem productFrom_eq (unit : MeasureUnit) :
    productFrom operatorForm text unit place = (do
      let (product, rest) ← roundAt operatorForm text unit place
      match product with
      | none => return (unit, rest)
      | some product => productFrom operatorForm text product rest) := by
  cases found : nextFactor? place with
  | none =>
    rw [productFrom_last found, roundAt, found]
    rfl
  | some next =>
    rw [productFrom, roundAt, found]
    dsimp only
    cases read : readFactor next with
    | none =>
      rw [readFactors_missing read, factorAt_missing read]
      rfl
    | some more =>
      obtain ⟨later, ending, factors, goesOn⟩ := readFactors_first read
      rw [factorAt_read read, factors]
      simp only [evalFactors, bind_assoc, pure_bind, goesOn]

theorem roundAt_shorter {unit product : MeasureUnit}
    (went : roundAt operatorForm text unit place = .ok (some product, rest)) :
    rest.length < place.length := by
  unfold roundAt at went
  split at went
  · cases went
  · rename_i next found
    obtain ⟨⟨factor, behind⟩, taken, went⟩ := bind_eq_ok_iff.mp went
    obtain ⟨_, _, went⟩ := bind_eq_ok_iff.mp went
    cases went
    have shorter := nextFactor?_length_le found
    cases read : readFactor next with
    | none =>
      rw [factorAt_missing read] at taken
      cases taken
    | some more =>
      rw [factorAt_read read] at taken
      obtain ⟨_, _, taken⟩ := bind_eq_ok_iff.mp taken
      cases taken
      have := readFactor_shorter read
      omega

theorem readProduct_eval :
    (readProduct place).eval operatorForm text = (do
      let (unit, rest) ← factorAt operatorForm text (skipBlanks place)
      productFrom operatorForm text unit rest) := by
  rw [Product.eval_eq, readProduct]
  cases read : readFactor (skipBlanks place) with
  | none =>
    rw [readFactors_missing read, factorAt_missing read]
    rfl
  | some more =>
    obtain ⟨later, ending, factors, goesOn⟩ := readFactors_first read
    rw [factorAt_read read, factors]
    simp only [evalProduct, bind_assoc, pure_bind, goesOn]

end Product

/-- The unit in the parentheses behind a slash, and what follows them. -/
def denominatorAt (operatorForm : Bool) (text place : List Char) :
    Except UnitError (MeasureUnit × List Char) :=
  match skipBlanks place with
  | '(' :: inner => do
    let (unit, rest) ← (readProduct inner).eval operatorForm text
    match rest with
    | ')' :: rest => return (unit, rest)
    | place => .error (unexpectedAt text place)
  | place => .error (.expectedParenthesis (byteLength text - byteLength place))

/-- The unit of a product or a quotient at a place of a text, and what follows it. -/
def fractionAt (operatorForm : Bool) (text place : List Char) :
    Except UnitError (MeasureUnit × List Char) := do
  let (numerator, rest) ← (readProduct place).eval operatorForm text
  match rest with
  | '/' :: rest =>
    let (denominator, rest) ← denominatorAt operatorForm text rest
    let unit ← (numerator.tryDiv denominator).mapError .exponentOverflow
    return (unit, rest)
  | rest => return (numerator, rest)

section Fraction

variable {operatorForm : Bool} {text place inner tail rest : List Char} {numerator unit : MeasureUnit}
  {error : UnitError}

theorem denominatorAt_opened (opened : skipBlanks place = '(' :: inner) :
    denominatorAt operatorForm text place = (do
      let (unit, rest) ← (readProduct inner).eval operatorForm text
      match rest with
      | ')' :: rest => return (unit, rest)
      | place => .error (unexpectedAt text place)) := by
  rw [denominatorAt, opened]
  rfl

theorem denominatorAt_failed (opened : skipBlanks place = '(' :: inner)
    (below : (readProduct inner).eval operatorForm text = .error error) :
    denominatorAt operatorForm text place = .error error := by
  rw [denominatorAt_opened opened, below]
  rfl

theorem denominatorAt_unit (opened : skipBlanks place = '(' :: inner)
    (below : (readProduct inner).eval operatorForm text = .ok (unit, ')' :: rest)) :
    denominatorAt operatorForm text place = .ok (unit, rest) := by
  rw [denominatorAt_opened opened, below]
  rfl

theorem denominatorAt_unclosed (opened : skipBlanks place = '(' :: inner)
    (below : (readProduct inner).eval operatorForm text = .ok (unit, rest))
    (unclosed : ∀ tail, rest ≠ ')' :: tail) :
    denominatorAt operatorForm text place = .error (unexpectedAt text rest) := by
  rw [denominatorAt_opened opened, below]
  dsimp only [bind, Except.bind]
  split
  · exact absurd rfl (unclosed _)
  · rfl

theorem denominatorAt_closed (closed : ∀ inner, skipBlanks place ≠ '(' :: inner) :
    denominatorAt operatorForm text place =
      .error (.expectedParenthesis (byteLength text - byteLength (skipBlanks place))) := by
  rw [denominatorAt]
  split
  · rename_i inner opened
    exact absurd opened (closed inner)
  · rfl

theorem fractionAt_whole (above : (readProduct place).eval operatorForm text = .ok (numerator, rest))
    (whole : ∀ tail, rest ≠ '/' :: tail) :
    fractionAt operatorForm text place = .ok (numerator, rest) := by
  rw [fractionAt, above]
  dsimp only [bind, Except.bind]
  split
  · exact absurd rfl (whole _)
  · rfl

theorem fractionAt_quotient
    (above : (readProduct place).eval operatorForm text = .ok (numerator, '/' :: tail)) :
    fractionAt operatorForm text place = (do
      let (denominator, rest) ← denominatorAt operatorForm text tail
      let unit ← (numerator.tryDiv denominator).mapError .exponentOverflow
      return (unit, rest)) := by
  rw [fractionAt, above]
  rfl

theorem parseTrimmed_eq (text : List Char) :
    parseTrimmed text = (do
      let (unit, rest) ← fractionAt (hasOperator text) text text
      if (skipBlanks rest).isEmpty then MeasureUnit.checked unit.scale unit.dimension
      else .error (.trailingInput (byteLength text - byteLength (skipBlanks rest)))) := by
  rw [parseTrimmed, ← hasOperator.eq_def]
  cases above : (readProduct text).eval (hasOperator text) text with
  | error _ =>
    rw [fractionAt, above]
    rfl
  | ok done =>
    obtain ⟨numerator, rest⟩ := done
    dsimp only [bind, Except.bind]
    -- A second product is only read behind a slash and an open parenthesis.
    split
    · rename_i tail
      rw [fractionAt_quotient above]
      split
      · rename_i inner opened
        cases below : (readProduct inner).eval (hasOperator text) text with
        | error _ =>
          rw [denominatorAt_failed opened below]
          rfl
        | ok done =>
          obtain ⟨denominator, place⟩ := done
          dsimp only
          split
          · rw [denominatorAt_unit opened below]
            dsimp only [bind, Except.bind]
            cases numerator.tryDiv denominator <;> rfl
          · rename_i unclosed
            rw [denominatorAt_unclosed opened below unclosed]
            rfl
      · rename_i closed
        rw [denominatorAt_closed closed]
        rfl
    · rename_i whole
      have stop := skipBlanks_ending (Product.ending_of_eval above)
      rw [fractionAt_whole above whole]
      dsimp only
      rw [stop]
      rfl

end Fraction

end Mensura
