import Mensura.MeasureUnit.Parse
import Mensura.Proofs.Except
import Mensura.Proofs.MeasureUnit.Reading

namespace Mensura

theorem skipBlanks_head (text : List Char) : ∀ c ∈ (skipBlanks text).head?, isBlank c = false :=
  dropWhile_outside text

theorem skipBlanks_trimBlanks (text : List Char) :
    ∃ after, Blanks after ∧ skipBlanks text = trimBlanks text ++ after := by
  obtain ⟨after, white, split⟩ := skipBlanks_split (skipBlanks text).reverse
  refine ⟨after.reverse, fun c member => white c (List.mem_reverse.mp member), ?_⟩
  rw [trimBlanks, ← List.reverse_append, ← split, List.reverse_reverse]

theorem trimBlanks_head (text : List Char) : ∀ c ∈ (trimBlanks text).head?, isBlank c = false := by
  obtain ⟨after, _, split⟩ := skipBlanks_trimBlanks text
  intro c first
  refine skipBlanks_head text c ?_
  rw [split, List.head?_append, Option.mem_def.mp first]
  rfl

theorem trimBlanks_last (text : List Char) : ∀ c ∈ (trimBlanks text).getLast?, isBlank c = false := by
  intro c last
  rw [trimBlanks, List.getLast?_reverse] at last
  exact skipBlanks_head _ c last

/-- A text without blanks at its two ends is not changed by removing them. -/
theorem trimBlanks_eq_self {text : List Char} (first : ∀ c ∈ text.head?, isBlank c = false)
    (last : ∀ c ∈ text.getLast?, isBlank c = false) : trimBlanks text = text := by
  have noBlanks : Blanks [] := nofun
  have start : skipBlanks text = text := skipBlanks_append noBlanks first
  rw [← List.head?_reverse] at last
  have finish : skipBlanks text.reverse = text.reverse := skipBlanks_append noBlanks last
  rw [trimBlanks, start, finish, List.reverse_reverse]

/-- In a text that does not start with a blank, blanks at the start are none. -/
theorem blanks_start {text w body : List Char} (first : ∀ c ∈ text.head?, isBlank c = false)
    (blank : Blanks w) (split : text = w ++ body) : w = [] := by
  cases w with
  | nil => rfl
  | cons c tail =>
    subst split
    exact absurd (blank c (List.mem_cons_self ..)) (by simp [first c rfl])

/-- In a text that does not end in a blank, blanks at the end are none. -/
theorem blanks_end {text body w : List Char} (last : ∀ c ∈ text.getLast?, isBlank c = false)
    (blank : Blanks w) (split : text = body ++ w) : w = [] := by
  by_cases empty : w = []
  · exact empty
  have atEnd : w.getLast empty ∈ text.getLast? := by
    rw [split, List.getLast?_append, List.getLast?_eq_some_getLast empty]
    rfl
  exact absurd (blank _ (List.getLast_mem empty)) (by simp [last _ atEnd])

/-- Whether a text has one of the two operators anywhere. -/
def hasOperator (text : List Char) : Bool :=
  text.any fun c => c == '*' || c == '/'

theorem hasOperator_iff {text : List Char} : hasOperator text = true ↔ '*' ∈ text ∨ '/' ∈ text := by
  simp only [hasOperator, List.any_eq_true, Bool.or_eq_true, beq_iff_eq]
  constructor
  · rintro ⟨c, member, rfl | rfl⟩
    · exact Or.inl member
    · exact Or.inr member
  · rintro (member | member)
    · exact ⟨_, member, Or.inl rfl⟩
    · exact ⟨_, member, Or.inr rfl⟩

/-- The unit of a product that has been read. -/
def evalProduct (operatorForm : Bool) : List Factor → Except UnitError MeasureUnit
  | [] => .ok .one
  | first :: rest => do evalFactors operatorForm (← first.eval operatorForm) rest

/-- The unit of a formula. The scale is not checked. -/
def Fraction.eval (operatorForm : Bool) (formula : Fraction Factor) : Except UnitError MeasureUnit := do
  let numerator ← evalProduct operatorForm formula.numerator
  match formula.denominator with
  | none => return numerator
  | some divisors =>
    let denominator ← evalProduct operatorForm divisors
    (numerator.tryDiv denominator).mapError .exponentOverflow

theorem Product.eval_eq (operatorForm : Bool) (text : List Char) (product : Product) :
    product.eval operatorForm text = (do
      let unit ← evalProduct operatorForm product.factors
      let rest ← product.ending.mapError (unexpectedAt text)
      return (unit, rest)) := by
  obtain ⟨factors, ending⟩ := product
  cases factors with
  | nil => rfl
  | cons first later =>
    simp only [Product.eval, evalProduct]
    cases first.eval operatorForm <;> rfl

theorem Product.eval_closed (operatorForm : Bool) (text rest : List Char) (factors : List Factor) :
    Product.eval operatorForm text ⟨factors, .ok rest⟩ =
      (evalProduct operatorForm factors).map fun unit => (unit, rest) := by
  rw [Product.eval_eq]
  cases evalProduct operatorForm factors <;> rfl

theorem Product.ending_of_eval {operatorForm : Bool} {text rest : List Char} {product : Product}
    {unit : MeasureUnit} (done : product.eval operatorForm text = .ok (unit, rest)) :
    product.ending = .ok rest := by
  rw [Product.eval_eq] at done
  obtain ⟨_, _, later⟩ := bind_eq_ok_iff.mp done
  obtain ⟨_, ended, same⟩ := bind_eq_ok_iff.mp later
  cases same
  exact mapError_eq_ok_iff.mp ended

theorem closes_end : Closes [] :=
  nofun

theorem closes_slash (rest : List Char) : Closes ('/' :: rest) :=
  fun _ first => Or.inl (Option.some.inj first).symm

theorem closes_parenthesis (rest : List Char) : Closes (')' :: rest) :=
  fun _ first => Or.inr (Option.some.inj first).symm

theorem readProduct_start {text w rest : List Char} {factors : List Factor}
    (product : ProductText text factors) (blank : Blanks w) (closes : Closes rest) :
    readProduct (text ++ w ++ rest) = ⟨factors, .ok rest⟩ := by
  have noBlanks : Blanks [] := nofun
  exact readProduct_product noBlanks product blank closes

/-- The start of a quotient, up to the parenthesis that opens the denominator. -/
inductive OpenedText : List Char → List Factor → Prop
  | opened {above beforeSlash afterSlash : List Char} {factors : List Factor} :
      ProductText above factors → Blanks beforeSlash → Blanks afterSlash →
      OpenedText (above ++ beforeSlash ++ '/' :: afterSlash ++ ['(']) factors

theorem OpenedText.read {start : List Char} {factors : List Factor} (opened : OpenedText start factors)
    (inner : List Char) : ∃ afterSlash,
      readProduct (start ++ inner) = ⟨factors, .ok ('/' :: afterSlash)⟩ ∧
        skipBlanks afterSlash = '(' :: inner := by
  cases opened with
  | @opened above beforeSlash afterSlash _ product whiteBefore whiteAfter =>
    have joined : above ++ beforeSlash ++ '/' :: afterSlash ++ ['('] ++ inner =
        above ++ beforeSlash ++ '/' :: (afterSlash ++ '(' :: inner) := by
      simp only [List.append_assoc, List.cons_append, List.nil_append]
    refine ⟨afterSlash ++ '(' :: inner, ?_, skipBlanks_append whiteAfter (outside_head (by decide) _)⟩
    rw [joined]
    exact readProduct_start product whiteBefore (closes_slash _)

/-- How a spelled formula is read: its numerator up to the end of the text, or up
to a slash with the denominator behind it. -/
inductive Fraction.ReadFrom (text : List Char) : Fraction Factor → Prop
  | product {factors : List Factor} : readProduct text = ⟨factors, .ok []⟩ → ReadFrom text ⟨factors, none⟩
  | quotient {factors divisors : List Factor} {afterSlash inner : List Char} :
      readProduct text = ⟨factors, .ok ('/' :: afterSlash)⟩ → skipBlanks afterSlash = '(' :: inner →
      readProduct inner = ⟨divisors, .ok [')']⟩ → ReadFrom text ⟨factors, some divisors⟩

theorem UnitText.readFrom {text : List Char} {formula : Fraction Factor}
    (written : UnitText text formula) : formula.ReadFrom text := by
  cases written with
  | product product =>
    have read := readProduct_start product (w := []) nofun closes_end
    rw [List.append_nil, List.append_nil] at read
    exact .product read
  | @quotient above beforeSlash afterSlash inside below behind factors divisors
      product whiteBefore whiteAfter whiteInside divisor whiteBehind =>
    obtain ⟨tail, readAbove, skipped⟩ :=
      (OpenedText.opened product whiteBefore whiteAfter).read (inside ++ (below ++ behind ++ [')']))
    have joined : above ++ beforeSlash ++ '/' :: afterSlash ++ '(' :: inside ++ below ++ behind ++ [')'] =
        above ++ beforeSlash ++ '/' :: afterSlash ++ ['('] ++ (inside ++ (below ++ behind ++ [')'])) := by
      simp only [List.append_assoc, List.cons_append, List.nil_append]
    rw [joined]
    exact .quotient readAbove skipped
      (readProduct_product whiteInside divisor whiteBehind (closes_parenthesis []))

/-- A text spells one formula at most. -/
theorem UnitText.unique {text : List Char} {formula other : Fraction Factor}
    (written : UnitText text formula) (again : UnitText text other) : formula = other := by
  cases written.readFrom with
  | product read =>
    cases again.readFrom with
    | product reread =>
      cases read.symm.trans reread
      rfl
    | quotient reread _ _ => cases read.symm.trans reread
  | quotient read skipped readBelow =>
    cases again.readFrom with
    | product reread => cases read.symm.trans reread
    | quotient reread skippedAgain rereadBelow =>
      cases read.symm.trans reread
      cases skipped.symm.trans skippedAgain
      cases readBelow.symm.trans rereadBelow
      rfl

/-- A text that spells a formula has the value of the formula, or the error of
its evaluation. -/
theorem parseTrimmed_formula {text : List Char} {formula : Fraction Factor}
    (written : UnitText text formula) :
    parseTrimmed text = (do
      let unit ← formula.eval (hasOperator text)
      MeasureUnit.checked unit.scale unit.dimension) := by
  cases written.readFrom with
  | @product factors read =>
    simp only [parseTrimmed, read, Product.eval_closed, Fraction.eval, ← hasOperator.eq_def]
    cases evalProduct (hasOperator text) factors <;> rfl
  | @quotient factors divisors afterSlash inner readAbove skipped readBelow =>
    simp only [parseTrimmed, readAbove, Product.eval_closed, Fraction.eval, ← hasOperator.eq_def]
    cases evalProduct (hasOperator text) factors with
    | error _ => rfl
    | ok numerator =>
      simp only [Except.map, bind, Except.bind, skipped, readBelow, Product.eval_closed]
      cases evalProduct (hasOperator text) divisors with
      | error _ => rfl
      | ok denominator => cases numerator.tryDiv denominator <;> rfl

theorem product_of_eval {operatorForm : Bool} {text place rest : List Char} {unit : MeasureUnit}
    (done : (readProduct place).eval operatorForm text = .ok (unit, rest)) :
    ∃ factors before body w, Blanks before ∧ ProductText body factors ∧ Blanks w ∧
      place = before ++ (body ++ w ++ rest) := by
  have closed := Product.ending_of_eval done
  refine ⟨(readProduct place).factors, product_of_readProduct ?_⟩
  rw [← closed]

/-- A trimmed text that has a unit spells a formula. -/
theorem formula_of_parseTrimmed {text : List Char} {unit : MeasureUnit}
    (first : ∀ c ∈ text.head?, isBlank c = false) (last : ∀ c ∈ text.getLast?, isBlank c = false)
    (done : parseTrimmed text = .ok unit) : ∃ formula, UnitText text formula := by
  obtain ⟨⟨numerator, rest⟩, readAbove, later⟩ := bind_eq_ok_iff.mp done
  obtain ⟨factors, before, above, beforeSlash, white, product, whiteBefore, split⟩ :=
    product_of_eval readAbove
  cases blanks_start first white split
  dsimp only at later
  -- Behind the numerator stands a slash, or nothing at all.
  split at later
  · rename_i afterSlash
    split at later
    · rename_i inner opened
      obtain ⟨⟨denominator, place⟩, readBelow, later⟩ := bind_eq_ok_iff.mp later
      obtain ⟨divisors, inside, below, behind, whiteInside, divisor, whiteBehind, splitBelow⟩ :=
        product_of_eval readBelow
      dsimp only at later
      split at later
      · rename_i tail
        obtain ⟨quotient, _, later⟩ := bind_eq_ok_iff.mp later
        change (if (skipBlanks tail).isEmpty then _ else _) = Except.ok unit at later
        obtain ⟨w, whiteAfter, splitSlash⟩ := skipBlanks_split afterSlash
        obtain ⟨blank, whiteTail, splitTail⟩ := skipBlanks_split tail
        split at later
        · rename_i empty
          rw [List.isEmpty_iff.mp empty, List.append_nil] at splitTail
          subst splitTail
          rw [opened, splitBelow] at splitSlash
          have ended : text = above ++ beforeSlash ++ '/' :: w ++ '(' :: inside ++ below ++ behind ++
              [')'] ++ tail := by
            rw [split, splitSlash]
            simp only [List.append_assoc, List.cons_append, List.nil_append]
          cases blanks_end last whiteTail ended
          rw [ended, List.append_nil]
          exact ⟨_, .quotient product whiteBefore whiteAfter whiteInside divisor whiteBehind⟩
        · cases later
      · cases later
    · cases later
  · change (if rest.isEmpty then _ else _) = Except.ok unit at later
    split at later
    · rename_i empty
      rw [List.isEmpty_iff.mp empty, List.append_nil, List.nil_append] at split
      cases blanks_end last whiteBefore split
      rw [split, List.append_nil]
      exact ⟨_, .product product⟩
    · cases later

/-- A text that spells a formula between blanks has the value of the formula, or
the error of its evaluation. -/
theorem parseUnit_formula {text : String} {formula : Fraction Factor}
    (written : UnitText (trimBlanks text.toList) formula) :
    parseUnit text = (do
      let unit ← formula.eval (hasOperator (trimBlanks text.toList))
      MeasureUnit.checked unit.scale unit.dimension) := by
  rw [← parseTrimmed_formula written, parseUnit]
  obtain ⟨c, tail, split, _⟩ := written.head
  rw [split]
  rfl

/-- A text that has a unit spells a formula between blanks. -/
theorem formula_of_parseUnit {text : String} {unit : MeasureUnit} (done : parseUnit text = .ok unit) :
    ∃ formula, UnitText (trimBlanks text.toList) formula := by
  rw [parseUnit] at done
  split at done
  · cases done
  · exact formula_of_parseTrimmed (trimBlanks_head _) (trimBlanks_last _) done

end Mensura
