import Mensura.MeasureUnit.Expression

namespace Mensura

/-- A text of blanks only, possibly empty. -/
def Blanks (text : List Char) : Prop :=
  ∀ c ∈ text, isBlank c = true

/-- The spellings of a factor: a symbol alone, or a symbol and its exponent. -/
inductive Factor.Written : List Char → Factor → Prop
  | plain {symbol : List Char} : symbol ≠ [] → (∀ c ∈ symbol, isSymbolChar c = true) →
      Written symbol ⟨symbol, none⟩
  | raised {symbol exponent : List Char} : symbol ≠ [] → (∀ c ∈ symbol, isSymbolChar c = true) →
      (∀ c ∈ exponent, isExponentChar c = true) →
      Written (symbol ++ '^' :: exponent) ⟨symbol, some exponent⟩

/-- What stands between two factors: one star with any blanks around it, or at
least one blank. -/
inductive Separator : List Char → Prop
  | star {before after : List Char} : Blanks before → Blanks after →
      Separator (before ++ '*' :: after)
  | blank {text : List Char} : text ≠ [] → Blanks text → Separator text

/-- The spellings of a product of factors. -/
inductive ProductText : List Char → List Factor → Prop
  | single {text : List Char} {factor : Factor} : factor.Written text → ProductText text [factor]
  | next {text between rest : List Char} {factor : Factor} {factors : List Factor} :
      factor.Written text → Separator between → ProductText rest factors →
      ProductText (text ++ between ++ rest) (factor :: factors)

/-- A product of items, or a product over another one. -/
structure Fraction (α : Type) where
  numerator : List α
  denominator : Option (List α)

/-- The factors of a formula in reading order. -/
def Fraction.factors (formula : Fraction Factor) : List Factor :=
  formula.numerator ++ formula.denominator.getD []

/-- The spellings of a unit. A denominator stands in parentheses. -/
inductive UnitText : List Char → Fraction Factor → Prop
  | product {text : List Char} {factors : List Factor} : ProductText text factors →
      UnitText text ⟨factors, none⟩
  | quotient {above beforeSlash afterSlash inside below behind : List Char}
      {factors divisors : List Factor} : ProductText above factors → Blanks beforeSlash →
      Blanks afterSlash → Blanks inside → ProductText below divisors → Blanks behind →
      UnitText (above ++ beforeSlash ++ '/' :: afterSlash ++ '(' :: inside ++ below ++ behind ++ [')'])
        ⟨factors, some divisors⟩

theorem isBlank_eq_false_of_isSymbolChar {c : Char} (symbol : isSymbolChar c = true) :
    isBlank c = false := by
  simp only [isSymbolChar, Bool.and_eq_true, Bool.not_eq_true'] at symbol
  exact symbol.1.1.1.1.1

theorem isDigit_toNat {c : Char} (digit : c.isDigit = true) : 48 ≤ c.toNat ∧ c.toNat ≤ 57 := by
  simp only [Char.isDigit, Bool.and_eq_true, decide_eq_true_eq] at digit
  exact ⟨UInt32.le_iff_toNat_le.mp digit.1, UInt32.le_iff_toNat_le.mp digit.2⟩

theorem isSymbolChar_of_isDigit {c : Char} (digit : c.isDigit = true) : isSymbolChar c = true := by
  obtain ⟨lower, upper⟩ := isDigit_toNat digit
  have notBlank : isBlank c = false := by
    simp only [isBlank, Bool.or_eq_false_iff, Bool.and_eq_false_imp, beq_eq_false_iff_ne,
      decide_eq_true_eq, decide_eq_false_iff_not]
    omega
  have other (d : Char) (outside : d.toNat < 48 ∨ 57 < d.toNat) : (c != d) = true := by
    simp only [bne_iff_ne]
    rintro rfl
    omega
  simp only [isSymbolChar, notBlank, other '*' (by decide), other '/' (by decide), other '^' (by decide),
    other '(' (by decide), other ')' (by decide), Bool.not_false, Bool.and_self]

theorem isSymbolChar_of_isExponentChar {c : Char} (exponent : isExponentChar c = true) :
    isSymbolChar c = true := by
  simp only [isExponentChar, Bool.or_eq_true, beq_iff_eq] at exponent
  rcases exponent with (rfl | rfl) | digit
  · decide
  · decide
  · exact isSymbolChar_of_isDigit digit

namespace Factor.Written

theorem head {text : List Char} {factor : Factor} (written : factor.Written text) :
    ∃ c tail, text = c :: tail ∧ isSymbolChar c = true := by
  have first {symbol : List Char} (some : symbol ≠ []) (all : ∀ c ∈ symbol, isSymbolChar c = true) :
      ∃ c tail, symbol = c :: tail ∧ isSymbolChar c = true := by
    obtain ⟨c, tail, rfl⟩ := List.exists_cons_of_ne_nil some
    exact ⟨c, tail, rfl, all c (List.mem_cons_self ..)⟩
  cases written with
  | plain some all => exact first some all
  | raised some all _ =>
    obtain ⟨c, tail, rfl, symbol⟩ := first some all
    exact ⟨c, _, rfl, symbol⟩

/-- There are no blanks inside of a factor. -/
theorem not_blank {text : List Char} {factor : Factor} (written : factor.Written text) :
    ∀ c ∈ text, isBlank c = false := by
  intro c member
  cases written with
  | plain _ all => exact isBlank_eq_false_of_isSymbolChar (all c member)
  | raised _ all digits =>
    rcases List.mem_append.mp member with member | member
    · exact isBlank_eq_false_of_isSymbolChar (all c member)
    · rcases List.mem_cons.mp member with rfl | member
      · decide
      · exact isBlank_eq_false_of_isSymbolChar (isSymbolChar_of_isExponentChar (digits c member))

end Factor.Written

theorem ProductText.head {text : List Char} {factors : List Factor} (product : ProductText text factors) :
    ∃ c tail, text = c :: tail ∧ isSymbolChar c = true := by
  cases product with
  | single written => exact written.head
  | next written _ _ =>
    obtain ⟨c, tail, rfl, symbol⟩ := written.head
    exact ⟨c, _, rfl, symbol⟩

theorem ProductText.last {text : List Char} {factors : List Factor} (product : ProductText text factors) :
    ∀ c ∈ text.getLast?, isBlank c = false := by
  induction product with
  | single written => exact fun c last => written.not_blank c (List.mem_of_getLast? last)
  | @next text between rest _ _ _ _ later ih =>
    obtain ⟨c, tail, rfl, _⟩ := later.head
    intro d last
    have ends := List.getLast?_eq_some_getLast (List.cons_ne_nil c tail)
    rw [List.getLast?_append, ends, Option.some_or, ← ends] at last
    exact ih d last

theorem UnitText.head {text : List Char} {formula : Fraction Factor} (written : UnitText text formula) :
    ∃ c tail, text = c :: tail ∧ isSymbolChar c = true := by
  cases written with
  | product product => exact product.head
  | quotient product =>
    obtain ⟨c, tail, rfl, symbol⟩ := product.head
    simp only [List.append_assoc, List.cons_append]
    exact ⟨c, _, rfl, symbol⟩

theorem UnitText.last {text : List Char} {formula : Fraction Factor} (written : UnitText text formula) :
    ∀ c ∈ text.getLast?, isBlank c = false := by
  cases written with
  | product product => exact product.last
  | quotient =>
    intro c last
    rw [List.getLast?_concat] at last
    cases last
    decide

end Mensura
