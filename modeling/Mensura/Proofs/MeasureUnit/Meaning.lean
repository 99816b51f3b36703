import Mathlib.Data.List.Forall2
import Mensura.MeasureUnit.Parse
import Mensura.Proofs.Dimension.Fit
import Mensura.Proofs.MeasureUnit.Grammar

namespace Mensura

/-- At least one decimal digit, and nothing else. -/
def Digits (text : List Char) : Prop :=
  text ≠ [] ∧ ∀ c ∈ text, c.isDigit = true

/-- The spellings of a whole number: digits with at most one sign in front. -/
inductive SignedText : List Char → Int → Prop
  | unsigned {digits : List Char} : Digits digits → SignedText digits (digitsValue digits)
  | plus {digits : List Char} : Digits digits → SignedText ('+' :: digits) (digitsValue digits)
  | minus {digits : List Char} : Digits digits → SignedText ('-' :: digits) (-digitsValue digits)

theorem readNat_eq_some_iff {text : List Char} {n : Nat} :
    readNat text = some n ↔ Digits text ∧ digitsValue text = n := by
  simp only [readNat, Digits, Option.ite_none_right_eq_some, Bool.and_eq_true, Bool.not_eq_true',
    List.isEmpty_eq_false_iff, List.all_eq_true, Option.some.injEq]

theorem Digits.not_signed {sign : Char} {text : List Char} (digits : Digits (sign :: text))
    (notDigit : sign.isDigit = false := by decide) : False :=
  absurd (digits.2 sign (List.mem_cons_self ..)) (by simp [notDigit])

theorem readSigned_eq_some_iff {low high n : Int} {text : List Char} :
    readSigned low high text = some n ↔ SignedText text n ∧ low ≤ n ∧ n ≤ high := by
  simp only [readSigned, Option.filter_eq_some_iff, decide_eq_true_eq]
  refine and_congr_left fun _ => ?_
  split
  · simp only [Option.map_eq_some_iff, Option.bind_eq_bind, Option.bind_eq_some_iff, Option.pure_def,
      Option.some.injEq, readNat_eq_some_iff]
    constructor
    · rintro ⟨_, ⟨_, ⟨digits, rfl⟩, rfl⟩, rfl⟩
      exact .minus digits
    · intro written
      cases written with
      | unsigned digits => exact digits.not_signed.elim
      | minus digits => exact ⟨_, ⟨_, ⟨digits, rfl⟩, rfl⟩, rfl⟩
  · simp only [Option.map_eq_some_iff, readNat_eq_some_iff]
    constructor
    · rintro ⟨_, ⟨digits, rfl⟩, rfl⟩
      exact .plus digits
    · intro written
      cases written with
      | unsigned digits => exact digits.not_signed.elim
      | plus digits => exact ⟨_, ⟨digits, rfl⟩, rfl⟩
  · rename_i notMinus notPlus
    simp only [Option.map_eq_some_iff, readNat_eq_some_iff]
    constructor
    · rintro ⟨_, ⟨digits, rfl⟩, rfl⟩
      exact .unsigned digits
    · intro written
      cases written with
      | unsigned digits => exact ⟨_, ⟨digits, rfl⟩, rfl⟩
      | plus digits => exact (notPlus _ rfl).elim
      | minus digits => exact (notMinus _ rfl).elim

/-- A text spells one whole number at most. -/
theorem SignedText.unique {text : List Char} {n m : Int} (written : SignedText text n)
    (again : SignedText text m) : n = m := by
  have first : readSigned (min n m) (max n m) text = some n :=
    readSigned_eq_some_iff.mpr ⟨written, by omega, by omega⟩
  have second : readSigned (min n m) (max n m) text = some m :=
    readSigned_eq_some_iff.mpr ⟨again, by omega, by omega⟩
  exact Option.some.inj (first.symm.trans second)

/-- The scale and the dimension of a symbol: the number one, or what the tables say. -/
def symbolMeaning? (symbol : List Char) : Option (Float × Dimension) :=
  if symbol = ['1'] then some (1.0, .dimensionless) else resolveSymbol symbol

/-- What a written factor stands for. -/
structure Term where
  scale : Float
  dimension : Dimension
  exponent : Option Int

namespace Term

/-- The exact exponent of a base in a factor, whether or not it fits a signature. -/
def lane (term : Term) (base : Base) : Int :=
  term.dimension.exponent base * term.exponent.getD 1

/-- The scale of a factor. Without an exponent no power is taken. -/
def magnitude (term : Term) : Float :=
  match term.exponent with
  | none => term.scale
  | some n => integerPower term.scale n

end Term

/-- The factors that stand for something. An exponent is a number of 32 bits
and not zero. -/
inductive Factor.Means : Factor → Term → Prop
  | plain {symbol : List Char} {scale : Float} {dimension : Dimension} :
      symbolMeaning? symbol = some (scale, dimension) →
      Means ⟨symbol, none⟩ ⟨scale, dimension, none⟩
  | raised {symbol text : List Char} {scale : Float} {dimension : Dimension} {n : Int} :
      symbolMeaning? symbol = some (scale, dimension) → SignedText text n →
      -2147483648 ≤ n → n ≤ 2147483647 → n ≠ 0 →
      Means ⟨symbol, some text⟩ ⟨scale, dimension, some n⟩

theorem Factor.base_eq (factor : Factor) :
    factor.base = match symbolMeaning? factor.symbol with
      | some (scale, dimension) => .ok ⟨scale, dimension⟩
      | none => .error (.unknownSymbol factor.symbol) := by
  unfold Factor.base symbolMeaning?
  by_cases one : factor.symbol = ['1']
  · simp only [if_pos one]
    rfl
  · cases resolveSymbol factor.symbol <;> simp only [if_neg one]

theorem Factor.base_eq_ok_iff {factor : Factor} {u : MeasureUnit} :
    factor.base = .ok u ↔ symbolMeaning? factor.symbol = some (u.scale, u.dimension) := by
  rw [Factor.base_eq]
  cases symbolMeaning? factor.symbol with
  | none => exact ⟨nofun, nofun⟩
  | some meaning =>
    constructor
    · intro made
      cases made
      rfl
    · intro known
      cases known
      rfl

theorem Factor.power_eq_ok_iff {operatorForm : Bool} {symbol text : List Char} {n : Int} :
    Factor.power operatorForm symbol text = .ok n ↔
      (SignedText text n ∧ -2147483648 ≤ n ∧ n ≤ 2147483647) ∧ n ≠ 0 ∧
        (operatorForm = true → 0 < n) := by
  rw [← readSigned_eq_some_iff]
  unfold Factor.power
  cases readSigned (-2147483648) 2147483647 text with
  | none => exact ⟨nofun, nofun⟩
  | some value =>
    dsimp only
    split
    · rename_i zero
      refine ⟨nofun, ?_⟩
      rintro ⟨same, notZero, _⟩
      cases same
      exact (notZero zero).elim
    · rename_i notZero
      split
      · rename_i forbidden
        obtain ⟨operator, negative⟩ : operatorForm = true ∧ value < 0 := by simpa using forbidden
        refine ⟨nofun, ?_⟩
        rintro ⟨same, _, positive⟩
        cases same
        have := positive operator
        omega
      · rename_i allowed
        constructor
        · intro made
          cases made
          refine ⟨rfl, notZero, fun operator => ?_⟩
          simp only [operator, Bool.true_and, decide_eq_true_eq] at allowed
          omega
        · rintro ⟨same, _, _⟩
          cases same
          rfl

/-- A factor has a value just if it stands for something, its sign is allowed
and its exponents fit. -/
theorem Factor.eval_eq_ok_iff {operatorForm : Bool} {factor : Factor} {u : MeasureUnit} :
    factor.eval operatorForm = .ok u ↔
      ∃ term, factor.Means term ∧ (operatorForm = true → ∀ n ∈ term.exponent, 0 < n) ∧
        (∀ base, Dimension.ExponentFits (term.lane base)) ∧ u.Has term.magnitude term.lane := by
  obtain ⟨symbol, exponent⟩ := factor
  unfold Factor.eval
  rw [bind_eq_ok_iff]
  constructor
  · rintro ⟨base, known, later⟩
    rw [Factor.base_eq_ok_iff] at known
    cases exponent with
    | none =>
      cases later
      have lane_eq (b : Base) : Term.lane ⟨u.scale, u.dimension, none⟩ b = u.dimension.exponent b :=
        Int.mul_one _
      refine ⟨_, .plain known, fun _ => nofun, fun b => ?_, rfl, fun b => (lane_eq b).symm⟩
      rw [lane_eq]
      exact u.dimension.exponent_fits b
    | some text =>
      obtain ⟨n, powered, made⟩ := bind_eq_ok_iff.mp later
      obtain ⟨⟨written, lower, upper⟩, notZero, positive⟩ := Factor.power_eq_ok_iff.mp powered
      obtain ⟨fits, has⟩ := MeasureUnit.tryPow_eq_ok_iff.mp (mapError_eq_ok_iff.mp made)
      refine ⟨_, .raised known written lower upper notZero, ?_, fits, has⟩
      intro operator k member
      cases Option.some.inj member
      exact positive operator
  · rintro ⟨term, means, positive, fits, has⟩
    cases means with
    | @plain _ scale dimension known =>
      refine ⟨⟨scale, dimension⟩, Factor.base_eq_ok_iff.mpr known, ?_⟩
      have own : MeasureUnit.Has ⟨scale, dimension⟩ scale (Term.lane ⟨scale, dimension, none⟩) :=
        ⟨rfl, fun b => (Int.mul_one _).symm⟩
      exact congrArg Except.ok (own.unique has)
    | @raised _ text scale dimension n known written lower upper notZero =>
      refine ⟨⟨scale, dimension⟩, Factor.base_eq_ok_iff.mpr known, bind_eq_ok_iff.mpr ⟨n, ?_, ?_⟩⟩
      · exact Factor.power_eq_ok_iff.mpr
          ⟨⟨written, lower, upper⟩, notZero, fun operator => positive operator n rfl⟩
      · exact mapError_eq_ok_iff.mpr (MeasureUnit.tryPow_eq_ok_iff.mpr ⟨fits, has⟩)

end Mensura
