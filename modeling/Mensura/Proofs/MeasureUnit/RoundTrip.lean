import Mensura.Dimension.Text
import Mensura.Proofs.MeasureUnit.Acceptance

namespace Mensura

section Numerals

theorem digits_decimalDigits (n : Nat) : Digits (decimalDigits n) :=
  ⟨Nat.toDigits_ne_nil, fun _ member => Nat.isDigit_of_mem_toDigits (by decide) (by decide) member⟩

theorem digitsValue_decimalDigits (n : Nat) : digitsValue (decimalDigits n) = n :=
  Nat.ofDigitChars_toDigits (by decide) (by decide)

/-- A whole number is spelled by its decimal text. -/
theorem signedText_decimalInt (n : Int) : SignedText (decimalInt n) n := by
  have value := digitsValue_decimalDigits n.natAbs
  unfold decimalInt
  split
  · have written := SignedText.minus (digits_decimalDigits n.natAbs)
    rwa [value, show -((n.natAbs : Nat) : Int) = n by omega] at written
  · have written := SignedText.unsigned (digits_decimalDigits n.natAbs)
    rwa [value, show ((n.natAbs : Nat) : Int) = n by omega] at written

theorem decimalInt_injective : Function.Injective decimalInt := by
  intro n m same
  have written := signedText_decimalInt n
  rw [same] at written
  exact written.unique (signedText_decimalInt m)

theorem isExponentChar_of_mem_decimalInt {n : Int} {c : Char} (member : c ∈ decimalInt n) :
    isExponentChar c = true := by
  have digit {d : Char} (inside : d ∈ decimalDigits n.natAbs) : isExponentChar d = true := by
    simp [isExponentChar, (digits_decimalDigits n.natAbs).2 d inside]
  unfold decimalInt at member
  split at member
  · rcases List.mem_cons.mp member with rfl | inside
    · decide
    · exact digit inside
  · exact digit member

end Numerals

theorem powerLoop_idempotent {x : Float} (squared : x * x = x) (b : Nat) : powerLoop x x b = x := by
  induction b using Nat.strongRecOn with
  | ind b ih =>
    rw [powerLoop, squared]
    simp only [ite_self]
    split
    · rfl
    · exact ih (b / 2) (by omega)

theorem integerPower_one (n : Int) : integerPower 1.0 n = 1.0 := by
  have squared : (1.0 * 1.0 : Float) = 1.0 := by decide +kernel
  have reciprocal : (1.0 / 1.0 : Float) = 1.0 := by decide +kernel
  unfold integerPower
  rw [powerLoop_idempotent squared]
  dsimp only
  rw [reciprocal]
  exact ite_self _

namespace Base

/-- The signature of a coherent base unit. -/
def dimension (base : Base) : Dimension :=
  .ofExponents fun other => if other = base then 1 else 0

theorem exponent_dimension (base other : Base) :
    base.dimension.exponent other = if other = base then 1 else 0 := by
  refine Dimension.exponent_ofExponents (fun other => ?_) other
  split <;> decide

/-- The tables know every base unit by its symbol. -/
theorem symbolMeaning?_symbol (base : Base) :
    symbolMeaning? base.symbol.toList = some (1.0, base.dimension) := by
  cases base <;> rfl

theorem isSymbolChar_of_mem_symbol (base : Base) :
    ∀ c ∈ base.symbol.toList, isSymbolChar c = true := by
  rw [← List.all_eq_true]
  cases base <;> decide

theorem symbol_ne_nil (base : Base) : base.symbol.toList ≠ [] := by
  cases base <;> decide

/-- The factor that a power of a base unit is written as. -/
def factor (base : Base) (e : Int) : Factor :=
  ⟨base.symbol.toList, if e = 1 then none else some (decimalInt e)⟩

/-- What that factor stands for. -/
def term (base : Base) (e : Int) : Term :=
  ⟨1.0, base.dimension, if e = 1 then none else some e⟩

theorem power_written (base : Base) (e : Int) : (base.factor e).Written (base.power e) := by
  unfold factor power
  split
  · exact .plain base.symbol_ne_nil base.isSymbolChar_of_mem_symbol
  · exact .raised base.symbol_ne_nil base.isSymbolChar_of_mem_symbol
      fun _ member => isExponentChar_of_mem_decimalInt member

theorem factor_means (base : Base) {e : Int} (fits : Dimension.ExponentFits e) (notZero : e ≠ 0) :
    (base.factor e).Means (base.term e) := by
  obtain ⟨lower, upper⟩ := fits
  unfold factor term
  split
  · exact .plain base.symbolMeaning?_symbol
  · exact .raised base.symbolMeaning?_symbol (signedText_decimalInt e) (by omega) (by omega) notZero

theorem term_lane (base : Base) (e : Int) (other : Base) :
    (base.term e).lane other = if other = base then e else 0 := by
  have exponent : (base.term e).exponent.getD 1 = e := by
    unfold term
    split
    · rename_i one
      exact one.symm
    · rfl
  rw [Term.lane, exponent, show (base.term e).dimension = base.dimension from rfl, exponent_dimension]
  split
  · exact Int.one_mul e
  · exact Int.zero_mul e

theorem term_magnitude (base : Base) (e : Int) : (base.term e).magnitude = 1.0 := by
  unfold term Term.magnitude
  split
  · rfl
  · exact integerPower_one _

theorem power_no_operator (base : Base) (e : Int) {c : Char} (member : c ∈ base.power e) :
    c ≠ '*' ∧ c ≠ '/' := by
  have inside {d : Char} (symbol : isSymbolChar d = true) : d ≠ '*' ∧ d ≠ '/' := by
    constructor <;>
    · rintro rfl
      exact absurd symbol (by decide)
  unfold power at member
  split at member
  · exact inside (base.isSymbolChar_of_mem_symbol c member)
  rcases List.mem_append.mp member with member | member
  · exact inside (base.isSymbolChar_of_mem_symbol c member)
  rcases List.mem_cons.mp member with rfl | member
  · decide
  · exact inside (isSymbolChar_of_isExponentChar (isExponentChar_of_mem_decimalInt member))

end Base

/-- The text of several powers of base units, with single spaces between them. -/
def powersText (exponents : Base → Int) (bases : List Base) : List Char :=
  [' '].intercalate (bases.map fun base => base.power (exponents base))

section Powers

variable {exponents : Base → Int} {bases : List Base}

/-- Such a text spells the factors of the powers. -/
theorem powersText_spells (nonempty : bases ≠ []) :
    ProductText (powersText exponents bases) (bases.map fun base => base.factor (exponents base)) := by
  induction bases with
  | nil => exact absurd rfl nonempty
  | cons base rest ih =>
    cases rest with
    | nil =>
      rw [powersText, List.map_singleton, List.intercalate_singleton]
      exact .single (base.power_written _)
    | cons next later =>
      rw [powersText, List.map_cons, List.map_cons, List.intercalate_cons_cons]
      refine .next (base.power_written _) (.blank (List.cons_ne_nil _ _) ?_) (ih (List.cons_ne_nil _ _))
      intro c member
      cases List.mem_singleton.mp member
      decide

theorem powersText_no_operator {c : Char} (member : c ∈ powersText exponents bases) :
    c ≠ '*' ∧ c ≠ '/' := by
  induction bases with
  | nil => cases member
  | cons base rest ih =>
    cases rest with
    | nil =>
      rw [powersText, List.map_singleton, List.intercalate_singleton] at member
      exact base.power_no_operator _ member
    | cons next later =>
      rw [powersText, List.map_cons, List.map_cons, List.intercalate_cons_cons] at member
      rcases List.mem_append.mp member with member | member
      · rcases List.mem_append.mp member with member | member
        · exact base.power_no_operator _ member
        · cases List.mem_singleton.mp member
          decide
      · exact ih member

/-- The terms of the powers of some base units. -/
def powerTerms (exponents : Base → Int) (bases : List Base) : List Term :=
  bases.map fun base => base.term (exponents base)

theorem powerTerms_lane (distinct : bases.Nodup) (other : Base) :
    productLane (powerTerms exponents bases) other = if other ∈ bases then exponents other else 0 := by
  induction bases with
  | nil => rfl
  | cons base rest ih =>
    obtain ⟨fresh, distinct⟩ := List.nodup_cons.mp distinct
    rw [powerTerms, List.map_cons, productLane_cons, Base.term_lane]
    have tail := ih distinct
    rw [powerTerms] at tail
    rw [tail]
    by_cases same : other = base
    · subst same
      simp [fresh]
    · simp [same]

theorem powerTerms_scale : productScale (powerTerms exponents bases) = 1.0 := by
  have squared : (1.0 * 1.0 : Float) = 1.0 := by decide +kernel
  have onto (rest : List Base) : scaleOnto 1.0 (powerTerms exponents rest) = 1.0 := by
    induction rest with
    | nil => rfl
    | cons base rest ih =>
      rw [powerTerms, List.map_cons, scaleOnto, List.foldl_cons, Base.term_magnitude, squared]
      exact ih
  cases bases with
  | nil => rfl
  | cons base rest =>
    rw [powerTerms, List.map_cons, productScale, Base.term_magnitude]
    exact onto rest

/-- No running product of distinct powers leaves the range that the powers stay in. -/
theorem powerTerms_formable {operatorForm : Prop} (noOperator : ¬ operatorForm) (distinct : bases.Nodup)
    (fits : ∀ base, Dimension.ExponentFits (exponents base)) :
    Formable operatorForm (fun _ => 0) (powerTerms exponents bases) := by
  have zero : Dimension.ExponentFits 0 := by decide
  refine ⟨fun operator => absurd operator noOperator, ?_, ?_⟩
  · intro term member other
    obtain ⟨base, _, rfl⟩ := List.mem_map.mp member
    rw [Base.term_lane]
    split
    · exact fits base
    · exact zero
  · intro part front other
    obtain ⟨taken, inFront, rfl⟩ := List.prefix_map_iff.mp front
    have lane : productLane (powerTerms exponents taken) other =
        if other ∈ taken then exponents other else 0 :=
      powerTerms_lane (inFront.sublist.nodup distinct) other
    rw [powerTerms] at lane
    rw [Int.zero_add, lane]
    split
    · exact fits other
    · exact zero

end Powers

namespace Dimension

variable (d : Dimension)

/-- The base units that occur in a signature. -/
def bases : List Base :=
  Base.all.filter fun base => d.exponent base ≠ 0

theorem mem_bases {base : Base} : base ∈ d.bases ↔ d.exponent base ≠ 0 := by
  simp [bases, base.mem_all]

theorem bases_nodup : d.bases.Nodup :=
  List.filter_sublist.nodup (by decide)

theorem isDimensionless_iff : d.isDimensionless = true ↔ ∀ base, d.exponent base = 0 := by
  simp [isDimensionless, Base.mem_all]

theorem eq_dimensionless (plain : d.isDimensionless = true) : d = dimensionless := by
  refine ext_exponent fun base => ?_
  rw [d.isDimensionless_iff.mp plain base]
  cases base <;> rfl

theorem bases_ne_nil (composed : d.isDimensionless = false) : d.bases ≠ [] := by
  intro none
  refine absurd (d.isDimensionless_iff.mpr fun base => ?_) (Bool.eq_false_iff.mp composed)
  have absent : base ∉ d.bases := by
    rw [none]
    exact List.not_mem_nil
  rw [mem_bases] at absent
  exact not_not.mp absent

theorem chars_eq (composed : d.isDimensionless = false) :
    d.chars = powersText d.exponent d.bases := by
  rw [chars, composed]
  rfl

/-- The text of a signature that is not empty spells the powers of its base units. -/
theorem chars_spells (composed : d.isDimensionless = false) :
    ProductText d.chars (d.bases.map fun base => base.factor (d.exponent base)) := by
  rw [d.chars_eq composed]
  exact powersText_spells (d.bases_ne_nil composed)

theorem factors_mean : List.Forall₂ Factor.Means
    (d.bases.map fun base => base.factor (d.exponent base)) (powerTerms d.exponent d.bases) := by
  rw [powerTerms, List.forall₂_map_left_iff, List.forall₂_map_right_iff, List.forall₂_same]
  intro base member
  exact base.factor_means (d.exponent_fits base) (d.mem_bases.mp member)

theorem powerTerms_exponent (base : Base) :
    productLane (powerTerms d.exponent d.bases) base = d.exponent base := by
  rw [powerTerms_lane d.bases_nodup]
  split
  · rfl
  · rename_i absent
    rw [mem_bases] at absent
    exact (not_not.mp absent).symm

end Dimension

/-- The text of a signature is read as its coherent unit. -/
theorem parseUnit_dimension_text (d : Dimension) : parseUnit d.text = .ok (.canonical d) := by
  cases plain : d.isDimensionless with
  | true =>
    rw [d.eq_dimensionless plain]
    decide +kernel
  | false =>
    have spelled := d.chars_spells plain
    obtain ⟨c, tail, split, symbol⟩ := spelled.head
    have first : ∀ c ∈ d.chars.head?, isBlank c = false := by
      rw [split]
      exact outside_head (isBlank_eq_false_of_isSymbolChar symbol) tail
    have trimmed : trimBlanks d.text.toList = d.chars := by
      rw [Dimension.text, String.toList_ofList]
      exact trimBlanks_eq_self first spelled.last
    have noOperator : ¬ ('*' ∈ d.chars ∨ '/' ∈ d.chars) := by
      rw [d.chars_eq plain]
      rintro (member | member)
      · exact (powersText_no_operator member).1 rfl
      · exact (powersText_no_operator member).2 rfl
    have lanes : Fraction.lane ⟨powerTerms d.exponent d.bases, none⟩ = d.exponent :=
      funext d.powerTerms_exponent
    have scale : Fraction.scale ⟨powerTerms d.exponent d.bases, none⟩ = 1.0 := powerTerms_scale
    rw [parseUnit_eq_ok_iff, trimmed]
    refine ⟨by rw [split]; exact List.cons_ne_nil c tail, _, ⟨powerTerms d.exponent d.bases, none⟩,
      .product spelled, .product d.factors_mean, ⟨?_, nofun, ?_⟩, ?_, ?_⟩
    · exact powerTerms_formable noOperator d.bases_nodup d.exponent_fits
    · rw [lanes]
      exact d.exponent_fits
    · rw [scale]
      decide
    · rw [scale, lanes]
      exact ⟨rfl, fun _ => rfl⟩

/-- Reading undoes writing. Every signature is read back as its coherent unit, so
two signatures have two texts, and a unit of scale one that was read from any text
is read back from its own. -/
theorem parseUnit_undoes_text :
    (∀ d : Dimension, parseUnit d.text = .ok (.canonical d)) ∧ Function.Injective Dimension.text ∧
      ∀ text u, parseUnit text = .ok u → u.scale = 1.0 → parseUnit u.text = .ok u := by
  refine ⟨parseUnit_dimension_text, ?_, ?_⟩
  · intro d e same
    have read := parseUnit_dimension_text d
    rw [same, parseUnit_dimension_text e] at read
    cases read
    rfl
  · rintro _ ⟨scale, dimension⟩ _ rfl
    have one : ((1.0 : Float) == 1.0) = true := by decide
    rw [MeasureUnit.text, if_pos one]
    exact parseUnit_dimension_text dimension

end Mensura
