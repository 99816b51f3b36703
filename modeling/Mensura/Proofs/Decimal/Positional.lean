import Mensura.Decimal.Style
import Mensura.Proofs.Decimal.Rounding
import Mensura.Proofs.MeasureUnit.RoundTrip

namespace Mensura

section Digits

theorem digitsValue_append (digits more : List Char) :
    digitsValue (digits ++ more) = digitsValue digits * 10 ^ more.length + digitsValue more := by
  have onto (start : Nat) : more.foldl (fun value c => 10 * value + (c.toNat - '0'.toNat)) start =
      start * 10 ^ more.length + digitsValue more := by
    unfold digitsValue
    induction more generalizing start with
    | nil => simp
    | cons c more ih =>
      rw [List.foldl_cons, List.foldl_cons, ih, ih (10 * 0 + _), List.length_cons, Nat.pow_succ]
      ring
  rw [digitsValue, List.foldl_append]
  exact onto _

theorem digitsValue_zeros (n : Nat) : digitsValue (List.replicate n '0') = 0 := by
  induction n with
  | zero => rfl
  | succ n ih =>
    rw [List.replicate_succ', digitsValue_append, ih]
    rfl

end Digits

/-- The characters of a number that is written without an exponent. -/
def isNumberChar (c : Char) : Bool :=
  c.isDigit || c == '.'

/-- The rational number that digits with at most one point among them stand for. -/
def positionalValue (text : List Char) : ℚ :=
  let whole := text.takeWhile (· != '.')
  let behind := (text.dropWhile (· != '.')).drop 1
  digitsValue (whole ++ behind) / 10 ^ behind.length

section Positional

variable {digits whole behind : List Char}

theorem ne_point_of_digits (all : ∀ c ∈ digits, c.isDigit = true) : ∀ c ∈ digits, (c != '.') = true := by
  intro c member
  rw [bne_iff_ne]
  rintro rfl
  exact absurd (all '.' member) (by decide)

theorem positionalValue_whole (all : ∀ c ∈ whole, c.isDigit = true) :
    positionalValue whole = digitsValue whole := by
  have noPoint := ne_point_of_digits all
  have take := @takeWhile_run _ whole [] noPoint nofun
  have drop := @dropWhile_run _ whole [] noPoint nofun
  rw [List.append_nil] at take drop
  rw [positionalValue, take, drop]
  simp

theorem positionalValue_point (all : ∀ c ∈ whole, c.isDigit = true) :
    positionalValue (whole ++ '.' :: behind) = digitsValue (whole ++ behind) / 10 ^ behind.length := by
  have noPoint := ne_point_of_digits all
  have stop : ∀ c ∈ ('.' :: behind).head?, (c != '.') = false := outside_head (by decide) behind
  rw [positionalValue, takeWhile_run noPoint stop, dropWhile_run noPoint stop]
  rfl

theorem isDigit_of_mem_zeros {count : Nat} : ∀ c ∈ List.replicate count '0', c.isDigit = true := by
  intro c member
  rw [List.eq_of_mem_replicate member]
  decide

/-- The point moves the digits, and the zeros that are filled in have no value. -/
theorem positionalValue_pointed (all : ∀ c ∈ digits, c.isDigit = true) {places : Nat} (some : places ≠ 0) :
    positionalValue (pointed places digits) = digitsValue digits / 10 ^ places := by
  have padded := List.forall_mem_append.mpr ⟨@isDigit_of_mem_zeros (places + 1 - digits.length), all⟩
  have long : places ≤ (List.replicate (places + 1 - digits.length) '0' ++ digits).length := by
    rw [List.length_append, List.length_replicate]
    omega
  have value : digitsValue (List.replicate (places + 1 - digits.length) '0' ++ digits) = digitsValue digits := by
    rw [digitsValue_append, digitsValue_zeros]
    omega
  unfold pointed
  generalize List.replicate (places + 1 - digits.length) '0' ++ digits = text at padded long value
  dsimp only
  rw [if_neg some, positionalValue_point fun c member => padded c (List.mem_of_mem_take member),
    List.take_append_drop, value, List.length_drop, Nat.sub_sub_self long]

/-- Digits written with a decimal exponent stand for what they mean. -/
theorem positionalValue_positionalChars (all : ∀ c ∈ digits, c.isDigit = true) (exponent : Int) :
    positionalValue (NumberStyle.plain.positionalChars digits exponent) =
      digitsValue digits * (10 : ℚ) ^ exponent := by
  unfold NumberStyle.positionalChars
  split
  · rename_i whole
    have zeros := List.forall_mem_append.mpr ⟨all, @isDigit_of_mem_zeros exponent.toNat⟩
    change positionalValue (digits ++ List.replicate exponent.toNat '0' ++ []) = _
    rw [List.append_nil, positionalValue_whole zeros, digitsValue_append, digitsValue_zeros,
      List.length_replicate, Nat.add_zero, Nat.cast_mul, Nat.cast_pow, ← zpow_natCast,
      Int.toNat_of_nonneg whole]
    rfl
  · rename_i fraction
    have places : ((-exponent).toNat : Int) = -exponent := Int.toNat_of_nonneg (by omega)
    rw [positionalValue_pointed all (by omega), ← zpow_natCast, places, zpow_neg, div_inv_eq_mul]

theorem isNumberChar_of_mem_positionalChars (all : ∀ c ∈ digits, c.isDigit = true) {exponent : Int} :
    ∀ c ∈ NumberStyle.plain.positionalChars digits exponent, isNumberChar c = true := by
  have number {text : List Char} (inside : ∀ c ∈ text, c.isDigit = true) :
      ∀ c ∈ text, isNumberChar c = true := by
    intro c member
    rw [isNumberChar, inside c member, Bool.true_or]
  unfold NumberStyle.positionalChars
  split
  · change ∀ c ∈ digits ++ List.replicate exponent.toNat '0' ++ [], isNumberChar c = true
    rw [List.append_nil]
    exact number (List.forall_mem_append.mpr ⟨all, isDigit_of_mem_zeros⟩)
  · have padded := List.forall_mem_append.mpr
      ⟨@isDigit_of_mem_zeros ((-exponent).toNat + 1 - digits.length), all⟩
    unfold pointed
    dsimp only
    split
    · exact number fun c member => padded c (List.mem_of_mem_take member)
    · refine List.forall_mem_append.mpr ⟨number fun c member => padded c (List.mem_of_mem_take member),
        List.forall_mem_cons.mpr ⟨by decide, number fun c member => padded c (List.mem_of_mem_drop member)⟩⟩

end Positional

section Plain

variable {x y : Float}

/-- A positive finite number is written as the digits of its shortest decimal, and
never with an exponent. -/
theorem plain_write {mantissa : Nat} {exponent : Int} (split : Binary64.ofFloat x = .finite false mantissa exponent)
    (positive : 0 < mantissa) :
    (NumberStyle.plain.write x).toList =
      NumberStyle.plain.positionalChars (decimalDigits (shortest .up mantissa exponent).digits)
        (shortest .up mantissa exponent).exponent := by
  rw [NumberStyle.write, split]
  dsimp only
  rw [String.toList_ofList, NumberStyle.magnitude, if_neg positive.ne']
  rfl

/-- The text of a number is a number that is rounded to it. -/
theorem plain_write_rounds {mantissa : Nat} {exponent : Int}
    (split : Binary64.ofFloat x = .finite false mantissa exponent) (positive : 0 < mantissa) :
    Rounds mantissa exponent (positionalValue (NumberStyle.plain.write x).toList) := by
  rw [plain_write split positive,
    positionalValue_positionalChars (digits_decimalDigits _).2, digitsValue_decimalDigits]
  exact shortest_rounds positive

theorem plain_write_injective (validX : PositiveFinite x) (validY : PositiveFinite y)
    (same : NumberStyle.plain.write x = NumberStyle.plain.write y) : x = y := by
  obtain ⟨mantissa, exponent, splitX, canonicalX⟩ := validX.split
  obtain ⟨mantissa', exponent', splitY, canonicalY⟩ := validY.split
  have roundsX := plain_write_rounds splitX canonicalX.positive
  have roundsY := plain_write_rounds splitY canonicalY.positive
  rw [same] at roundsX
  obtain ⟨rfl, rfl⟩ := roundsX.unique canonicalX canonicalY roundsY
  exact validX.eq_of_ofFloat validY (splitX.trans splitY.symm)

theorem isNumberChar_of_mem_plain_write (valid : PositiveFinite x) :
    ∀ c ∈ (NumberStyle.plain.write x).toList, isNumberChar c = true := by
  obtain ⟨mantissa, exponent, split, canonical⟩ := valid.split
  rw [plain_write split canonical.positive]
  exact isNumberChar_of_mem_positionalChars (digits_decimalDigits _).2

end Plain

end Mensura
