import Mensura.Proofs.Dimension.Lanes

namespace Mensura

namespace Dimension

variable {a b c d e p q : Dimension}

theorem tryMul_eq_ok_iff : d.tryMul e = .ok p ↔
    (∀ base, ExponentFits (d.exponent base + e.exponent base)) ∧
      ∀ base, p.exponent base = d.exponent base + e.exponent base :=
  fit_eq_ok_iff

theorem tryDiv_eq_ok_iff : d.tryDiv e = .ok p ↔
    (∀ base, ExponentFits (d.exponent base - e.exponent base)) ∧
      ∀ base, p.exponent base = d.exponent base - e.exponent base :=
  fit_eq_ok_iff

theorem tryPow_eq_ok_iff {n : Int} : d.tryPow n = .ok p ↔
    (∀ base, ExponentFits (d.exponent base * n)) ∧
      ∀ base, p.exponent base = d.exponent base * n :=
  fit_eq_ok_iff

theorem mul_eq_ok_iff : d.mul e = .ok p ↔ d.tryMul e = .ok p :=
  mapError_eq_ok_iff

theorem div_eq_ok_iff : d.div e = .ok p ↔ d.tryDiv e = .ok p :=
  mapError_eq_ok_iff

/-- An operation on signatures, in the form that can be refused and in the form
that faults, against the exact exponents of its result. -/
structure ExactOrRefused (lanes : Base → Int) (attempt : Except ExponentOverflow Dimension)
    (operator : Except Fault Dimension) : Prop where
  succeeds : (∃ d, attempt = .ok d) ↔ ∀ base, ExponentFits (lanes base)
  exponents : ∀ d, attempt = .ok d → ∀ base, d.exponent base = lanes base
  refused : ∀ overflow, attempt = .error overflow → overflow.Of lanes
  returns : ∀ d, operator = .ok d ↔ attempt = .ok d
  faults : ∀ fault, operator = .error fault ↔
    ∃ overflow, attempt = .error overflow ∧ .exponent overflow = fault

theorem fit_exactOrRefused (lanes : Base → Int) :
    ExactOrRefused lanes (fit lanes) ((fit lanes).mapError .exponent) where
  succeeds := by
    constructor
    · intro ⟨d, made⟩
      exact (fit_eq_ok_iff.mp made).1
    · intro fits
      exact ⟨ofExponents lanes, fit_eq_ok_iff.mpr ⟨fits, exponent_ofExponents fits⟩⟩
  exponents := fun _ made => (fit_eq_ok_iff.mp made).2
  refused := fun _ failed => fit_eq_error_iff.mp failed
  returns := fun _ => mapError_eq_ok_iff
  faults := fun _ => mapError_eq_error_iff

/-- An exact exponent that is a word is reported as it is. A sum or a difference
of two exponents always is one. -/
theorem fit_overflow_exponent {lanes : Base → Int} {overflow : ExponentOverflow}
    (failed : fit lanes = .error overflow) (near : ∀ base, -256 ≤ lanes base ∧ lanes base ≤ 256) :
    overflow.exponent = lanes overflow.base := by
  have found := fit_eq_error_iff.mp failed
  have bounds := near overflow.base
  have word : -2147483648 ≤ lanes overflow.base ∧ lanes overflow.base ≤ 2147483647 := by omega
  rw [found.exponent_eq, reported, if_pos word]

theorem tryMul_overflow_exponent {overflow : ExponentOverflow}
    (failed : d.tryMul e = .error overflow) :
    overflow.exponent = d.exponent overflow.base + e.exponent overflow.base := by
  refine fit_overflow_exponent failed fun base => ?_
  have ⟨_, _⟩ := d.exponent_fits base
  have ⟨_, _⟩ := e.exponent_fits base
  omega

theorem tryDiv_overflow_exponent {overflow : ExponentOverflow}
    (failed : d.tryDiv e = .error overflow) :
    overflow.exponent = d.exponent overflow.base - e.exponent overflow.base := by
  refine fit_overflow_exponent failed fun base => ?_
  have ⟨_, _⟩ := d.exponent_fits base
  have ⟨_, _⟩ := e.exponent_fits base
  omega

theorem tryMul_comm (a b : Dimension) : a.tryMul b = b.tryMul a := by
  have same : (fun base => a.exponent base + b.exponent base) =
      fun base => b.exponent base + a.exponent base :=
    funext fun _ => Int.add_comm _ _
  rw [tryMul, tryMul, same]

/-- What was multiplied can be divided out again. -/
theorem tryDiv_of_tryMul (made : a.tryMul b = .ok p) : p.tryDiv b = .ok a := by
  obtain ⟨_, exact⟩ := tryMul_eq_ok_iff.mp made
  have back (base : Base) : p.exponent base - b.exponent base = a.exponent base := by
    have sum := exact base
    omega
  refine tryDiv_eq_ok_iff.mpr ⟨fun base => ?_, fun base => (back base).symm⟩
  rw [back]
  exact a.exponent_fits base

theorem tryMul_assoc (left : a.tryMul b = .ok d) (first : d.tryMul c = .ok p)
    (right : b.tryMul c = .ok e) (second : a.tryMul e = .ok q) : p = q := by
  have sumD := (tryMul_eq_ok_iff.mp left).2
  have sumP := (tryMul_eq_ok_iff.mp first).2
  have sumE := (tryMul_eq_ok_iff.mp right).2
  have sumQ := (tryMul_eq_ok_iff.mp second).2
  refine ext_exponent fun base => ?_
  rw [sumP, sumD, sumQ, sumE, Int.add_assoc]

/-- The arithmetic of signatures is that of their exact exponents as far as
these fit, and refuses the first base in the order of the bases where it is not.
It is the same when each exponent is formed as a word of its own. -/
theorem arithmetic_exact_or_refused :
    (∀ d e : Dimension, d.wordMul e = d.tryMul e ∧
      ExactOrRefused (fun base => d.exponent base + e.exponent base) (d.tryMul e) (d.mul e) ∧
      ∀ overflow, d.tryMul e = .error overflow →
        overflow.exponent = d.exponent overflow.base + e.exponent overflow.base) ∧
    (∀ d e : Dimension, d.wordDiv e = d.tryDiv e ∧
      ExactOrRefused (fun base => d.exponent base - e.exponent base) (d.tryDiv e) (d.div e) ∧
      ∀ overflow, d.tryDiv e = .error overflow →
        overflow.exponent = d.exponent overflow.base - e.exponent overflow.base) ∧
    (∀ (d : Dimension) (n : Int32), d.wordPow n = d.tryPow n.toInt ∧
      ExactOrRefused (fun base => d.exponent base * n.toInt) (d.tryPow n.toInt) (d.pow n.toInt)) ∧
    (∀ a b p : Dimension, a.mul b = .ok p → p.div b = .ok a) ∧
    (∀ a b : Dimension, a.mul b = b.mul a) ∧
    ∀ a b c p q : Dimension, (do (← a.mul b).mul c) = .ok p → (do a.mul (← b.mul c)) = .ok q →
      p = q := by
  refine ⟨fun d e => ⟨wordMul_eq_tryMul d e, fit_exactOrRefused _, fun _ => tryMul_overflow_exponent⟩,
    fun d e => ⟨wordDiv_eq_tryDiv d e, fit_exactOrRefused _, fun _ => tryDiv_overflow_exponent⟩,
    fun d n => ⟨wordPow_eq_tryPow d n, fit_exactOrRefused _⟩, ?_, ?_, ?_⟩
  · intro a b p made
    exact div_eq_ok_iff.mpr (tryDiv_of_tryMul (mul_eq_ok_iff.mp made))
  · intro a b
    rw [mul, mul, tryMul_comm]
  · intro a b c p q first second
    obtain ⟨d, left, first⟩ := bind_eq_ok_iff.mp first
    obtain ⟨e, right, second⟩ := bind_eq_ok_iff.mp second
    exact tryMul_assoc (mul_eq_ok_iff.mp left) (mul_eq_ok_iff.mp first) (mul_eq_ok_iff.mp right)
      (mul_eq_ok_iff.mp second)

/-- For a product that is no word the largest word is reported. -/
example : wordPow { m := -128 } Int32.minValue = .error ⟨.length, 2147483647⟩ := by decide

end Dimension

end Mensura
