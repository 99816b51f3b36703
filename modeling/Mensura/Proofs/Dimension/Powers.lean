import Mathlib.Tactic.Ring
import Mensura.Proofs.Dimension.Exactness

namespace Mensura

namespace Dimension

variable {d p q r : Dimension} {join : Dimension → Dimension → Except ExponentOverflow Dimension}

/-- A signature joined to the empty one several times, from left to right. One
step that is refused refuses all of it. -/
def repeated (join : Dimension → Dimension → Except ExponentOverflow Dimension) (d : Dimension)
    (count : Nat) : Except ExponentOverflow Dimension :=
  (List.replicate count d).foldlM join dimensionless

theorem repeated_succ (join : Dimension → Dimension → Except ExponentOverflow Dimension)
    (d : Dimension) (count : Nat) :
    repeated join d (count + 1) = (do join (← repeated join d count) d) := by
  rw [repeated, List.replicate_succ', List.foldlM_append]
  simp only [List.foldlM_cons, List.foldlM_nil, bind_pure]
  rfl

/-- Fewer steps in one direction lead less far away from zero, which fits. So
no step before the last leaves the range if the last one does not. -/
theorem ExponentFits.fewer {k n : Nat} {x : Int} (fits : ExponentFits (n * x)) (fewer : k ≤ n) :
    ExponentFits (k * x) := by
  have steps : (k : Int) ≤ n := Int.ofNat_le.mpr fewer
  have start : (0 : Int) ≤ k := Int.natCast_nonneg k
  unfold ExponentFits at fits ⊢
  rcases Int.le_total 0 x with up | down
  · have above : 0 ≤ k * x := Int.mul_nonneg start up
    have below : k * x ≤ n * x := Int.mul_le_mul_of_nonneg_right steps up
    omega
  · have below : k * x ≤ 0 := Int.mul_nonpos_of_nonneg_of_nonpos start down
    have above : n * x ≤ k * x := Int.mul_le_mul_of_nonpos_right steps down
    omega

/-- A way to join signatures that adds the exponents of the second one, or
subtracts them, as `sign` says. -/
def Adds (join : Dimension → Dimension → Except ExponentOverflow Dimension) (sign : Int) : Prop :=
  ∀ a d p, join a d = .ok p ↔
    (∀ base, ExponentFits (a.exponent base + sign * d.exponent base)) ∧
      ∀ base, p.exponent base = a.exponent base + sign * d.exponent base

theorem tryMul_adds : Adds tryMul 1 := by
  intro a d p
  simp only [Int.one_mul]
  exact tryMul_eq_ok_iff

theorem tryDiv_adds : Adds tryDiv (-1) := by
  intro a d p
  simp only [Int.neg_mul, Int.one_mul, ← Int.sub_eq_add_neg]
  exact tryDiv_eq_ok_iff

theorem repeated_eq_ok_iff {sign : Int} (adds : Adds join sign) (count : Nat) :
    repeated join d count = .ok p ↔
      (∀ base, ExponentFits (count * (sign * d.exponent base))) ∧
        ∀ base, p.exponent base = count * (sign * d.exponent base) := by
  induction count generalizing p with
  | zero =>
    have none (base : Base) : ((0 : Nat) : Int) * (sign * d.exponent base) = 0 := Int.zero_mul _
    simp only [none]
    constructor
    · intro made
      cases made
      exact ⟨fun _ => by decide, exponent_dimensionless⟩
    · intro ⟨_, exponents⟩
      refine congrArg _ (ext_exponent fun base => ?_)
      rw [exponents, exponent_dimensionless]
  | succ count ih =>
    have next (base : Base) : ((count + 1 : Nat) : Int) * (sign * d.exponent base) =
        count * (sign * d.exponent base) + sign * d.exponent base := by
      push_cast
      ring
    rw [repeated_succ, bind_eq_ok_iff]
    constructor
    · intro ⟨q, made, joined⟩
      have before := (ih.mp made).2
      have step := (adds q d p).mp joined
      simp only [before, ← next] at step
      exact step
    · intro ⟨fits, exponents⟩
      -- The last step alone is known to fit, the one before it has to be found.
      have fewer (base : Base) : ExponentFits (count * (sign * d.exponent base)) :=
        (fits base).fewer (Nat.le_succ count)
      have before := exponent_ofExponents fewer
      refine ⟨ofExponents _, ih.mpr ⟨fewer, before⟩, (adds _ d p).mpr ?_⟩
      simp only [before, ← next]
      exact ⟨fits, exponents⟩

theorem tryPow_eq_ok_iff_repeated {sign : Int} (adds : Adds join sign) (count : Nat) :
    d.tryPow (sign * count) = .ok p ↔ repeated join d count = .ok p := by
  have lane (base : Base) :
      d.exponent base * (sign * count) = count * (sign * d.exponent base) := by ring
  rw [tryPow_eq_ok_iff, repeated_eq_ok_iff adds]
  simp only [lane]

/-- A power of a signature is what so many steps from the empty one lead to, and
it is there just if none of these steps is refused. -/
structure IsRepeated (join : Dimension → Dimension → Except ExponentOverflow Dimension)
    (d : Dimension) (n : Int) : Prop where
  same : ∀ p, d.tryPow n = .ok p ↔ repeated join d n.natAbs = .ok p
  steps : (∃ p, d.tryPow n = .ok p) ↔ ∀ k ≤ n.natAbs, ∃ p, repeated join d k = .ok p

theorem isRepeated {sign : Int} (adds : Adds join sign) {n : Int} (known : sign * n.natAbs = n)
    (d : Dimension) : IsRepeated join d n := by
  have same (p : Dimension) : d.tryPow n = .ok p ↔ repeated join d n.natAbs = .ok p := by
    have power := tryPow_eq_ok_iff_repeated (d := d) (p := p) adds n.natAbs
    rwa [known] at power
  refine ⟨same, ?_⟩
  constructor
  · intro ⟨p, made⟩ k fewer
    obtain ⟨fits, _⟩ := (repeated_eq_ok_iff adds _).mp ((same p).mp made)
    have fitsK (base : Base) := (fits base).fewer fewer
    exact ⟨ofExponents _, (repeated_eq_ok_iff adds k).mpr ⟨fitsK, exponent_ofExponents fitsK⟩⟩
  · intro all
    obtain ⟨p, made⟩ := all n.natAbs (Nat.le_refl _)
    exact ⟨p, (same p).mpr made⟩

theorem tryPow_tryPow {n k : Int} (inner : d.tryPow n = .ok p) (outer : p.tryPow k = .ok q) :
    d.tryPow (n * k) = .ok q := by
  have exponents := (tryPow_eq_ok_iff.mp inner).2
  have result := tryPow_eq_ok_iff.mp outer
  simp only [exponents, Int.mul_assoc] at result
  exact tryPow_eq_ok_iff.mpr result

theorem tryMul_tryPow {n k : Int} (left : d.tryPow n = .ok p) (right : d.tryPow k = .ok q)
    (product : p.tryMul q = .ok r) : d.tryPow (n + k) = .ok r := by
  have exponentsP := (tryPow_eq_ok_iff.mp left).2
  have exponentsQ := (tryPow_eq_ok_iff.mp right).2
  have result := tryMul_eq_ok_iff.mp product
  simp only [exponentsP, exponentsQ, ← Int.mul_add] at result
  exact tryPow_eq_ok_iff.mpr result

/-- Powers are repeated products, and repeated quotients for negative numbers.
A power of a power and a product of powers are powers where they are there. All
of it holds for words in particular, down to the smallest. -/
theorem powers_are_repeated (d : Dimension) :
    (∀ n : Int32, d.wordPow n = d.tryPow n.toInt) ∧
    (∀ e, d.wordMul e = d.tryMul e ∧ d.wordDiv e = d.tryDiv e) ∧
    (∀ n : Int, 0 ≤ n → IsRepeated tryMul d n) ∧
    (∀ n : Int, n < 0 → IsRepeated tryDiv d n) ∧
    (∀ n k p q, d.tryPow n = .ok p → p.tryPow k = .ok q → d.tryPow (n * k) = .ok q) ∧
    ∀ n k p q r, d.tryPow n = .ok p → d.tryPow k = .ok q → p.tryMul q = .ok r →
      d.tryPow (n + k) = .ok r := by
  refine ⟨wordPow_eq_tryPow d, fun e => ⟨wordMul_eq_tryMul d e, wordDiv_eq_tryDiv d e⟩,
    fun n positive => ?_, fun n negative => ?_,
    fun _ _ _ _ => tryPow_tryPow, fun _ _ _ _ _ => tryMul_tryPow⟩
  · exact isRepeated tryMul_adds (by omega) d
  · exact isRepeated tryDiv_adds (by omega) d

/-- The range of an exponent reaches one step further down than up. -/
example : tryPow { m := -1 } 128 = .ok { m := -128 } ∧
    tryPow { m := -1 } (-128) = .error ⟨.length, 128⟩ := by decide

end Dimension

end Mensura
