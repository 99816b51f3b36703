import Mensura.Proofs.Binary64.Parts
import Mensura.Decimal.Shortest

namespace Mensura

/-- The rational number that a decimal stands for. -/
def Decimal.value (d : Decimal) : ℚ :=
  d.digits * (10 : ℚ) ^ d.exponent

/-- How far a number reaches down, in quarters of its last place. -/
def quartersBelow (mantissa : Nat) (exponent : Int) : Nat :=
  if mantissa = 2 ^ 52 ∧ exponent ≠ -1074 then 1 else 2

/-- The rationals that are rounded to `mantissa * 2 ^ exponent`. A value halfway
between two numbers is rounded to the one with the even mantissa. -/
structure Rounds (mantissa : Nat) (exponent : Int) (v : ℚ) : Prop where
  lower : ((4 * mantissa - quartersBelow mantissa exponent : Nat) : ℚ) * 2 ^ (exponent - 2) ≤ v
  upper : v ≤ ((4 * mantissa + 2 : Nat) : ℚ) * 2 ^ (exponent - 2)
  inside : mantissa % 2 ≠ 0 →
    ((4 * mantissa - quartersBelow mantissa exponent : Nat) : ℚ) * 2 ^ (exponent - 2) < v ∧
      v < ((4 * mantissa + 2 : Nat) : ℚ) * 2 ^ (exponent - 2)

section Grid

variable (quarters point : Nat) (exponent place : Int)

theorem zpow_mul_pow_neg {base : ℚ} (notZero : base ≠ 0) (n : Int) :
    base ^ n * base ^ (-n).toNat = base ^ n.toNat := by
  rw [← zpow_natCast, ← zpow_natCast, ← zpow_add₀ notZero]
  congr 1
  omega

/-- A number of quarters and a point of a grid, both in the unit of the interval. -/
theorem grid_scale :
    (quarters * 2 ^ (exponent - 2) : ℚ) * (2 ^ (2 - exponent).toNat * 10 ^ (-place).toNat) =
        (quarters * (twoPow (exponent - 2).toNat * tenPow (-place).toNat) : Nat) ∧
      (point * 10 ^ place : ℚ) * (2 ^ (2 - exponent).toNat * 10 ^ (-place).toNat) =
        (point * (twoPow (2 - exponent).toNat * tenPow place.toNat) : Nat) := by
  have two : (2 : ℚ) ^ (exponent - 2) * 2 ^ (2 - exponent).toNat = 2 ^ (exponent - 2).toNat := by
    rw [← zpow_mul_pow_neg (by norm_num) (exponent - 2), Int.neg_sub]
  have ten : (10 : ℚ) ^ place * 10 ^ (-place).toNat = 10 ^ place.toNat :=
    zpow_mul_pow_neg (by norm_num) place
  have twoCast (n : Nat) : (twoPow n : ℚ) = 2 ^ n := Nat.cast_pow 2 n
  have tenCast (n : Nat) : (tenPow n : ℚ) = 10 ^ n := Nat.cast_pow 10 n
  constructor
  · rw [Nat.cast_mul, Nat.cast_mul, twoCast, tenCast, ← two]
    ring
  · rw [Nat.cast_mul, Nat.cast_mul, twoCast, tenCast, ← ten]
    ring

theorem grid_pos : (0 : ℚ) < 2 ^ (2 - exponent).toNat * 10 ^ (-place).toNat := by
  positivity

theorem quarters_le_point_iff :
    quarters * (twoPow (exponent - 2).toNat * tenPow (-place).toNat) ≤
        point * (twoPow (2 - exponent).toNat * tenPow place.toNat) ↔
      (quarters * 2 ^ (exponent - 2) : ℚ) ≤ point * 10 ^ place := by
  obtain ⟨left, right⟩ := grid_scale quarters point exponent place
  rw [← mul_le_mul_iff_of_pos_right (grid_pos exponent place), left, right, Nat.cast_le]

theorem point_le_quarters_iff :
    point * (twoPow (2 - exponent).toNat * tenPow place.toNat) ≤
        quarters * (twoPow (exponent - 2).toNat * tenPow (-place).toNat) ↔
      (point * 10 ^ place : ℚ) ≤ quarters * 2 ^ (exponent - 2) := by
  obtain ⟨left, right⟩ := grid_scale quarters point exponent place
  rw [← mul_le_mul_iff_of_pos_right (grid_pos exponent place), left, right, Nat.cast_le]

end Grid

namespace RoundingInterval

variable {mantissa point : Nat} {exponent place : Int} {i : RoundingInterval} {tie : Tie}

/-- A point of a grid lies in the interval of a number just if it is rounded to the
number. -/
theorem holds_iff :
    (of mantissa exponent place).holds point = true ↔
      Rounds mantissa exponent (point * 10 ^ place) := by
  have below : quartersBelow mantissa exponent =
      if mantissa = twoPow 52 ∧ exponent ≠ -1074 then 1 else 2 := rfl
  have lower := quarters_le_point_iff (4 * mantissa - quartersBelow mantissa exponent) point exponent place
  have upper := point_le_quarters_iff (4 * mantissa + 2) point exponent place
  have strictLower := not_congr
    (point_le_quarters_iff (4 * mantissa - quartersBelow mantissa exponent) point exponent place)
  have strictUpper := not_congr (quarters_le_point_iff (4 * mantissa + 2) point exponent place)
  rw [not_le, not_le] at strictLower strictUpper
  rw [below] at lower strictLower
  unfold holds of
  dsimp only
  by_cases even : mantissa % 2 = 0
  · rw [decide_eq_true even, if_pos rfl, decide_eq_true_iff, lower, upper, ← below]
    exact ⟨fun ⟨low, high⟩ => ⟨low, high, fun odd => absurd even odd⟩, fun rounds => ⟨rounds.1, rounds.2⟩⟩
  · rw [decide_eq_false even, if_neg Bool.false_ne_true, decide_eq_true_iff, strictLower, strictUpper,
      ← below]
    exact ⟨fun inside => ⟨inside.1.le, inside.2.le, fun _ => inside⟩, fun rounds => rounds.3 even⟩

theorem holds_of_hit (found : i.hit tie = some point) : i.holds point = true := by
  have nearest : i.nearest tie = i.value / i.unit ∨ i.nearest tie = i.value / i.unit + 1 := by
    unfold RoundingInterval.nearest
    dsimp only
    split
    · exact Or.inl rfl
    · split
      · exact Or.inr rfl
      · cases tie with
        | up => exact Or.inr rfl
        | toEven =>
          dsimp only
          omega
  unfold hit at found
  dsimp only at found
  split at found
  · rename_i first second
    cases found
    rcases nearest with same | same <;> rw [same]
    · exact first
    · exact second
  · rename_i first _
    cases found
    exact first
  · rename_i second
    cases found
    exact second
  · cases found

theorem unit_pos : 0 < (of mantissa exponent place).unit :=
  Nat.mul_pos (Nat.pow_pos (by decide)) (Nat.pow_pos (by decide))

theorem value_inside (positive : 0 < mantissa) :
    (of mantissa exponent place).lower < (of mantissa exponent place).value ∧
      (of mantissa exponent place).value < (of mantissa exponent place).upper := by
  have factor : 0 < twoPow (exponent - 2).toNat * tenPow (-place).toNat :=
    Nat.mul_pos (Nat.pow_pos (by decide)) (Nat.pow_pos (by decide))
  unfold of
  dsimp only
  constructor
  · refine Nat.mul_lt_mul_of_pos_right ?_ factor
    split <;> omega
  · exact Nat.mul_lt_mul_of_pos_right (by omega) factor

/-- On a grid that has the number itself for a point, this is the nearest one. -/
theorem holds_nearest (positive : 0 < mantissa)
    (exact : (of mantissa exponent place).unit ∣ (of mantissa exponent place).value) :
    (of mantissa exponent place).holds ((of mantissa exponent place).nearest tie) = true := by
  obtain ⟨lower, upper⟩ := @value_inside mantissa exponent place positive
  have unit := @unit_pos mantissa exponent place
  generalize of mantissa exponent place = i at exact lower upper unit
  have nearest : i.nearest tie = i.value / i.unit := by
    unfold RoundingInterval.nearest
    rw [Nat.mod_eq_zero_of_dvd exact]
    exact if_pos unit
  have back : i.value / i.unit * i.unit = i.value := Nat.div_mul_cancel exact
  unfold holds
  rw [nearest, back]
  split <;> rw [decide_eq_true_iff]
  · exact ⟨lower.le, upper.le⟩
  · exact ⟨lower, upper⟩

/-- A number is a point of the grid of its own last place, and of the grid of ones
if it is whole. -/
theorem unit_dvd_value :
    (of mantissa exponent (min exponent 0)).unit ∣ (of mantissa exponent (min exponent 0)).value := by
  have place : (min exponent 0).toNat = 0 := by omega
  have finer : (-min exponent 0).toNat = (-exponent).toNat := by omega
  have twos : 2 ^ (2 - exponent).toNat ∣ 4 * 10 ^ (-exponent).toNat := calc
    2 ^ (2 - exponent).toNat ∣ 2 ^ (2 + (-exponent).toNat) := Nat.pow_dvd_pow 2 (by omega)
    _ = 4 * 2 ^ (-exponent).toNat := Nat.pow_add 2 2 _
    _ ∣ 4 * 10 ^ (-exponent).toNat := Nat.mul_dvd_mul_left 4 (pow_dvd_pow_of_dvd (by decide) _)
  unfold of
  dsimp only
  rw [place, finer]
  calc twoPow (2 - exponent).toNat * tenPow 0
    _ = 2 ^ (2 - exponent).toNat := Nat.mul_one _
    _ ∣ 4 * 10 ^ (-exponent).toNat := twos
    _ ∣ 4 * 10 ^ (-exponent).toNat * (mantissa * twoPow (exponent - 2).toNat) := Nat.dvd_mul_right _ _
    _ = 4 * mantissa * (twoPow (exponent - 2).toNat * tenPow (-exponent).toNat) := by
      rw [show tenPow (-exponent).toNat = 10 ^ (-exponent).toNat from rfl]
      ring

end RoundingInterval

section Shortest

variable {tie : Tie} {mantissa : Nat} {exponent : Int}

/-- Wherever the search starts, it ends with a decimal that is rounded to the number. -/
theorem shortestFrom_rounds (positive : 0 < mantissa) {place : Int} {finer : Nat}
    (last : place - finer = min exponent 0) :
    Rounds mantissa exponent (shortestFrom tie mantissa exponent place finer).value := by
  induction finer generalizing place with
  | zero =>
    obtain rfl : place = min exponent 0 := by omega
    exact RoundingInterval.holds_iff.mp
      (RoundingInterval.holds_nearest positive RoundingInterval.unit_dvd_value)
  | succ finer ih =>
    rw [shortestFrom]
    split
    · rename_i point found
      exact RoundingInterval.holds_iff.mp (RoundingInterval.holds_of_hit found)
    · exact ih (by omega)

/-- The shortest decimal of a number is rounded to the number. -/
theorem shortest_rounds (positive : 0 < mantissa) :
    Rounds mantissa exponent (shortest tie mantissa exponent).value := by
  refine shortestFrom_rounds positive ?_
  have above : min exponent 0 ≤ (Nat.log2 mantissa + exponent) * 30103 / 100000 + 2 := by omega
  omega

end Shortest

section Apart

variable {mantissa mantissa' : Nat} {exponent exponent' : Int} {v : ℚ}

/-- Between two numbers there is a border, in quarters of the smaller last place.
They do not share it, since one of two neighbours is odd. -/
theorem quarters_apart {steps : Nat} (canonical : Canonical mantissa exponent)
    (canonical' : Canonical mantissa' (exponent + steps)) (less : 0 < steps ∨ mantissa < mantissa') :
    4 * mantissa + 2 ≤ (4 * mantissa' - quartersBelow mantissa' (exponent + steps)) * 2 ^ steps ∧
      (mantissa % 2 = 0 → mantissa' % 2 = 0 →
        4 * mantissa + 2 < (4 * mantissa' - quartersBelow mantissa' (exponent + steps)) * 2 ^ steps) := by
  obtain ⟨positive, small, low, full⟩ := canonical
  obtain ⟨positive', small', low', full'⟩ := canonical'
  unfold quartersBelow
  cases steps with
  | zero =>
    rw [Nat.pow_zero, Nat.mul_one]
    split <;> omega
  | succ more =>
    have double : (4 * mantissa' - if mantissa' = 2 ^ 52 ∧ exponent + (more + 1 : Nat) ≠ -1074 then 1 else 2) * 2 ≤
        (4 * mantissa' - if mantissa' = 2 ^ 52 ∧ exponent + (more + 1 : Nat) ≠ -1074 then 1 else 2) *
          2 ^ (more + 1) :=
      Nat.mul_le_mul_left _ (Nat.le_self_pow (Nat.succ_ne_zero more) 2)
    have large : 2 ^ 54 - 1 ≤
        4 * mantissa' - if mantissa' = 2 ^ 52 ∧ exponent + (more + 1 : Nat) ≠ -1074 then 1 else 2 := by
      split <;> omega
    omega

theorem Rounds.apart {steps : Nat} (canonical : Canonical mantissa exponent)
    (canonical' : Canonical mantissa' (exponent + steps)) (less : 0 < steps ∨ mantissa < mantissa')
    (rounds : Rounds mantissa exponent v) : ¬ Rounds mantissa' (exponent + steps) v := by
  intro rounds'
  obtain ⟨border, apart⟩ := quarters_apart canonical canonical' less
  have unit : (0 : ℚ) < 2 ^ (exponent - 2) := by positivity
  have scale (quarters : Nat) : (quarters : ℚ) * 2 ^ (exponent + steps - 2) =
      (quarters * 2 ^ steps : Nat) * 2 ^ (exponent - 2) := by
    rw [show exponent + steps - 2 = (steps : Int) + (exponent - 2) by ring, zpow_add₀ (by norm_num),
      zpow_natCast]
    push_cast
    ring
  obtain ⟨_, upper, inside⟩ := rounds
  obtain ⟨lower', _, inside'⟩ := rounds'
  rw [scale] at lower' inside'
  have ordered : ((4 * mantissa + 2 : Nat) : ℚ) * 2 ^ (exponent - 2) ≤
      (((4 * mantissa' - quartersBelow mantissa' (exponent + steps)) * 2 ^ steps : Nat) : ℚ) *
        2 ^ (exponent - 2) :=
    mul_le_mul_of_nonneg_right (Nat.cast_le.mpr border) unit.le
  by_cases even : mantissa % 2 = 0
  · by_cases even' : mantissa' % 2 = 0
    · have strict := mul_lt_mul_of_pos_right (Nat.cast_lt.mpr (apart even even')) unit
      exact absurd (lower'.trans upper) (not_le.mpr strict)
    · exact absurd ((inside' even').1.trans_le upper) (not_lt.mpr ordered)
  · exact absurd (lower'.trans_lt (inside even).2) (not_lt.mpr ordered)

/-- Nothing is rounded to two numbers. -/
theorem Rounds.unique (canonical : Canonical mantissa exponent) (canonical' : Canonical mantissa' exponent')
    (rounds : Rounds mantissa exponent v) (rounds' : Rounds mantissa' exponent' v) :
    mantissa = mantissa' ∧ exponent = exponent' := by
  have ordered {m m' : Nat} {e e' : Int} (first : Canonical m e) (second : Canonical m' e')
      (roundsFirst : Rounds m e v) (roundsSecond : Rounds m' e' v) (order : e ≤ e') :
      e = e' ∧ m' ≤ m := by
    obtain ⟨steps, rfl⟩ := Int.le.dest order
    by_contra different
    exact Rounds.apart first second (by omega) roundsFirst roundsSecond
  rcases Int.le_total exponent exponent' with order | order
  · obtain ⟨rfl, le⟩ := ordered canonical canonical' rounds rounds' order
    exact ⟨Nat.le_antisymm (ordered canonical' canonical rounds' rounds le_rfl).2 le, rfl⟩
  · obtain ⟨rfl, le⟩ := ordered canonical' canonical rounds' rounds order
    exact ⟨Nat.le_antisymm le (ordered canonical canonical' rounds rounds' le_rfl).2, rfl⟩

end Apart

end Mensura
