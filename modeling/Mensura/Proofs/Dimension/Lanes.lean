import Mensura.Dimension.Lanes
import Mensura.Proofs.Dimension.Fit

namespace Mensura

namespace Word

theorem ofInt?_of_word {e : Int} (word : -2147483648 ≤ e ∧ e ≤ 2147483647) :
    ofInt? e = some (.ofInt e) :=
  if_pos word

theorem ofInt?_of_not_word {e : Int} (outside : ¬ (-2147483648 ≤ e ∧ e ≤ 2147483647)) :
    ofInt? e = none :=
  if_neg outside

/-- A word that stands for a number is a byte just if the number fits one. -/
theorem toByte?_ofInt {e : Int} (word : -2147483648 ≤ e ∧ e ≤ 2147483647) :
    toByte? (.ofInt e) = if Dimension.ExponentFits e then some (.ofInt e) else none := by
  have exact : (Int32.ofInt e).toInt = e := Int32.toInt_ofInt_of_le word.1 (by omega)
  rw [toByte?, exact]
  rfl

end Word

namespace Dimension

variable {d : Dimension} {lanes : Base → Int} {form : Base → Int8 → Option Int32}

theorem toInt_lane (d : Dimension) (base : Base) : (d.lane base).toInt32.toInt = d.exponent base := by
  rw [Int8.toInt_toInt32]
  cases base <;> rfl

/-- One step of the loop. Both range checks together ask whether the exact
exponent fits a signature. -/
theorem storeLane_eq {base : Base} {e : Int} (formed : form base (d.lane base) = Word.ofInt? e)
    (out : Dimension) :
    storeLane form d out base =
      if ExponentFits e then .ok (out.setLane base (.ofInt e)) else .error ⟨base, reported e⟩ := by
  rw [storeLane, formed]
  by_cases word : -2147483648 ≤ e ∧ e ≤ 2147483647
  · have exact : (Int32.ofInt e).toInt = e := Int32.toInt_ofInt_of_le word.1 (by omega)
    rw [Word.ofInt?_of_word word, reported, if_pos word]
    dsimp only [Option.bind_some, Option.getD_some]
    rw [Word.toByte?_ofInt word, exact]
    by_cases fits : ExponentFits e
    · rw [if_pos fits, if_pos fits]
    · rw [if_neg fits, if_neg fits]
  · -- What is no word is no byte either, so the second check is not reached.
    have outside : ¬ ExponentFits e := by
      intro ⟨low, high⟩
      exact word (by omega)
    rw [Word.ofInt?_of_not_word word, if_neg outside, reported, if_neg word]
    rfl

/-- The loop over any of the bases: it ends at the first whose exact exponent
does not fit, and otherwise has stored all of them. -/
theorem foldlM_storeLane (formed : ∀ base, form base (d.lane base) = Word.ofInt? (lanes base))
    (bases : List Base) (out : Dimension) :
    bases.foldlM (storeLane form d) out =
      match bases.find? fun base => ¬ ExponentFits (lanes base) with
      | some base => .error ⟨base, reported (lanes base)⟩
      | none => .ok (bases.foldl (fun out base => out.setLane base (.ofInt (lanes base))) out) := by
  induction bases generalizing out with
  | nil => rfl
  | cons base rest ih =>
    rw [List.foldlM_cons, storeLane_eq (formed base), List.find?_cons]
    by_cases fits : ExponentFits (lanes base)
    · have next := ih (out.setLane base (.ofInt (lanes base)))
      simpa [fits, bind, Except.bind] using next
    · simp [fits, bind, Except.bind]

theorem mapLanes_eq_fit (formed : ∀ base, form base (d.lane base) = Word.ofInt? (lanes base)) :
    d.mapLanes form = fit lanes :=
  foldlM_storeLane formed Base.all dimensionless

/-- Forming the exponents in words one after the other is to form them exactly. -/
theorem wordMul_eq_tryMul (d e : Dimension) : d.wordMul e = d.tryMul e := by
  refine mapLanes_eq_fit fun base => ?_
  rw [Word.add?, toInt_lane, toInt_lane]

theorem wordDiv_eq_tryDiv (d e : Dimension) : d.wordDiv e = d.tryDiv e := by
  refine mapLanes_eq_fit fun base => ?_
  rw [Word.sub?, toInt_lane, toInt_lane]

theorem wordPow_eq_tryPow (d : Dimension) (n : Int32) : d.wordPow n = d.tryPow n.toInt := by
  refine mapLanes_eq_fit fun base => ?_
  rw [Word.mul?, toInt_lane]

end Dimension

end Mensura
