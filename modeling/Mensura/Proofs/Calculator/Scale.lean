import Mensura.Calculator.Unit
import Mensura.Proofs.MeasureUnit.Scale

namespace Mensura

/-- The stack behind an answer. -/
def UnitAnswer.onto (stack : List MeasureUnit) : UnitAnswer → List MeasureUnit
  | .pushed u => u :: stack
  | _ => stack

theorem UnitAnswer.made_eq_pushed_iff {ε : Type} {refusal : ε → Refusal}
    {outcome : Except ε MeasureUnit} {u : MeasureUnit} :
    UnitAnswer.made refusal outcome = .pushed u ↔ outcome = .ok u := by
  cases outcome with
  | ok v => exact ⟨congrArg _ ∘ UnitAnswer.pushed.inj, congrArg _ ∘ Except.ok.inj⟩
  | error _ => exact ⟨nofun, nofun⟩

namespace UnitStep

/-- The stack behind a list of steps. -/
def stackAfter (stack : List MeasureUnit) : List UnitStep → List MeasureUnit
  | [] => stack
  | step :: rest => stackAfter ((step.answer stack).onto stack) rest

theorem run_cons (stack : List MeasureUnit) (step : UnitStep) (rest : List UnitStep) :
    run stack (step :: rest) = step.answer stack :: run ((step.answer stack).onto stack) rest := by
  rw [run]
  cases step.answer stack <;> rfl

theorem run_append (stack : List MeasureUnit) (before after : List UnitStep) :
    run stack (before ++ after) = run stack before ++ run (stackAfter stack before) after := by
  induction before generalizing stack with
  | nil => rfl
  | cons step rest ih => rw [List.cons_append, run_cons, run_cons, ih, stackAfter, List.cons_append]

/-- The units that a step can push. -/
inductive Pushes : List MeasureUnit → UnitStep → MeasureUnit → Prop
  | parse {stack : List MeasureUnit} {text : String} {u : MeasureUnit} :
      parseUnit text = .ok u → Pushes stack (.parse text) u
  | new {stack : List MeasureUnit} {scale : Float} {dimension : Dimension} {u : MeasureUnit} :
      MeasureUnit.new scale dimension = .ok u → Pushes stack (.new scale dimension) u
  | tryNew {stack : List MeasureUnit} {scale : Float} {dimension : Dimension} {u : MeasureUnit} :
      MeasureUnit.checked scale dimension = .ok u → Pushes stack (.tryNew scale dimension) u
  | canonical {stack : List MeasureUnit} {dimension : Dimension} :
      Pushes stack (.canonical dimension) (.canonical dimension)
  | pick {stack : List MeasureUnit} {depth : Nat} {u : MeasureUnit} :
      stack[depth]? = some u → Pushes stack (.pick (depth + 1)) u
  | mul {left right u : MeasureUnit} {rest : List MeasureUnit} :
      left.mul right = .ok u → Pushes (right :: left :: rest) .mul u
  | div {left right u : MeasureUnit} {rest : List MeasureUnit} :
      left.div right = .ok u → Pushes (right :: left :: rest) .div u
  | pow {top u : MeasureUnit} {rest : List MeasureUnit} {n : Int} :
      top.pow n = .ok u → Pushes (top :: rest) (.pow n) u
  | tryMul {left right u : MeasureUnit} {rest : List MeasureUnit} :
      left.tryMul right = .ok u → Pushes (right :: left :: rest) .tryMul u
  | tryDiv {left right u : MeasureUnit} {rest : List MeasureUnit} :
      left.tryDiv right = .ok u → Pushes (right :: left :: rest) .tryDiv u
  | tryPow {top u : MeasureUnit} {rest : List MeasureUnit} {n : Int} :
      top.tryPow n = .ok u → Pushes (top :: rest) (.tryPow n) u

theorem Pushes.answer {stack : List MeasureUnit} {step : UnitStep} {u : MeasureUnit}
    (pushes : step.Pushes stack u) : step.answer stack = .pushed u := by
  cases pushes with
  | pick held =>
    rw [UnitStep.answer, if_neg (Nat.succ_ne_zero _), Nat.add_sub_cancel, held]
  | canonical => rw [UnitStep.answer]
  | parse made | new made | tryNew made | mul made | div made | pow made | tryMul made
  | tryDiv made | tryPow made =>
    exact UnitAnswer.made_eq_pushed_iff.mpr made

theorem pushes_of_answer {stack : List MeasureUnit} {step : UnitStep} {u : MeasureUnit}
    (answered : step.answer stack = .pushed u) : step.Pushes stack u := by
  cases step with
  | parse text => exact .parse (UnitAnswer.made_eq_pushed_iff.mp answered)
  | new scale dimension => exact .new (UnitAnswer.made_eq_pushed_iff.mp answered)
  | tryNew scale dimension => exact .tryNew (UnitAnswer.made_eq_pushed_iff.mp answered)
  | canonical dimension =>
    rw [UnitStep.answer] at answered
    cases answered
    exact .canonical
  | pick depth =>
    rw [UnitStep.answer] at answered
    split at answered
    · rename_i held
      cases answered
      cases depth with
      | zero => cases held
      | succ depth => exact .pick held
    · cases answered
  | mul =>
    match stack, answered with
    | _ :: _ :: _, answered => exact .mul (UnitAnswer.made_eq_pushed_iff.mp answered)
  | div =>
    match stack, answered with
    | _ :: _ :: _, answered => exact .div (UnitAnswer.made_eq_pushed_iff.mp answered)
  | pow n =>
    match stack, answered with
    | _ :: _, answered => exact .pow (UnitAnswer.made_eq_pushed_iff.mp answered)
  | tryMul =>
    match stack, answered with
    | _ :: _ :: _, answered => exact .tryMul (UnitAnswer.made_eq_pushed_iff.mp answered)
  | tryDiv =>
    match stack, answered with
    | _ :: _ :: _, answered => exact .tryDiv (UnitAnswer.made_eq_pushed_iff.mp answered)
  | tryPow n =>
    match stack, answered with
    | _ :: _, answered => exact .tryPow (UnitAnswer.made_eq_pushed_iff.mp answered)
  | toCanonical raw | fromCanonical raw | isDimensionless | describe =>
    cases stack <;> cases answered
  | expect dimension | asFactor =>
    match stack, answered with
    | _ :: _, answered =>
      rw [UnitStep.answer] at answered
      split at answered <;> cases answered
  | compare =>
    match stack, answered with
    | _ :: _ :: _, answered => cases answered

theorem answer_eq_pushed_iff {stack : List MeasureUnit} {step : UnitStep} {u : MeasureUnit} :
    step.answer stack = .pushed u ↔ step.Pushes stack u :=
  ⟨pushes_of_answer, Pushes.answer⟩

/-- The steps that push a unit whose scale left its range: a product, a quotient
or a power that checks the exponents only, where these fit. -/
inductive Escapes : List MeasureUnit → UnitStep → Prop
  | tryMul {left right : MeasureUnit} {rest : List MeasureUnit} :
      (∀ base, Dimension.ExponentFits (left.dimension.exponent base + right.dimension.exponent base)) →
      ¬ PositiveFinite (left.scale * right.scale) → Escapes (right :: left :: rest) .tryMul
  | tryDiv {left right : MeasureUnit} {rest : List MeasureUnit} :
      (∀ base, Dimension.ExponentFits (left.dimension.exponent base - right.dimension.exponent base)) →
      ¬ PositiveFinite (left.scale / right.scale) → Escapes (right :: left :: rest) .tryDiv
  | tryPow {top : MeasureUnit} {rest : List MeasureUnit} {n : Int} :
      (∀ base, Dimension.ExponentFits (top.dimension.exponent base * n)) →
      ¬ PositiveFinite (integerPower top.scale n) → Escapes (top :: rest) (.tryPow n)

theorem Escapes.pushes {stack : List MeasureUnit} {step : UnitStep} (escapes : step.Escapes stack) :
    ∃ u, step.Pushes stack u ∧ ¬ PositiveFinite u.scale := by
  cases escapes with
  | tryMul fits invalid =>
    obtain ⟨u, has⟩ := MeasureUnit.has_exists _ fits
    exact ⟨u, .tryMul (MeasureUnit.tryMul_eq_ok_iff.mpr ⟨fits, has⟩), has.scale_eq ▸ invalid⟩
  | tryDiv fits invalid =>
    obtain ⟨u, has⟩ := MeasureUnit.has_exists _ fits
    exact ⟨u, .tryDiv (MeasureUnit.tryDiv_eq_ok_iff.mpr ⟨fits, has⟩), has.scale_eq ▸ invalid⟩
  | tryPow fits invalid =>
    obtain ⟨u, has⟩ := MeasureUnit.has_exists _ fits
    exact ⟨u, .tryPow (MeasureUnit.tryPow_eq_ok_iff.mpr ⟨fits, has⟩), has.scale_eq ▸ invalid⟩

/-- One step on good units pushes a good unit unless it escapes. -/
theorem Pushes.positive {stack : List MeasureUnit} {step : UnitStep} {u : MeasureUnit}
    (pushes : step.Pushes stack u) (good : ∀ v ∈ stack, PositiveFinite v.scale)
    (kept : ¬ step.Escapes stack) : PositiveFinite u.scale := by
  cases pushes with
  | parse made => exact parseUnit_scale made
  | new made => exact MeasureUnit.new_scale made
  | canonical => exact MeasureUnit.new_scale (MeasureUnit.new_canonical _)
  | tryNew made => exact MeasureUnit.checked_scale made
  | pick held => exact good u (List.mem_of_getElem? held)
  | mul made =>
    rw [MeasureUnit.mul_eq_guarded] at made
    exact (MeasureUnit.guarded_eq_ok_iff.mp made).2
  | div made =>
    rw [MeasureUnit.div_eq_guarded] at made
    exact (MeasureUnit.guarded_eq_ok_iff.mp made).2
  | pow made =>
    rw [MeasureUnit.pow_eq_guarded] at made
    exact (MeasureUnit.guarded_eq_ok_iff.mp made).2
  | tryMul made =>
    obtain ⟨fits, has⟩ := MeasureUnit.tryMul_eq_ok_iff.mp made
    rw [has.scale_eq]
    exact of_not_not fun invalid => kept (.tryMul fits invalid)
  | tryDiv made =>
    obtain ⟨fits, has⟩ := MeasureUnit.tryDiv_eq_ok_iff.mp made
    rw [has.scale_eq]
    exact of_not_not fun invalid => kept (.tryDiv fits invalid)
  | tryPow made =>
    obtain ⟨fits, has⟩ := MeasureUnit.tryPow_eq_ok_iff.mp made
    rw [has.scale_eq]
    exact of_not_not fun invalid => kept (.tryPow fits invalid)

theorem good_onto {stack : List MeasureUnit} {step : UnitStep}
    (good : ∀ v ∈ stack, PositiveFinite v.scale) (kept : ¬ step.Escapes stack) :
    ∀ v ∈ (step.answer stack).onto stack, PositiveFinite v.scale := by
  cases answered : step.answer stack with
  | pushed u =>
    have new := (answer_eq_pushed_iff.mp answered).positive good kept
    exact List.forall_mem_cons.mpr ⟨new, good⟩
  | _ => exact good

/-- A run on good units pushes good units only if none of its steps escapes. -/
theorem run_positive {stack : List MeasureUnit} {steps : List UnitStep}
    (good : ∀ v ∈ stack, PositiveFinite v.scale)
    (kept : ∀ before step after, steps = before ++ step :: after →
      ¬ step.Escapes (stackAfter stack before)) {u : MeasureUnit}
    (pushed : .pushed u ∈ run stack steps) : PositiveFinite u.scale := by
  induction steps generalizing stack with
  | nil => cases pushed
  | cons step rest ih =>
    have first : ¬ step.Escapes stack := kept [] step rest rfl
    rw [run_cons] at pushed
    rcases List.mem_cons.mp pushed with answered | later
    · exact (answer_eq_pushed_iff.mp answered.symm).positive good first
    · refine ih (good_onto good first) ?_ later
      rintro before other after rfl
      exact kept (step :: before) other after rfl

theorem Pushes.mem_run {stack : List MeasureUnit} {before : List UnitStep} {step : UnitStep}
    {u : MeasureUnit} (pushes : step.Pushes (stackAfter stack before) u) (after : List UnitStep) :
    .pushed u ∈ run stack (before ++ step :: after) := by
  rw [run_append, run_cons, pushes.answer]
  exact List.mem_append_right _ (List.mem_cons_self ..)

/-- Over a whole run every unit has a positive finite scale just if no product,
quotient or power that checks the exponents only takes the scale out of range. -/
theorem run_scales_positive_iff (steps : List UnitStep) :
    (∀ u, .pushed u ∈ run [] steps → PositiveFinite u.scale) ↔
      ∀ before step after, steps = before ++ step :: after →
        ¬ step.Escapes (stackAfter [] before) := by
  constructor
  · rintro good before step after rfl escapes
    obtain ⟨u, pushes, invalid⟩ := escapes.pushes
    exact invalid (good u (pushes.mem_run after))
  · intro kept u pushed
    exact run_positive (List.forall_mem_nil _) kept pushed

/-- A power of a unit that was read can have an infinite scale, or the scale zero. -/
theorem run_scale_escapes : ∃ infinite zero,
    .pushed infinite ∈ run [] [.parse "Ym", .tryPow 13] ∧ infinite.scale.isFinite = false ∧
      .pushed zero ∈ run [] [.parse "Ym", .tryPow (-14)] ∧ ¬ 0.0 < zero.scale := by
  have parsed : (UnitStep.parse "Ym").Pushes [] ⟨1e24, { m := 1 }⟩ := .parse (by decide +kernel)
  have stack : stackAfter [] [.parse "Ym"] = [⟨1e24, { m := 1 }⟩] := by
    rw [stackAfter, parsed.answer]
    rfl
  have large : (UnitStep.tryPow 13).Pushes (stackAfter [] [.parse "Ym"])
      ⟨integerPower 1e24 13, { m := 13 }⟩ := by
    rw [stack]
    exact .tryPow (by decide +kernel)
  have small : (UnitStep.tryPow (-14)).Pushes (stackAfter [] [.parse "Ym"])
      ⟨integerPower 1e24 (-14), { m := -14 }⟩ := by
    rw [stack]
    exact .tryPow (by decide +kernel)
  exact ⟨_, _, large.mem_run [], by decide +kernel, small.mem_run [], by decide +kernel⟩

end UnitStep

end Mensura
