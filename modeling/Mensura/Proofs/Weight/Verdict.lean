import Mensura.Proofs.Weight.Outcome

namespace Mensura

namespace KernelError

/-- The errors of a computation that has not written a force yet. They are
about a shape or about a dimension and never about both, none comes from an
access behind the end or from the size of a scalar, and a dimension that is
compared at an index is compared at the first one. -/
structure BeforeFirstForce (error : KernelError) : Prop where
  one_kind : (error.isShapeError = true ∧ error.isDimensionMismatch = false) ∨
    (error.isShapeError = false ∧ error.isDimensionMismatch = true)
  in_range : ∀ role index len, error ≠ .buffer role (.outOfRange index len)
  scalar : ∀ role len, error ≠ .buffer role (.notScalar len)
  first_index : ∀ role index stored requested,
    error = .buffer role (.dimensionMismatch (.index index) stored requested) → index = 0

theorem BeforeFirstForce.of_shape {error : KernelError} (shape : error.isShapeError = true) :
    error.BeforeFirstForce := by
  have foreign (role : Role) (cause : BufferError) : error ≠ .buffer role cause := by
    rintro rfl
    cases shape
  refine ⟨Or.inl ⟨shape, ?_⟩, fun _ _ _ => foreign _ _, fun _ _ => foreign _ _,
    fun _ _ _ _ same => absurd same (foreign _ _)⟩
  cases error with
  | buffer role cause => cases shape
  | _ => rfl

theorem BeforeFirstForce.of_mismatch {role : Role} {place : Place} {stored requested : Dimension}
    (first : ∀ index, place = .index index → index = 0) :
    (buffer role (.dimensionMismatch place stored requested)).BeforeFirstForce where
  one_kind := Or.inr ⟨rfl, rfl⟩
  in_range := nofun
  scalar := nofun
  first_index := by
    intro _ index _ _ same
    cases same
    exact first index rfl

end KernelError

theorem Weight.verdict_error {m g f : Buffer} {error : KernelError}
    (refused : verdict m g f = .error error) : error.BeforeFirstForce := by
  unfold verdict at refused
  split at refused
  · cases refused
    exact .of_shape rfl
  split at refused
  · cases refused
    exact .of_mismatch nofun
  split at refused
  · cases refused
    exact .of_shape rfl
  split at refused
  · cases refused
  split at refused
  · cases refused
    exact .of_mismatch fun _ same => (Place.index.inj same).symm
  split at refused
  · cases refused
    exact .of_mismatch fun _ same => (Place.index.inj same).symm
  · cases refused

namespace WeightKernel

/-- The first failing condition decides the result, and a computation that is
refused has not written anything. -/
theorem run_result_verdict {kernel : WeightKernel} (known : kernel ∈ registered) (m g f : Buffer) :
    (kernel.run m g f).result = Weight.verdict m g f ∧
      ∀ error, (kernel.run m g f).result = .error error →
        error.BeforeFirstForce ∧ (kernel.run m g f).force = f := by
  have settled := run_settled known m g f
  generalize kernel.run m g f = outcome at settled ⊢
  cases settled with
  | idle agreed _ _ => exact ⟨agreed.symm, nofun⟩
  | written agreed _ _ _ => exact ⟨agreed.symm, nofun⟩
  | @refused cause agreed =>
    refine ⟨agreed.symm, fun error same => ?_⟩
    cases Except.error.inj same
    exact ⟨Weight.verdict_error agreed, rfl⟩

def twoMasses : Buffer :=
  .whole #[1.0, 2.0] (.canonical .mass)

def oneAcceleration : Buffer :=
  .whole #[9.81] (.canonical .acceleration)

def twoLengths : Buffer :=
  .whole #[7.0, 7.0] (.canonical .length)

theorem run_result_verdict_lengths :
    lockstep ∈ registered ∧
      (lockstep.run twoMasses oneAcceleration twoLengths).result =
        Weight.verdict twoMasses oneAcceleration twoLengths ∧
      ∀ error, (lockstep.run twoMasses oneAcceleration twoLengths).result = .error error →
        error.BeforeFirstForce ∧ (lockstep.run twoMasses oneAcceleration twoLengths).force = twoLengths :=
  ⟨by simp [registered],
    run_result_verdict (by simp [registered]) twoMasses oneAcceleration twoLengths⟩

end WeightKernel

end Mensura
