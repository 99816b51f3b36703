import Mensura.Weight.Registry
import Mensura.Proofs.Weight.Agreement

namespace Mensura

namespace Weight

/-- The result that the first failing condition decides, in the order in which
the conditions are documented. -/
def verdict (m g f : Buffer) : Except KernelError Unit :=
  if g.size ≠ 1 then .error (.nonScalarAcceleration g.size)
  else if g.unit.dimension ≠ .acceleration then
    .error (.buffer .acceleration (.dimensionMismatch .scalar g.unit.dimension .acceleration))
  else if m.size ≠ f.size then .error (.sizeMismatch m.size f.size)
  else if m.size = 0 then .ok ()
  else if m.unit.dimension ≠ .mass then
    .error (.buffer .mass (.dimensionMismatch (.index 0) m.unit.dimension .mass))
  else if f.unit.dimension ≠ .force then
    .error (.buffer .force (.dimensionMismatch (.index 0) f.unit.dimension .force))
  else .ok ()

/-- What a computation of weights can come to: it is refused and the forces are
as they were, there is nothing to do, or every force is written. -/
inductive Settled (m g f : Buffer) : Outcome → Prop
  | refused {error : KernelError} : verdict m g f = .error error → Settled m g f ⟨.error error, f⟩
  | idle : verdict m g f = .ok () → m.size = f.size → m.size = 0 → Settled m g f ⟨.ok (), f⟩
  | written {raw : Float} : verdict m g f = .ok () → m.size = f.size → m.size ≠ 0 →
      g.elements = [raw] → Settled m g f
        ⟨.ok (), f.putFrom 0 (m.elements.map (weigh m.unit f.unit ⟨g.unit.toCanonical raw⟩))⟩

theorem indexed_settled (m g f : Buffer) : Settled m g f (indexed m g f) := by
  unfold indexed
  have checked := prepare_checked m g f
  generalize prepare m g f = prepared at checked
  cases checked with
  | severalAccelerations several => exact .refused (if_pos several)
  | foreignAcceleration single foreign =>
    exact .refused (by rw [verdict, if_neg (not_not_intro single), if_pos foreign])
  | unequalSizes single known unequal =>
    refine .refused ?_
    rw [verdict, if_neg (not_not_intro single), if_neg (not_not_intro known), if_pos unequal]
  | noMasses single known equal empty =>
    refine .idle ?_ equal empty
    rw [verdict, if_neg (not_not_intro single), if_neg (not_not_intro known),
      if_neg (not_not_intro equal), if_pos empty]
  | @ready raw held known equal some =>
    have single : g.size = 1 := by rw [← g.elements_length, held, List.length_singleton]
    have remaining : verdict m g f = if m.unit.dimension ≠ .mass then
        .error (.buffer .mass (.dimensionMismatch (.index 0) m.unit.dimension .mass))
      else if f.unit.dimension ≠ .force then
        .error (.buffer .force (.dimensionMismatch (.index 0) f.unit.dimension .force))
      else .ok () := by
      rw [verdict, if_neg (not_not_intro single), if_neg (not_not_intro known),
        if_neg (not_not_intro equal), if_neg some]
    obtain ⟨count, size⟩ := Nat.exists_eq_succ_of_ne_zero some
    dsimp only
    by_cases massKnown : m.unit.dimension = .mass
    · rw [if_neg (not_not_intro massKnown)] at remaining
      by_cases forceKnown : f.unit.dimension = .force
      · rw [if_neg (not_not_intro forceKnown)] at remaining
        rw [visit_eq_putFrom _ massKnown forceKnown (Nat.zero_add m.size) (Nat.le_of_eq equal)]
        exact .written remaining equal some held
      · obtain ⟨first, heldFirst⟩ := m.element_exists (show 0 < m.size by omega)
        rw [size, visit_foreign_force _ count massKnown forceKnown heldFirst]
        exact .refused (remaining.trans (if_pos forceKnown))
    · rw [size, visit_foreign_mass _ count 0 massKnown]
      exact .refused (remaining.trans (if_pos massKnown))

end Weight

namespace WeightKernel

variable {kernel : WeightKernel}

theorem run_eq_indexed (known : kernel ∈ registered) (m g f : Buffer) :
    kernel.run m g f = Weight.indexed m g f := by
  simp only [registered, List.mem_cons, List.not_mem_nil, or_false] at known
  rcases known with rfl | rfl | rfl
  · exact (Weight.pipeline_eq_lockstep m g f).trans (Weight.lockstep_eq_indexed m g f)
  · exact Weight.lockstep_eq_indexed m g f
  · rfl

theorem run_settled (known : kernel ∈ registered) (m g f : Buffer) :
    Weight.Settled m g f (kernel.run m g f) := by
  rw [run_eq_indexed known]
  exact Weight.indexed_settled m g f

end WeightKernel

end Mensura
