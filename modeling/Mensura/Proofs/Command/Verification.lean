import Mensura.Command.Run
import Mensura.Proofs.Buffer.Refinement
import Mensura.Proofs.Command.Conversion
import Mensura.Proofs.Sample.Generator
import Mensura.Proofs.Weight.Choice

namespace Mensura

namespace Weight

/-- Over whole storages a computation that succeeds leaves one weight for each
mass, in the order of the masses. -/
theorem indexed_whole {masses forces : Array Float} {acceleration : Float}
    {massUnit gUnit forceUnit : MeasureUnit} (equal : masses.size = forces.size)
    (done : (indexed (.whole masses massUnit) (.whole #[acceleration] gUnit)
      (.whole forces forceUnit)).result = .ok ()) :
    (indexed (.whole masses massUnit) (.whole #[acceleration] gUnit)
      (.whole forces forceUnit)).force.cells.toList =
      masses.toList.map (weigh massUnit forceUnit ⟨gUnit.toCanonical acceleration⟩) := by
  have settled := indexed_settled (.whole masses massUnit) (.whole #[acceleration] gUnit)
    (.whole forces forceUnit)
  generalize indexed _ _ _ = outcome at settled done ⊢
  have sameMasses : (Buffer.whole masses massUnit).elements = masses.toList :=
    Buffer.elements_of_contiguous rfl
  cases settled with
  | refused _ => cases done
  | idle _ _ empty =>
    have noMasses : masses.size = 0 := empty
    rw [List.eq_nil_of_length_eq_zero (Array.length_toList.trans noMasses)]
    exact List.eq_nil_of_length_eq_zero (Array.length_toList.trans (equal.symm.trans noMasses))
  | @written raw _ _ _ held =>
    have sameAcceleration : (Buffer.whole #[acceleration] gUnit).elements = [acceleration] :=
      Buffer.elements_of_contiguous rfl
    obtain rfl : acceleration = raw := List.singleton_inj.mp (sameAcceleration.symm.trans held)
    rw [sameMasses]
    exact Buffer.putFrom_whole_cells forceUnit
      (by rw [List.length_map, Array.length_toList]; exact equal)

theorem indexed_result (m g f : Buffer) : (indexed m g f).result = verdict m g f := by
  have settled := indexed_settled m g f
  generalize indexed m g f = outcome at settled
  cases settled with
  | refused agreed | idle agreed _ _ | written agreed _ _ _ => exact agreed.symm

/-- Over whole storages of one size and with one acceleration, only the
dimensions are left to be checked, and without masses only that of the acceleration. -/
theorem verdict_whole {masses forces : Array Float} {acceleration : Float}
    {massUnit gUnit forceUnit : MeasureUnit} (equal : masses.size = forces.size) :
    verdict (.whole masses massUnit) (.whole #[acceleration] gUnit) (.whole forces forceUnit) = .ok () ↔
      gUnit.dimension = .acceleration ∧
        (masses.size = 0 ∨ massUnit.dimension = .mass ∧ forceUnit.dimension = .force) := by
  have single : (Buffer.whole #[acceleration] gUnit).size = 1 := rfl
  have sizes : (Buffer.whole masses massUnit).size = (Buffer.whole forces forceUnit).size := equal
  rw [verdict, if_neg (not_not_intro single), if_neg (not_not_intro sizes)]
  show (if gUnit.dimension ≠ .acceleration then _ else if masses.size = 0 then _
    else if massUnit.dimension ≠ .mass then _ else if forceUnit.dimension ≠ .force then _ else _) = _ ↔ _
  by_cases known : gUnit.dimension = .acceleration
  · by_cases empty : masses.size = 0
    · simp [known, empty]
    · by_cases massKnown : massUnit.dimension = .mass
      · by_cases forceKnown : forceUnit.dimension = .force <;> simp [known, empty, massKnown, forceKnown]
      · simp [known, empty, massKnown]
  · simp [known]

theorem indexed_cells_size (m g f : Buffer) : (indexed m g f).force.cells.size = f.cells.size := by
  have settled := indexed_settled m g f
  generalize indexed m g f = outcome at settled
  cases settled with
  | refused | idle => rfl
  | written => exact Buffer.putFrom_cells_size ..

end Weight

namespace RunOrder

variable {order : RunOrder} {m g : Buffer} {forceUnit : MeasureUnit}

theorem zeros_size (count : Nat) : (zeros count).size = count :=
  Array.size_replicate

/-- What every kernel computes from fresh zeros. -/
def fresh (m g : Buffer) (forceUnit : MeasureUnit) : Outcome :=
  Weight.indexed m g (.whole (zeros m.cells.size) forceUnit)

theorem forces_eq (known : WeightKernel.Registered order.method) :
    order.forces m g forceUnit =
      match (fresh m g forceUnit).result with
      | .ok () => .ok (fresh m g forceUnit).force.cells
      | .error error => .error ⟨"kernel '" ++ order.method ++ "' failed", error.causes⟩ := by
  rw [forces, Weight.compute_registered known]
  rfl

theorem fresh_cells_size (m g : Buffer) (forceUnit : MeasureUnit) :
    (fresh m g forceUnit).force.cells.size = m.cells.size :=
  (Weight.indexed_cells_size ..).trans (zeros_size _)

/-- A kernel succeeds on fresh zeros and leaves the bits of the reference. -/
structure Reproduces (m g : Buffer) (forceUnit : MeasureUnit) (reference : Array Float)
    (kernel : WeightKernel) : Prop where
  result : (kernel.run m g (.whole (zeros reference.size) forceUnit)).result = .ok ()
  bits : (kernel.run m g (.whole (zeros reference.size) forceUnit)).force.cells.toList.map Float.toBits =
    reference.toList.map Float.toBits

/-- The comparison finds no difference just if each of its kernels leaves the reference. -/
theorem verifyWith_eq_true_iff {reference : Array Float} {kernels : List WeightKernel} :
    verifyWith m g forceUnit reference kernels = .ok true ↔
      ∀ kernel ∈ kernels, Reproduces m g forceUnit reference kernel := by
  induction kernels with
  | nil => exact ⟨fun _ _ => nofun, fun _ => rfl⟩
  | cons kernel rest ih =>
    rw [List.forall_mem_cons, ← ih, verifyWith]
    cases result : (kernel.run m g (.whole (zeros reference.size) forceUnit)).result with
    | error error =>
      refine ⟨nofun, fun ⟨first, _⟩ => ?_⟩
      cases result.symm.trans first.result
    | ok =>
      dsimp only
      split
      · rename_i same
        exact ⟨fun later => ⟨⟨result, beq_iff_eq.mp same⟩, later⟩, And.right⟩
      · rename_i differ
        exact ⟨nofun, fun ⟨first, _⟩ => absurd (beq_iff_eq.mpr first.bits) differ⟩

theorem mem_all {kernel : WeightKernel} (member : kernel ∈ WeightKernel.all) :
    kernel ∈ WeightKernel.registered :=
  List.mem_mergeSort.mp member

/-- What a kernel has computed from fresh zeros, every kernel computes from them. -/
theorem reproduces_of_forces (known : WeightKernel.Registered order.method) {reference : Array Float}
    (done : order.forces m g forceUnit = .ok reference) {kernel : WeightKernel}
    (member : kernel ∈ WeightKernel.registered) : Reproduces m g forceUnit reference kernel := by
  rw [forces_eq known] at done
  cases result : (fresh m g forceUnit).result with
  | error error =>
    rw [result] at done
    cases done
  | ok =>
    rw [result] at done
    cases done
    have again : kernel.run m g (.whole (zeros (fresh m g forceUnit).force.cells.size) forceUnit) =
        fresh m g forceUnit := by
      rw [WeightKernel.run_eq_indexed member, fresh_cells_size]
      rfl
    exact ⟨by rw [again, result], by rw [again]⟩

/-- Behind a kernel that succeeded, the verification succeeds. -/
theorem verify_of_forces (known : WeightKernel.Registered order.method) {reference : Array Float}
    (done : order.forces m g forceUnit = .ok reference) :
    verifyWith m g forceUnit reference WeightKernel.all = .ok true :=
  verifyWith_eq_true_iff.mpr fun _ member => reproduces_of_forces known done (mem_all member)

/-- The report of a run whose kernel left these forces. -/
def reportOf (order : RunOrder) (forces : Array Float) : RunReport where
  method := order.method
  g := order.g
  gUnit := order.gUnit
  massUnit := order.massUnit
  forceUnit := order.forceUnit
  masses := sampleMasses order.count order.seed
  forces := forces.toList
  verified := if order.verify then some true else none

/-- What the kernels compute in a run, once its units are read. -/
def outcome (order : RunOrder) (massUnit gUnit forceUnit : MeasureUnit) : Outcome :=
  fresh (.whole (sampleMasses order.count order.seed).toArray massUnit) (.whole #[order.g] gUnit)
    forceUnit

/-- How a run ends behind what its kernel computed. -/
def ending (order : RunOrder) (outcome : Outcome) : Except Failure RunReport :=
  match outcome.result with
  | .ok () => .ok (order.reportOf outcome.force.cells)
  | .error error => .error ⟨"kernel '" ++ order.method ++ "' failed", error.causes⟩

theorem ending_eq_ok_iff {outcome : Outcome} {report : RunReport} :
    order.ending outcome = .ok report ↔
      outcome.result = .ok () ∧ order.reportOf outcome.force.cells = report := by
  rw [ending]
  cases outcome.result with
  | error _ => exact ⟨nofun, nofun⟩
  | ok => exact ⟨fun same => ⟨rfl, Except.ok.inj same⟩, fun same => congrArg _ same.2⟩

/-- The units of the masses, the acceleration and the forces, read in this order. -/
def units (order : RunOrder) : Except Failure (MeasureUnit × MeasureUnit × MeasureUnit) := do
  let massUnit ← commandUnit "mass" order.massUnit
  let gUnit ← commandUnit "acceleration" order.gUnit
  let forceUnit ← commandUnit "force" order.forceUnit
  return (massUnit, gUnit, forceUnit)

/-- A verification adds nothing to a run but what it says of itself. -/
theorem execute_eq (known : WeightKernel.Registered order.method) :
    order.execute = order.units >>= fun (massUnit, gUnit, forceUnit) =>
      order.ending (order.outcome massUnit gUnit forceUnit) := by
  rw [execute, units]
  rcases commandUnit "mass" order.massUnit with _ | massUnit
  · rfl
  rcases commandUnit "acceleration" order.gUnit with _ | gUnit
  · rfl
  rcases commandUnit "force" order.forceUnit with _ | forceUnit
  · rfl
  simp only [bind, Except.bind, pure, Except.pure]
  cases done : order.forces (.whole (sampleMasses order.count order.seed).toArray massUnit)
    (.whole #[order.g] gUnit) forceUnit with
  | error _ =>
    rw [forces_eq known, ← outcome] at done
    rw [ending]
    split at done <;> cases done
    rfl
  | ok reference =>
    have verified := verify_of_forces known done
    rw [forces_eq known, ← outcome] at done
    rw [ending]
    split at done <;> cases done
    dsimp only
    rw [reportOf, verified]
    cases order.verify <;> rfl

/-- The units that a run reads. -/
structure Reads (order : RunOrder) (massUnit gUnit forceUnit : MeasureUnit) : Prop where
  mass : parseUnit order.massUnit = .ok massUnit
  acceleration : parseUnit order.gUnit = .ok gUnit
  force : parseUnit order.forceUnit = .ok forceUnit

theorem units_eq_ok_iff {massUnit gUnit forceUnit : MeasureUnit} :
    order.units = .ok (massUnit, gUnit, forceUnit) ↔ order.Reads massUnit gUnit forceUnit := by
  constructor
  · intro done
    obtain ⟨_, mass, done⟩ := bind_eq_ok_iff.mp done
    obtain ⟨_, acceleration, done⟩ := bind_eq_ok_iff.mp done
    obtain ⟨_, force, done⟩ := bind_eq_ok_iff.mp done
    cases done
    exact ⟨commandUnit_eq_ok_iff.mp mass, commandUnit_eq_ok_iff.mp acceleration,
      commandUnit_eq_ok_iff.mp force⟩
  · intro reads
    rw [units, commandUnit_eq_ok_iff.mpr reads.mass, commandUnit_eq_ok_iff.mpr reads.acceleration,
      commandUnit_eq_ok_iff.mpr reads.force]
    rfl

theorem execute_eq_ok_iff (known : WeightKernel.Registered order.method) {report : RunReport} :
    order.execute = .ok report ↔ ∃ massUnit gUnit forceUnit, order.Reads massUnit gUnit forceUnit ∧
      (order.outcome massUnit gUnit forceUnit).result = .ok () ∧
      order.reportOf (order.outcome massUnit gUnit forceUnit).force.cells = report := by
  rw [execute_eq known, bind_eq_ok_iff]
  constructor
  · rintro ⟨⟨massUnit, gUnit, forceUnit⟩, read, ended⟩
    exact ⟨massUnit, gUnit, forceUnit, units_eq_ok_iff.mp read, ending_eq_ok_iff.mp ended⟩
  · rintro ⟨massUnit, gUnit, forceUnit, reads, ended⟩
    exact ⟨(massUnit, gUnit, forceUnit), units_eq_ok_iff.mpr reads, ending_eq_ok_iff.mpr ended⟩

/-- A run of known units succeeds by their dimensions. -/
theorem outcome_result (massUnit gUnit forceUnit : MeasureUnit) :
    (order.outcome massUnit gUnit forceUnit).result = .ok () ↔
      gUnit.dimension = .acceleration ∧
        (order.count = 0 ∨ massUnit.dimension = .mass ∧ forceUnit.dimension = .force) := by
  have size : (sampleMasses order.count order.seed).toArray.size = order.count := by
    rw [List.size_toArray, sampleMasses_length]
  rw [outcome, fresh, Weight.indexed_result]
  refine (Weight.verdict_whole (zeros_size _).symm).trans ?_
  rw [size]

/-- What a report says: as many masses as were ordered, and for each of them
the weight that belongs to it. -/
structure Weighs (order : RunOrder) (massUnit gUnit forceUnit : MeasureUnit) (report : RunReport) :
    Prop where
  masses : report.masses = sampleMasses order.count order.seed
  masses_length : report.masses.length = order.count
  forces_length : report.forces.length = order.count
  force : ∀ (i : Nat) (mass : Float), report.masses[i]? = some mass → report.forces[i]? =
    some (mass * massUnit.scale * (order.g * gUnit.scale) / forceUnit.scale)
  verified : report.verified = if order.verify then some true else none

theorem outcome_weighs {massUnit gUnit forceUnit : MeasureUnit}
    (done : (order.outcome massUnit gUnit forceUnit).result = .ok ()) :
    order.Weighs massUnit gUnit forceUnit
      (order.reportOf (order.outcome massUnit gUnit forceUnit).force.cells) := by
  have weighed : (order.reportOf (order.outcome massUnit gUnit forceUnit).force.cells).forces =
      (sampleMasses order.count order.seed).map
        (Weight.weigh massUnit forceUnit ⟨gUnit.toCanonical order.g⟩) :=
    Weight.indexed_whole (zeros_size _).symm done
  refine ⟨rfl, sampleMasses_length _ _, ?_, fun i mass held => ?_, rfl⟩
  · rw [weighed, List.length_map, sampleMasses_length]
  · rw [weighed, List.getElem?_map, show (sampleMasses order.count order.seed)[i]? = some mass from held]
    rfl

/-- The failures that a run can end with: a text that is no unit, or the error
of the kernel that was asked for. -/
inductive Refused (order : RunOrder) : Failure → Prop
  | unit {what text : String} {causes : List String} :
      Refused order ⟨"invalid " ++ what ++ " unit '" ++ text ++ "'", causes⟩
  | kernel {causes : List String} : Refused order ⟨"kernel '" ++ order.method ++ "' failed", causes⟩

theorem commandUnit_refused {what text : String} {failure : Failure}
    (refused : commandUnit what text = .error failure) : order.Refused failure := by
  obtain ⟨_, _, rfl⟩ := mapError_eq_error_iff.mp refused
  exact .unit

theorem units_refused {failure : Failure} (failed : order.units = .error failure) :
    order.Refused failure := by
  rcases bind_eq_error_iff.mp failed with refused | ⟨_, _, failed⟩
  · exact commandUnit_refused refused
  rcases bind_eq_error_iff.mp failed with refused | ⟨_, _, failed⟩
  · exact commandUnit_refused refused
  rcases bind_eq_error_iff.mp failed with refused | ⟨_, _, failed⟩
  · exact commandUnit_refused refused
  · cases failed

theorem execute_refused (known : WeightKernel.Registered order.method) {failure : Failure}
    (failed : order.execute = .error failure) : order.Refused failure := by
  rw [execute_eq known] at failed
  rcases bind_eq_error_iff.mp failed with refused | ⟨⟨_, _, _⟩, _, failed⟩
  · exact units_refused refused
  · dsimp only at failed
    rw [ending] at failed
    split at failed <;> cases failed
    exact .kernel

theorem toList_getLast?_append (a b : String) (some : b.toList ≠ []) :
    (a ++ b).toList.getLast? = b.toList.getLast? := by
  rw [String.toList_append, List.getLast?_append_of_ne_nil _ some]

/-- The failures of a verification end in another letter. -/
theorem Refused.not_of_verification {failure : Failure} (refused : order.Refused failure) :
    failure.summary ≠ "kernel outputs differ" ∧
      ∀ name, failure.summary ≠ "kernel '" ++ name ++ "' failed during verification" := by
  have ending {text : String} (same : failure.summary = text) :
      text.toList.getLast? ≠ some 'r' ∧ text.toList.getLast? ≠ some 'n' := by
    subst same
    cases refused <;> dsimp only <;> rw [toList_getLast?_append _ _ (by decide)] <;> decide
  refine ⟨fun same => ?_, fun name same => ?_⟩
  · exact absurd (ending same).1 (by decide)
  · have verification := (ending same).2
    rw [toList_getLast?_append _ _ (by decide)] at verification
    exact absurd verification (by decide)

/-- Two ends of runs that differ in the kernel and in the verification only. -/
inductive SameEnd (order order' : RunOrder) :
    Except Failure RunReport → Except Failure RunReport → Prop
  | reported {report report' : RunReport} : report.masses = report'.masses →
      report.forces = report'.forces → SameEnd order order' (.ok report) (.ok report')
  | misread {failure : Failure} : SameEnd order order' (.error failure) (.error failure)
  | refused {causes : List String} : SameEnd order order'
      (.error ⟨"kernel '" ++ order.method ++ "' failed", causes⟩)
      (.error ⟨"kernel '" ++ order'.method ++ "' failed", causes⟩)

theorem execute_same {method : String} (known : WeightKernel.Registered order.method)
    (known' : WeightKernel.Registered method) (verify : Bool) :
    SameEnd order { order with method := method, verify := verify } order.execute
      { order with method := method, verify := verify }.execute := by
  rw [execute_eq known, execute_eq known']
  -- the other run reads the same texts and computes the same outcome
  show SameEnd _ _ (order.units >>= _) (order.units >>= _)
  rcases order.units with _ | ⟨massUnit, gUnit, forceUnit⟩
  · exact .misread
  show SameEnd _ _ (ending _ (order.outcome massUnit gUnit forceUnit))
    (ending _ (order.outcome massUnit gUnit forceUnit))
  rw [ending, ending]
  cases (order.outcome massUnit gUnit forceUnit).result with
  | error error => exact .refused
  | ok => exact .reported rfl rfl

/-- A run does not depend on the kernel that is asked for, nor on whether the
kernels are compared: the comparison never finds a difference and never fails,
because every kernel leaves the bits of the reference on fresh zeros. A run
succeeds exactly if its texts are units of the right dimensions. -/
theorem execute_independent_of_kernel (order : RunOrder)
    (known : WeightKernel.Registered order.method) :
    (∀ m g forceUnit reference, order.forces m g forceUnit = .ok reference →
      verifyWith m g forceUnit reference WeightKernel.all = .ok true ∧
        ∀ kernel ∈ WeightKernel.registered, Reproduces m g forceUnit reference kernel) ∧
    (∀ m g forceUnit reference kernels, verifyWith m g forceUnit reference kernels = .ok true ↔
      ∀ kernel ∈ kernels, Reproduces m g forceUnit reference kernel) ∧
    (∀ failure, order.execute = .error failure → failure.summary ≠ "kernel outputs differ" ∧
      ∀ name, failure.summary ≠ "kernel '" ++ name ++ "' failed during verification") ∧
    (∀ method verify, WeightKernel.Registered method →
      SameEnd order { order with method := method, verify := verify } order.execute
        { order with method := method, verify := verify }.execute) ∧
    (∀ report, order.execute = .ok report → ∃ massUnit gUnit forceUnit,
      order.Reads massUnit gUnit forceUnit ∧ order.Weighs massUnit gUnit forceUnit report) ∧
    ((∃ report, order.execute = .ok report) ↔ ∃ massUnit gUnit forceUnit,
      order.Reads massUnit gUnit forceUnit ∧ gUnit.dimension = .acceleration ∧
        (order.count = 0 ∨ massUnit.dimension = .mass ∧ forceUnit.dimension = .force)) := by
  refine ⟨fun _ _ _ _ done => ⟨verify_of_forces known done, fun _ => reproduces_of_forces known done⟩,
    fun _ _ _ _ _ => verifyWith_eq_true_iff, fun _ failed => (execute_refused known failed).not_of_verification,
    fun _ verify known' => execute_same known known' verify, fun report done => ?_, ?_⟩
  · obtain ⟨massUnit, gUnit, forceUnit, reads, result, rfl⟩ := (execute_eq_ok_iff known).mp done
    exact ⟨massUnit, gUnit, forceUnit, reads, outcome_weighs result⟩
  constructor
  · rintro ⟨report, done⟩
    obtain ⟨massUnit, gUnit, forceUnit, reads, result, _⟩ := (execute_eq_ok_iff known).mp done
    exact ⟨massUnit, gUnit, forceUnit, reads, (outcome_result massUnit gUnit forceUnit).mp result⟩
  · rintro ⟨massUnit, gUnit, forceUnit, reads, dimensions⟩
    have result := (outcome_result massUnit gUnit forceUnit).mpr dimensions
    exact ⟨_, (execute_eq_ok_iff known).mpr ⟨massUnit, gUnit, forceUnit, reads, result, rfl⟩⟩

/-- Three masses in grams, and all kernels compared. -/
def comparedOrder : RunOrder :=
  { count := 3, massUnit := "g", method := "iter", verify := true }

theorem execute_independent_of_kernel_compared :
    WeightKernel.Registered comparedOrder.method ∧ WeightKernel.Registered "indexed" ∧
      (∃ report, comparedOrder.execute = .ok report) ∧
      SameEnd comparedOrder { comparedOrder with method := "indexed", verify := false }
        comparedOrder.execute { comparedOrder with method := "indexed", verify := false }.execute := by
  have known : WeightKernel.Registered comparedOrder.method := by decide
  have known' : WeightKernel.Registered "indexed" := by decide
  have reads : comparedOrder.Reads ⟨1e-3, .mass⟩ ⟨1.0, .acceleration⟩ ⟨1.0, .force⟩ :=
    ⟨by decide +kernel, by decide +kernel, by decide +kernel⟩
  obtain ⟨_, _, _, same, _, succeeds⟩ := execute_independent_of_kernel comparedOrder known
  exact ⟨known, known', succeeds.mpr ⟨_, _, _, reads, rfl, Or.inr ⟨rfl, rfl⟩⟩, same _ _ known'⟩

end RunOrder

end Mensura
