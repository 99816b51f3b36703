import Mensura.Proofs.Command.Verification
import Mensura.Proofs.Weight.Coherent

namespace Mensura

namespace BenchOrder

/-- In the units of the comparison a kernel leaves what the plain product does,
whatever the masses are. -/
theorem contestant_run {kernel : WeightKernel} (known : kernel ∈ WeightKernel.registered)
    (masses : Array Float) :
    (contestant (.canonical .mass) (.canonical .acceleration) (.canonical .force) kernel).run masses =
      .ok (plainForces acceleration masses) := by
  have sizes : masses.size = (Array.replicate masses.size 0.0).size := Array.size_replicate.symm
  have coherent : Weight.Coherent (.whole masses (.canonical .mass))
      (.whole #[acceleration] (.canonical .acceleration))
      (.whole (Array.replicate masses.size 0.0) (.canonical .force)) :=
    ⟨rfl, sizes, rfl, rfl, rfl, rfl, rfl, rfl⟩
  obtain ⟨_, _, plain⟩ := WeightKernel.run_plain known coherent
  have done := plain.result
  rw [WeightKernel.run_eq_indexed known] at done
  have cells := Weight.indexed_whole sizes done
  unfold contestant
  dsimp only
  rw [WeightKernel.run_eq_indexed known, done]
  refine congrArg Except.ok (Array.toList_inj.mp ?_)
  rw [cells, plainForces, Array.toList_map]
  exact List.map_congr_left fun raw _ => Weight.weigh_coherent rfl rfl rfl acceleration raw

theorem parseUnit_coherent :
    parseUnit "kg" = .ok (.canonical .mass) ∧ parseUnit "m s^-2" = .ok (.canonical .acceleration) ∧
      parseUnit "N" = .ok (.canonical .force) ∧ parseUnit "kg*m/(s^2)" = .ok (.canonical .force) := by
  decide +kernel

/-- The units of the comparison can be read, so it has all its contestants. -/
theorem contestants_eq :
    contestants = .ok (⟨"raw-f64", fun masses => .ok (plainForces acceleration masses)⟩ ::
      WeightKernel.all.map (contestant (.canonical .mass) (.canonical .acceleration) (.canonical .force))) := by
  obtain ⟨mass, gravity, force, _⟩ := parseUnit_coherent
  rw [contestants, commandUnit_eq_ok_iff.mpr mass, commandUnit_eq_ok_iff.mpr gravity,
    commandUnit_eq_ok_iff.mpr force]
  rfl

end BenchOrder

/-- Units that are worth one canonical unit each cannot be observed. The common
texts of the units of mass, acceleration and force are read as such units. Over
all buffers in such units every kernel leaves the plain products of the stored
numbers. The contestants of the comparison all give the same forces, the ones of
the plain loop whatever forces it starts from. -/
theorem coherent_units_unobservable :
    (parseUnit "kg" = .ok (.canonical .mass) ∧ parseUnit "m s^-2" = .ok (.canonical .acceleration) ∧
      parseUnit "N" = .ok (.canonical .force) ∧ parseUnit "kg*m/(s^2)" = .ok (.canonical .force)) ∧
    (∀ kernel ∈ WeightKernel.registered, ∀ m g f : Buffer, Weight.Coherent m g f →
      ∃ acceleration, g.cells[0]? = some acceleration ∧
        Weight.Plain acceleration m f (kernel.run m g f)) ∧
    (∃ contestants, BenchOrder.contestants = .ok contestants ∧
      contestants.map Contestant.name = ["raw-f64", "index", "iter", "pipeline"] ∧
      ∀ contestant ∈ contestants, ∀ masses,
        contestant.run masses = .ok (plainForces BenchOrder.acceleration masses)) ∧
    ∀ g (forces masses : Array Float), forces.size = masses.size →
      (plainForces g masses).toList = plainLoop g forces.toList masses.toList := by
  refine ⟨BenchOrder.parseUnit_coherent,
    fun kernel known m g f coherent => WeightKernel.run_plain known coherent,
    ⟨_, BenchOrder.contestants_eq, ?_, ?_⟩, fun g forces masses equal => plainForces_eq_loop equal⟩
  · rw [WeightKernel.all, WeightKernel.sorted_eq (.refl _)]
    rfl
  · intro contestant member masses
    rcases List.mem_cons.mp member with rfl | member
    · rfl
    · obtain ⟨kernel, inside, rfl⟩ := List.mem_map.mp member
      exact BenchOrder.contestant_run (RunOrder.mem_all inside) masses

theorem coherent_units_unobservable_spaced :
    Weight.Coherent WeightKernel.spacedMasses WeightKernel.doubling WeightKernel.spacedForces ∧
      ∃ acceleration, WeightKernel.doubling.cells[0]? = some acceleration ∧
        Weight.Plain acceleration WeightKernel.spacedMasses WeightKernel.spacedForces
          (WeightKernel.pipeline.run WeightKernel.spacedMasses WeightKernel.doubling WeightKernel.spacedForces) := by
  have coherent : Weight.Coherent WeightKernel.spacedMasses WeightKernel.doubling WeightKernel.spacedForces :=
    ⟨rfl, rfl, rfl, rfl, rfl, rfl, rfl, rfl⟩
  exact ⟨coherent, coherent_units_unobservable.2.1 _ (List.mem_cons_self ..) _ _ _ coherent⟩

end Mensura
