import Mensura.Proofs.Sample.Range
import Mensura.Sample.Generator

namespace Mensura

theorem WordBlock.toList_eq (block : WordBlock) : block.toList = List.ofFn block.get := by
  refine List.ext_getElem (by rw [Vector.length_toList, List.length_ofFn]) fun i _ _ => ?_
  rw [List.getElem_ofFn]
  rfl

namespace Generator

@[simp]
theorem word_cons (key : Vector UInt32 8) (next : Nat) (word : UInt32) (words : List UInt32) :
    (⟨key, next, word :: words⟩ : Generator).word = (word, ⟨key, next, words⟩) :=
  rfl

theorem masses_succ (generator : Generator) (count : Nat) :
    generator.masses (count + 1) =
      (generator.mass.1 :: (generator.mass.2.masses count).1, (generator.mass.2.masses count).2) :=
  rfl

/-- What is drawn at once can be drawn in two parts. -/
theorem masses_add (generator : Generator) (first second : Nat) :
    generator.masses (first + second) =
      ((generator.masses first).1 ++ ((generator.masses first).2.masses second).1,
        ((generator.masses first).2.masses second).2) := by
  induction first generalizing generator with
  | zero => rw [Nat.zero_add]; rfl
  | succ first ih => rw [Nat.add_right_comm, masses_succ, ih, masses_succ, List.cons_append]

theorem masses_length (generator : Generator) (count : Nat) : (generator.masses count).1.length = count := by
  induction count generalizing generator with
  | zero => rfl
  | succ count ih => rw [masses_succ, List.length_cons, ih]

theorem masses_take {generator : Generator} {fewer more : Nat} (order : fewer ≤ more) :
    (generator.masses fewer).1 = (generator.masses more).1.take fewer := by
  obtain ⟨rest, rfl⟩ := Nat.exists_eq_add_of_le order
  rw [masses_add, List.take_left' (generator.masses_length fewer)]

theorem mass_range (generator : Generator) : 0.0 ≤ generator.mass.1 ∧ generator.mass.1 < 100.0 :=
  massOfWords_range ..

theorem masses_range {generator : Generator} {count : Nat} {mass : Float}
    (drawn : mass ∈ (generator.masses count).1) : 0.0 ≤ mass ∧ mass < 100.0 := by
  induction count generalizing generator with
  | zero => cases drawn
  | succ count ih =>
    rw [masses_succ] at drawn
    rcases List.mem_cons.mp drawn with rfl | later
    · exact generator.mass_range
    · exact ih later

/-- The first word of a block is drawn as if the block had been there already. -/
theorem word_atBlock (key : Vector UInt32 8) (number : Nat) :
    (atBlock key number).word = (⟨key, number + 1, (WordBlock.ofKey key number).toList⟩ : Generator).word := by
  unfold word refill atBlock
  rw [WordBlock.toList_eq, List.ofFn_succ]
  rfl

/-- Eight masses use up a block and leave the generator in front of the next one. -/
theorem masses_block (key : Vector UInt32 8) (number : Nat) :
    (atBlock key number).masses 8 = (massesOfBlock (.ofKey key number), atBlock key (number + 1)) := by
  simp only [masses, mass, word_atBlock, WordBlock.toList_eq, List.ofFn_succ, word_cons]
  generalize WordBlock.ofKey key number = block
  rfl

theorem masses_blocks (key : Vector UInt32 8) (blocks : Nat) :
    (atBlock key 0).masses (blocks * 8) =
      ((List.range blocks).flatMap fun number => massesOfBlock (.ofKey key number), atBlock key blocks) := by
  induction blocks with
  | zero => rfl
  | succ blocks ih =>
    rw [Nat.succ_mul, masses_add, ih, masses_block, List.range_succ, List.flatMap_append, List.flatMap_singleton]

end Generator

/-- The masses that are computed block by block are the ones drawn one by one. -/
theorem sampleMasses_eq_masses (count : Nat) (seed : UInt64) :
    sampleMasses count seed = ((Generator.ofSeed seed).masses count).1 := by
  have enough : count ≤ (count + 7) / 8 * 8 := by omega
  rw [Generator.masses_take enough, Generator.ofSeed, Generator.masses_blocks]
  rfl

/-- A sample has as many masses as were asked for. -/
theorem sampleMasses_length (count : Nat) (seed : UInt64) : (sampleMasses count seed).length = count := by
  rw [sampleMasses_eq_masses, Generator.masses_length]

/-- The samples of a seed are beginnings of one stream, which a generator draws
mass by mass, and all its masses are numbers from 0 up to 100. -/
theorem sampleMasses_one_stream (seed : UInt64) :
    (∀ count, sampleMasses count seed = ((Generator.ofSeed seed).masses count).1) ∧
    (∀ count, (sampleMasses count seed).length = count) ∧
    (∀ fewer more, fewer ≤ more → sampleMasses fewer seed = (sampleMasses more seed).take fewer) ∧
    ∀ count, ∀ mass ∈ sampleMasses count seed, 0.0 ≤ mass ∧ mass < 100.0 := by
  refine ⟨fun count => sampleMasses_eq_masses count seed, fun count => sampleMasses_length count seed,
    fun fewer more order => ?_, fun count mass drawn => ?_⟩
  · rw [sampleMasses_eq_masses, sampleMasses_eq_masses, Generator.masses_take order]
  · rw [sampleMasses_eq_masses] at drawn
    exact Generator.masses_range drawn

end Mensura
