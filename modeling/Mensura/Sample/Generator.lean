import Mensura.Sample.Stream

namespace Mensura

/-- A random generator between two draws: its key, the number of the block that
comes next and the words that are left of the last block. -/
structure Generator where
  key : Vector UInt32 8
  next : Nat
  words : List UInt32

namespace Generator

/-- In front of a block that no word is drawn from yet. -/
def atBlock (key : Vector UInt32 8) (number : Nat) : Generator :=
  ⟨key, number, []⟩

def ofSeed (seed : UInt64) : Generator :=
  atBlock (keyOfSeed seed) 0

/-- A generator whose last block is used up takes the next one. -/
def refill (generator : Generator) : Generator :=
  if generator.words.isEmpty then
    ⟨generator.key, generator.next + 1, (WordBlock.ofKey generator.key generator.next).toList⟩
  else generator

def word (generator : Generator) : UInt32 × Generator :=
  let filled := generator.refill
  (filled.words.headD 0, { filled with words := filled.words.tail })

/-- The next mass, out of two words with the lower one first. -/
def mass (generator : Generator) : Float × Generator :=
  let (low, generator) := generator.word
  let (high, generator) := generator.word
  (massOfWords low high, generator)

/-- The next masses, each drawn from what the one before has left. -/
def masses (generator : Generator) : Nat → List Float × Generator
  | 0 => ([], generator)
  | count + 1 =>
    let (mass, generator) := generator.mass
    let (masses, generator) := generator.masses count
    (mass :: masses, generator)

end Generator

end Mensura
