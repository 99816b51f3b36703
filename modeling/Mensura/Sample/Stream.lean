import Mensura.Numeral

namespace Mensura

/-- Sixteen words, which a round mixes and a block of the random stream consists of. -/
abbrev WordBlock := Vector UInt32 16

def rotateLeft (x : UInt32) (count : UInt32) : UInt32 :=
  (x <<< count) ||| (x >>> (32 - count))

namespace WordBlock

def quarterRound (a b c d : Fin 16) (s : WordBlock) : WordBlock :=
  let s := s.set a (s[a] + s[b])
  let s := s.set d (rotateLeft (s[d] ^^^ s[a]) 16)
  let s := s.set c (s[c] + s[d])
  let s := s.set b (rotateLeft (s[b] ^^^ s[c]) 12)
  let s := s.set a (s[a] + s[b])
  let s := s.set d (rotateLeft (s[d] ^^^ s[a]) 8)
  let s := s.set c (s[c] + s[d])
  s.set b (rotateLeft (s[b] ^^^ s[c]) 7)

/-- A round on the columns of the four by four square and one on its diagonals. -/
def doubleRound (s : WordBlock) : WordBlock :=
  let s := quarterRound 0 4 8 12 s
  let s := quarterRound 1 5 9 13 s
  let s := quarterRound 2 6 10 14 s
  let s := quarterRound 3 7 11 15 s
  let s := quarterRound 0 5 10 15 s
  let s := quarterRound 1 6 11 12 s
  let s := quarterRound 2 7 8 13 s
  quarterRound 3 4 9 14 s

/-- The block with a number in the stream of a key: twelve rounds on constants,
key and number, added to what they started from. The generator is `StdRng` of
`rand` 0.8, a ChaCha of twelve rounds. That `rand` computes this is an assumption
here, as it is for `keyOfSeed` and `massOfWords`. -/
def ofKey (key : Vector UInt32 8) (number : Nat) : WordBlock :=
  let start : WordBlock :=
    #v[0x61707865, 0x3320646e, 0x79622d32, 0x6b206574, key[0], key[1], key[2], key[3], key[4],
      key[5], key[6], key[7], number.toUInt32, (number / twoPow 32).toUInt32, 0, 0]
  let mixed := (List.range 6).foldl (fun s _ => doubleRound s) start
  Vector.zipWith (· + ·) start mixed

end WordBlock

/-- One step of the congruential generator that spreads a seed over a key. -/
def spreadStep (state : UInt64) : UInt64 :=
  state * 6364136223846793005 + 11634580027462260723

/-- The word that a state of that generator gives: its upper bits, rotated by the uppermost. -/
def spreadWord (state : UInt64) : UInt32 :=
  let mixed := (((state >>> 18) ^^^ state) >>> 27).toUInt32
  let turn := (state >>> 59).toUInt32
  (mixed >>> turn) ||| (mixed <<< ((32 - turn) % 32))

/-- The key of a seed: the words of the first eight states after it. It is assumed
that `seed_from_u64` of `rand` 0.8 spreads a seed like this. -/
def keyOfSeed (seed : UInt64) : Vector UInt32 8 :=
  let states := Vector.ofFn fun i : Fin 8 => Nat.repeat spreadStep (i + 1) seed
  states.map spreadWord

/-- A number from 0 up to 100 out of two random words. Their upper 52 bits are
the fraction of a number from 1 up to 2. It is assumed that `gen_range` of `rand`
0.8 draws from the range `0.0..100.0` like this. It would draw again if the number
were not below 100, which never happens. -/
def massOfWords (low high : UInt32) : Float :=
  let bits := low.toUInt64 ||| (high.toUInt64 <<< 32)
  (Float.ofBits ((bits >>> 12) ||| 0x3ff0000000000000) - 1.0) * 100.0 + 0.0

/-- The eight masses of a block of the random stream. -/
def massesOfBlock (block : WordBlock) : List Float :=
  [massOfWords block[0] block[1], massOfWords block[2] block[3], massOfWords block[4] block[5],
    massOfWords block[6] block[7], massOfWords block[8] block[9], massOfWords block[10] block[11],
    massOfWords block[12] block[13], massOfWords block[14] block[15]]

/-- The first masses of the stream that belongs to a seed. -/
def sampleMasses (count : Nat) (seed : UInt64) : List Float :=
  let key := keyOfSeed seed
  let blocks := List.range ((count + 7) / 8)
  (blocks.flatMap fun number => massesOfBlock (.ofKey key number)).take count

end Mensura
