import Mensura.Dimension

namespace Mensura

namespace Word

/-- A number as a signed word of 32 bits, if it is one. -/
def ofInt? (e : Int) : Option Int32 :=
  if Int32.minValue.toInt ≤ e ∧ e ≤ Int32.maxValue.toInt then some (.ofInt e) else none

/-- The sum of two words, if it is a word. -/
def add? (x y : Int32) : Option Int32 :=
  ofInt? (x.toInt + y.toInt)

/-- The difference of two words, if it is a word. -/
def sub? (x y : Int32) : Option Int32 :=
  ofInt? (x.toInt - y.toInt)

/-- The product of two words, if it is a word. -/
def mul? (x y : Int32) : Option Int32 :=
  ofInt? (x.toInt * y.toInt)

/-- A word as a signed byte, if it is one. -/
def toByte? (x : Int32) : Option Int8 :=
  if Int8.minValue.toInt ≤ x.toInt ∧ x.toInt ≤ Int8.maxValue.toInt then some (.ofInt x.toInt) else none

end Word

namespace Dimension

/-- The stored exponent of a base unit. -/
def lane (d : Dimension) : Base → Int8
  | .mass => d.kg
  | .length => d.m
  | .time => d.s
  | .current => d.A
  | .temperature => d.K
  | .amount => d.mol
  | .luminosity => d.cd

def setLane (d : Dimension) (base : Base) (e : Int8) : Dimension :=
  match base with
  | .mass => { d with kg := e }
  | .length => { d with m := e }
  | .time => { d with s := e }
  | .current => { d with A := e }
  | .temperature => { d with K := e }
  | .amount => { d with mol := e }
  | .luminosity => { d with cd := e }

/-- Forms one exponent as a word and stores it as a byte. It may be no word,
and then the largest word is reported for it, or a word that is no byte. -/
def storeLane (form : Base → Int8 → Option Int32) (d out : Dimension) (base : Base) :
    Except ExponentOverflow Dimension :=
  let word := form base (d.lane base)
  match word.bind Word.toByte? with
  | some e => .ok (out.setLane base e)
  | none => .error ⟨base, (word.getD Int32.maxValue).toInt⟩

/-- Forms the exponents one after the other in the order of the bases, up to
the first that cannot be stored. -/
def mapLanes (form : Base → Int8 → Option Int32) (d : Dimension) :
    Except ExponentOverflow Dimension :=
  Base.all.foldlM (storeLane form d) dimensionless

/-- The product of dimensions, one exponent after the other in words. -/
def wordMul (d e : Dimension) : Except ExponentOverflow Dimension :=
  d.mapLanes fun base x => Word.add? x.toInt32 (e.lane base).toInt32

/-- The quotient of dimensions, one exponent after the other in words. -/
def wordDiv (d e : Dimension) : Except ExponentOverflow Dimension :=
  d.mapLanes fun base x => Word.sub? x.toInt32 (e.lane base).toInt32

/-- The power of a dimension, one exponent after the other in words. -/
def wordPow (d : Dimension) (n : Int32) : Except ExponentOverflow Dimension :=
  d.mapLanes fun _ x => Word.mul? x.toInt32 n

end Dimension

end Mensura
