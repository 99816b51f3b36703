import Mensura.Dimension

namespace Mensura

/-- A unit symbol. The kilogram, the minute and the hour take no multiple. -/
structure UnitSymbol where
  name : String
  scale : Float
  dimension : Dimension
  takesMultiple : Bool := true

/-- A decimal multiple that is written in front of a symbol. -/
structure Multiple where
  name : String
  factor : Float

def UnitSymbol.table : List UnitSymbol :=
  [{ name := "m", scale := 1.0, dimension := { m := 1 } },
    { name := "g", scale := 1e-3, dimension := { kg := 1 } },
    { name := "kg", scale := 1.0, dimension := { kg := 1 }, takesMultiple := false },
    { name := "s", scale := 1.0, dimension := { s := 1 } },
    { name := "A", scale := 1.0, dimension := { A := 1 } },
    { name := "K", scale := 1.0, dimension := { K := 1 } },
    { name := "mol", scale := 1.0, dimension := { mol := 1 } },
    { name := "cd", scale := 1.0, dimension := { cd := 1 } },
    { name := "rad", scale := 1.0, dimension := {} },
    { name := "sr", scale := 1.0, dimension := {} },
    { name := "Hz", scale := 1.0, dimension := { s := -1 } },
    { name := "N", scale := 1.0, dimension := { kg := 1, m := 1, s := -2 } },
    { name := "Pa", scale := 1.0, dimension := { kg := 1, m := -1, s := -2 } },
    { name := "J", scale := 1.0, dimension := { kg := 1, m := 2, s := -2 } },
    { name := "W", scale := 1.0, dimension := { kg := 1, m := 2, s := -3 } },
    { name := "C", scale := 1.0, dimension := { s := 1, A := 1 } },
    { name := "V", scale := 1.0, dimension := { kg := 1, m := 2, s := -3, A := -1 } },
    { name := "min", scale := 60.0, dimension := { s := 1 }, takesMultiple := false },
    { name := "h", scale := 3600.0, dimension := { s := 1 }, takesMultiple := false }]

/-- Micro is written with the micro sign, with the Greek letter or with `u`. -/
def Multiple.table : List Multiple :=
  [⟨"Y", 1e24⟩, ⟨"Z", 1e21⟩, ⟨"E", 1e18⟩, ⟨"P", 1e15⟩, ⟨"T", 1e12⟩, ⟨"G", 1e9⟩, ⟨"M", 1e6⟩,
    ⟨"k", 1e3⟩, ⟨"h", 1e2⟩, ⟨"da", 1e1⟩, ⟨"d", 1e-1⟩, ⟨"c", 1e-2⟩, ⟨"m", 1e-3⟩, ⟨"\u00b5", 1e-6⟩,
    ⟨"\u03bc", 1e-6⟩, ⟨"u", 1e-6⟩, ⟨"n", 1e-9⟩, ⟨"p", 1e-12⟩, ⟨"f", 1e-15⟩, ⟨"a", 1e-18⟩,
    ⟨"z", 1e-21⟩, ⟨"y", 1e-24⟩]

/-- The scale and dimension of a token that is the multiple followed by one of the symbols. -/
def Multiple.resolve? (multiple : Multiple) (symbols : List UnitSymbol) (token : List Char) :
    Option (Float × Dimension) := do
  let rest ← multiple.name.toList.isPrefixOf? token
  let symbol ← symbols.find? fun symbol => symbol.takesMultiple && symbol.name.toList == rest
  return (multiple.factor * symbol.scale, symbol.dimension)

/-- A token is looked up as a whole symbol first, then as a multiple and a symbol. -/
def resolveIn (multiples : List Multiple) (symbols : List UnitSymbol) (token : List Char) :
    Option (Float × Dimension) :=
  match symbols.find? fun symbol => symbol.name.toList == token with
  | some symbol => some (symbol.scale, symbol.dimension)
  | none => multiples.findSome? fun multiple => multiple.resolve? symbols token

def resolveSymbol (token : List Char) : Option (Float × Dimension) :=
  resolveIn Multiple.table UnitSymbol.table token

end Mensura
