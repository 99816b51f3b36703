import Mensura.Dimension

namespace Mensura

namespace Dimension

def mass : Dimension := { kg := 1 }
def length : Dimension := { m := 1 }
def time : Dimension := { s := 1 }
def current : Dimension := { A := 1 }
def temperature : Dimension := { K := 1 }
def amount : Dimension := { mol := 1 }
def luminosity : Dimension := { cd := 1 }
def frequency : Dimension := { s := -1 }
def velocity : Dimension := { m := 1, s := -1 }
def acceleration : Dimension := { m := 1, s := -2 }
def force : Dimension := { kg := 1, m := 1, s := -2 }
def pressure : Dimension := { kg := 1, m := -1, s := -2 }
def energy : Dimension := { kg := 1, m := 2, s := -2 }
def power : Dimension := { kg := 1, m := 2, s := -3 }

/-- The kinds of quantity that have a name, base quantities first. -/
def named : List (String × Dimension) :=
  [("Dimensionless", dimensionless), ("Mass", mass), ("Length", length), ("Time", time),
    ("Current", current), ("Temperature", temperature), ("Amount", amount),
    ("Luminosity", luminosity), ("Frequency", frequency), ("Velocity", velocity),
    ("Acceleration", acceleration), ("Force", force), ("Pressure", pressure),
    ("Energy", energy), ("Power", power)]

/-- Newton's second law on signatures: a mass times an acceleration is a force. -/
theorem mass_tryMul_acceleration : mass.tryMul acceleration = .ok force :=
  rfl

end Dimension

end Mensura
