import Mensura.Weight.Kernel

namespace Mensura

/-- A way to compute weights that can be chosen by name. -/
structure WeightKernel where
  name : String
  aliases : List String
  description : String
  /-- Computes the forces on the masses of the first buffer under the
  acceleration in the second, and writes them to the third. -/
  run : Buffer → Buffer → Buffer → Outcome

namespace WeightKernel

def answersTo (kernel : WeightKernel) (name : String) : Bool :=
  kernel.name == name || kernel.aliases.contains name

def pipeline : WeightKernel where
  name := "pipeline"
  aliases := ["rac"]
  description := "lazy transform of the mass sequence copied into an output cursor"
  run := Weight.pipeline

def lockstep : WeightKernel where
  name := "iter"
  aliases := ["iterator"]
  description := "explicit reader and cursor advanced in lockstep"
  run := Weight.lockstep

def indexed : WeightKernel where
  name := "index"
  aliases := ["indexed"]
  description := "integer-indexed get/set loop"
  run := Weight.indexed

/-- The kernels that there are. Nothing depends on their order. -/
def registered : List WeightKernel :=
  [pipeline, lockstep, indexed]

/-- The name of the kernel that is used if none is asked for. -/
def defaultName : String := "pipeline"

/-- Kernels sorted by their names. -/
def sorted (kernels : List WeightKernel) : List WeightKernel :=
  kernels.mergeSort fun a b => a.name ≤ b.name

/-- The registered kernels by name. -/
def all : List WeightKernel :=
  sorted registered

/-- The first kernel of a list with a name or an alias. -/
def findIn (kernels : List WeightKernel) (name : String) : Except KernelError WeightKernel :=
  match kernels.find? fun kernel => kernel.answersTo name with
  | some kernel => .ok kernel
  | none => .error (.unknownKernel name)

def find (name : String) : Except KernelError WeightKernel :=
  findIn registered name

end WeightKernel

namespace Weight

/-- Weights by the kernel of a list that has a name or an alias. The name is
looked up before anything else is checked. -/
def computeWith (kernels : List WeightKernel) (m g f : Buffer) (method : String) : Outcome :=
  match WeightKernel.findIn kernels method with
  | .ok kernel => kernel.run m g f
  | .error error => ⟨.error error, f⟩

/-- Weights by a registered kernel. -/
def compute (m g f : Buffer) (method : String) : Outcome :=
  computeWith WeightKernel.registered m g f method

end Weight

end Mensura
