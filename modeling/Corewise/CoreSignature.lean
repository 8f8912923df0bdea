/-!
Core signatures such as `(n,m),(m)->(n)`: for each operand the names of the trailing dimensions
that a kernel works on. All dimensions in front of them are looped over.
-/

namespace Corewise

/-- Core dimension names of one operand, in order. An operand with none is a scalar. -/
abbrev Core := List String

/-- The cores of the inputs and of the one output. -/
structure CoreSignature where
  inputs : List Core
  output : Core
  deriving DecidableEq, Repr

namespace CoreSignature

/-- Number of inputs. -/
def arity (s : CoreSignature) : Nat := s.inputs.length

/-- The cores of all operands, the output last. -/
def cores (s : CoreSignature) : List Core := s.inputs ++ [s.output]

def inputRanks (s : CoreSignature) : List Nat := s.inputs.map List.length

def outputRank (s : CoreSignature) : Nat := s.output.length

/-- Core ranks of all operands, the output last. -/
def ranks (s : CoreSignature) : List Nat := s.cores.map List.length

/-- Rank of the array through which the kernel writes its output: an output without core
dimensions is carried by an array of length one. -/
def carrierRank (s : CoreSignature) : Nat := max s.outputRank 1

/-- The core of operand `i`, counting the output last. -/
def operand? (s : CoreSignature) (i : Nat) : Option Core := s.cores[i]?

/-- Output dimensions whose size no input determines. -/
def unboundOutputs (s : CoreSignature) : List String :=
  s.output.filter fun name => !s.inputs.any fun core => core.contains name

def renderCore (core : Core) : String := "(" ++ String.intercalate "," core ++ ")"

/-- The canonical text, without blanks. -/
def render (s : CoreSignature) : String :=
  String.intercalate "," (s.inputs.map renderCore) ++ "->" ++ renderCore s.output

theorem length_cores (s : CoreSignature) : s.cores.length = s.arity + 1 := by
  simp [cores, arity]

end CoreSignature

end Corewise
