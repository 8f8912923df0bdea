import Corewise.Memory
/-!
Call shapes and the contexts that functions are called through: typing rules by function, and
implementations by function and call shape.
-/

namespace Corewise.Lowering

/-- One argument of a call. -/
inductive ArgPattern where
  | any | array
  deriving DecidableEq, Repr

namespace ArgPattern

def name : ArgPattern → String
  | any => "any"
  | array => "array"

def ofName? (s : String) : Option ArgPattern := [any, array].find? fun p => p.name == s

def accepts : ArgPattern → Contents → Bool
  | any, _ => true
  | array, c => c.isArray

end ArgPattern

/-- Patterns of all arguments. -/
abbrev CallShape := List ArgPattern

namespace CallShape

def accepts : CallShape → List Contents → Bool
  | [], [] => true
  | p :: ps, c :: cs => p.accepts c && accepts ps cs
  | _, _ => false

def display (s : CallShape) : String := "(" ++ String.intercalate ", " (s.map (·.name)) ++ ")"

/-- The shape of calls that pass the output, and of those that leave it out. -/
def forms (arity : Nat) : List CallShape :=
  [List.replicate arity .any ++ [.array], List.replicate arity .any]

end CallShape

end Corewise.Lowering
