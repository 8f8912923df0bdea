import Corewise.Casting
/-!
Choosing a loop by element types, and the call signature that a choice of element types stands
for. A list of element types names the inputs first and then the output, if it is known.
-/

namespace Corewise

/-- Element types that a loop works on. -/
structure LoopTypes where
  inputs : List DType
  outputs : List DType
  deriving DecidableEq, Repr

namespace LoopTypes

def all (l : LoopTypes) : List DType := l.inputs ++ l.outputs

/-- The loop has these inputs, and its outputs start with these. -/
def isExact (l : LoopTypes) (inputs outputs : List DType) : Bool :=
  l.inputs == inputs && outputs.isPrefixOf l.outputs

/-- The inputs cast safely to those of the loop, and what the loop puts out can be stored in the
outputs. -/
def accepts (l : LoopTypes) (inputs outputs : List DType) : Bool :=
  l.inputs.length == inputs.length &&
    (inputs.zip l.inputs).all (fun p => p.1.castsSafely p.2) &&
    outputs.length ≤ l.outputs.length &&
    (outputs.zip l.outputs).all fun p => p.2.castsWithinKind p.1

end LoopTypes

namespace Dispatch

/-- The first loop with exactly the types asked for, or else the first that accepts them. -/
def select {α : Type} (types : α → LoopTypes) (loops : List α) (arity : Nat)
    (query : List DType) : Option α :=
  if query.length < arity then none
  else
    let inputs := query.take arity
    let outputs := query.drop arity
    match loops.find? fun l => (types l).isExact inputs outputs with
    | some l => some l
    | none => loops.find? fun l => (types l).accepts inputs outputs

/-- Element types at a typed call site: those of the inputs, and of the output if it is passed. -/
def siteTypes (arity : Nat) (types : List OperandType) : Except Error (List DType) :=
  if types.length = arity ∨ types.length = arity + 1 then elementTypes types
  else .error (.typing (.argumentCount arity types.length))

/-- Loop in type codes, as in `dd->d`. -/
def loopCode (arity : Nat) (types : List DType) : String :=
  String.ofList ((types.take arity).map DType.code ++ ['-', '>'] ++
    (types.drop arity).map DType.code)

/-- Type of an input with the given core: a scalar without core axes. -/
def inputType (core : Core) (dtype : DType) : OperandType :=
  if core = [] then .scalar dtype else .anyArray dtype core.length

/-- Call signature for element types. Where the type of the output is not given, it is that of the
last input. -/
def synthesize (signature : CoreSignature) (query : List DType) : CallSignature :=
  let inputs := List.zipWith inputType signature.inputs query
  let output := query[signature.arity]? <|> query.getLast?
  .void (inputs ++ (output.map fun dtype => .anyArray dtype signature.carrierRank).toList)

end Dispatch

end Corewise
