import Corewise.Casting
/-!
Planning a loop. The axes of every operand split into leading outer axes, which are looped over,
and trailing core axes, which the core signature names. `Loop.plan` binds the names to sizes and
broadcasts the outer shapes; inputs stretch to the output, never the output to them.
-/

namespace Corewise.Loop

/-- Sizes of core dimensions, in the order in which they were found. -/
abbrev CoreSizes := List (String × Nat)

structure Plan where
  outer : List Nat
  /-- Outer shapes of all operands, the output last. -/
  operandOuter : List (List Nat)
  coreSizes : CoreSizes
  deriving DecidableEq, Repr

/-- Number of kernel invocations, in a machine word. -/
def Plan.iterations (p : Plan) : Nat := Shape.count p.outer

/-- Broadcasts shapes together. -/
def broadcast (shapes : List (List Nat)) : Except Error (List Nat) :=
  match Shape.broadcast? shapes with
  | some shape => .ok shape
  | none => .error (.shapeConflict (.notBroadcastable shapes))

/-- Outer and core part of the shape of the operand at `position`. -/
def splitCore (position : Nat) (shape : List Nat) (core : Core) :
    Except Error (List Nat × List Nat) :=
  if shape.length < core.length then
    .error (.shapeConflict (.rankBelowCore position shape.length core))
  else .ok (shape.splitAt (shape.length - core.length))

/-- Binds one name, which must not have another size already. -/
def bindName (position : Nat) (sizes : CoreSizes) (dim : String × Nat) : Except Error CoreSizes :=
  match sizes.lookup dim.1 with
  | none => .ok (sizes ++ [dim])
  | some expected =>
    if expected = dim.2 then .ok sizes
    else .error (.shapeConflict (.coreSize dim.1 position dim.2 expected))

def bindCore (position : Nat) (core : Core) (shape : List Nat) (sizes : CoreSizes) :
    Except Error CoreSizes :=
  (core.zip shape).foldlM (bindName position) sizes

/-- Binds the core of one more operand and notes its outer shape. -/
def bindOperand (found : CoreSizes × List (List Nat)) (operand : (List Nat × Core) × Nat) :
    Except Error (CoreSizes × List (List Nat)) := do
  let ((shape, core), position) := operand
  let (outer, coreShape) ← splitCore position shape core
  let sizes ← bindCore position core coreShape found.1
  return (sizes, found.2 ++ [outer])

/-- Core sizes and outer shapes of inputs with the given shapes. -/
def bindInputs (signature : CoreSignature) (shapes : List (List Nat)) :
    Except Error (CoreSizes × List (List Nat)) :=
  (shapes.zip signature.inputs).zipIdx.foldlM bindOperand ([], [])

/-- Shape of the output that inputs of the given shapes imply. -/
def outputShape (function : String) (signature : CoreSignature) (shapes : List (List Nat)) :
    Except Error (List Nat) := do
  let (sizes, outers) ← bindInputs signature shapes
  let outer ← broadcast outers
  let core ← signature.output.mapM fun name =>
    match sizes.lookup name with
    | some size => .ok size
    | none => .error (.missingOutput function name)
  return outer ++ core

/-- The loop over all operands, the output last. -/
def plan (signature : CoreSignature) (operands : List Contents) : Except Error Plan := do
  let inputs := signature.arity
  if operands.length ≠ inputs + 1 then
    throw (.shapeConflict (.operandCount (inputs + 1) operands.length))
  let bound ← bindInputs signature ((operands.take inputs).map Contents.shape)
  match operands[inputs]? with
  | some (.array output) =>
    let (sizes, outers) ← bindOperand bound ((output.shape, signature.output), inputs)
    let joined ← broadcast outers
    let outer := output.shape.take (output.shape.length - signature.outputRank)
    if outer = joined then return ⟨joined, outers, sizes⟩
    else throw (.shapeConflict (.outputShape outer joined))
  | _ => throw (.shapeConflict .outputNotArray)

/-- Type of one element of an operand: a scalar without core axes, an array otherwise, and for the
output always an array. -/
def elementType (inputs : Nat) (operand : (DType × Nat) × Nat) : OperandType :=
  let ((dtype, rank), position) := operand
  if position = inputs then .anyArray dtype (max rank 1)
  else if rank = 0 then .scalar dtype
  else .anyArray dtype rank

/-- Types of the elements that the loop hands to the kernel. -/
def elementSignature (signature : CoreSignature) (dtypes : List DType) : CallSignature :=
  .void ((dtypes.zip signature.ranks).zipIdx.map (elementType signature.arity))

end Corewise.Loop
