import Corewise.Memory
/-!
Casting operands to declared types, and the element types of operands.
-/

namespace Corewise

/-- Element type of every operand; the first operand without one is an error. -/
def elementTypes (types : List OperandType) : Except Error (List DType) :=
  types.zipIdx.mapM fun p =>
    match p.1.element? with
    | some dtype => .ok dtype
    | none => .error (.unsupportedOperand p.2 p.1)

namespace Memory

/-- Element type of an operand. -/
def dtype (m : Memory) (v : Value) : DType := (m.contents v).dtype

def dtypes (m : Memory) (values : List Value) : List DType := values.map m.dtype

end Memory

namespace Action

/-- Converts an operand declared as `source` to `target`. An array that has the type already is
passed on as it is, so writes to the result reach it; otherwise the result is a converted copy. -/
def castTo (v : Value) (source target : OperandType) : Action Value := do
  match v, target with
  | v, .any => return v
  | v, .object => return v
  | .scalar s, .scalar dtype => return .scalar (s.cast dtype)
  | .array r, .array dtype rank _ =>
    let b := (← get).buffer r
    if b.rank ≠ rank then throw (.cast source target)
    else if b.dtype = dtype then return .array r
    else newArray (b.cast dtype)
  | .array r, .scalar dtype =>
    match ((← get).buffer r).get? [] with
    | some s => return .scalar (s.cast dtype)
    | none => throw (.cast source target)
  | _, _ => throw (.cast source target)

end Action

end Corewise
