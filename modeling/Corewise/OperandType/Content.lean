import Corewise.Content
import Corewise.OperandType
/-!
Operand types as content of documents: the kind of a type says what else belongs to it.
-/

namespace Corewise

namespace Layout

def all : List Layout := [c, f, any]

end Layout

namespace OperandType

inductive Kind where
  | none | any | object | scalar | array
  deriving DecidableEq, Repr

namespace Kind

def all : List Kind := [none, any, object, scalar, array]

def name : Kind → String
  | none => "none"
  | any => "any"
  | object => "object"
  | scalar => "scalar"
  | array => "array"

def ofName? (s : String) : Option Kind := all.find? fun k => k.name == s

def names : List String := all.map name

end Kind

def kind : OperandType → Kind
  | .none => .none
  | .any => .any
  | .object => .object
  | .scalar _ => .scalar
  | .array .. => .array

/-- The element type that some content names. -/
def dtypeOf (c : Content) : Except Mismatch DType := do
  let name ← c.variant (DType.all.map DType.name)
  return (DType.ofName? name).getD .bool

def layoutOf (c : Content) : Except Mismatch Layout := do
  let name ← c.variant (Layout.all.map Layout.name)
  return (Layout.ofName? name).getD .any

def scalarFields : List (Content.Field DType) :=
  [⟨"dtype", fun _ c => dtypeOf c⟩]

def arrayFields : List (Content.Field (DType × Nat × Layout)) :=
  [⟨"dtype", fun s c => do return (← dtypeOf c, s.2.1, s.2.2)⟩,
    ⟨"ndim", fun s c => do return (s.1, ← c.word, s.2.2)⟩,
    ⟨"layout", fun s c => do return (s.1, s.2.1, ← layoutOf c)⟩]

/-- A kind without fields ignores those of a table, and a list of them is empty. -/
def checkFieldless : Content → Except Mismatch Unit
  | .list (c :: cs) =>
    .error (.length (c :: cs).length (Content.elementCount 0 ++ " in sequence"))
  | _ => .ok ()

/-- The type of a kind, from the content beside its kind. -/
def ofContent (kind : Kind) (c : Content) : Except Mismatch OperandType :=
  match kind with
  | .none => do checkFieldless c; return .none
  | .any => do checkFieldless c; return .any
  | .object => do checkFieldless c; return .object
  | .scalar => do
    return .scalar (← c.record "struct variant Type::Scalar" scalarFields .bool)
  | .array => do
    let (dtype, rank, layout) ← c.record "struct ArrayType" arrayFields (.bool, 0, .any)
    return .array dtype rank layout

end OperandType

end Corewise
