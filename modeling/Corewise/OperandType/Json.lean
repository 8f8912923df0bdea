import Corewise.Json.Decode
import Corewise.OperandType.Content
/-!
Operand types and call signatures as JSON values. A type is an object with its `kind`, or an array
that starts with it.
-/

namespace Corewise

namespace OperandType

def toJson : OperandType → Json
  | .none => .object [("kind", .string "none")]
  | .any => .object [("kind", .string "any")]
  | .object => .object [("kind", .string "object")]
  | .scalar dtype => .object [("kind", .string "scalar"), ("dtype", .string dtype.name)]
  | .array dtype rank layout =>
    .object [("kind", .string "array"), ("dtype", .string dtype.name), ("ndim", .natural rank),
      ("layout", .string layout.name)]

/-- Reads a type. All that is beside its kind has to be well formed, also where it is ignored. -/
def ofJson? : Json → Option OperandType
  | .object fields => do
    let kind ← (← Json.required? Json.string? (← Json.field? fields "kind")) |> Kind.ofName?
    let entries ← Json.fieldsContent? (fields.filter fun f => f.1 != "kind")
    (ofContent kind (.table entries)).toOption
  | .array (.string kind :: items) => do
    let kind ← Kind.ofName? kind
    let items ← Json.itemsContent? items
    (ofContent kind (.list items)).toOption
  | _ => Option.none

end OperandType

namespace CallSignature

def fieldNames : List String := ["args", "return_type"]

def toJson (s : CallSignature) : Json :=
  .object [("args", .array (s.args.map OperandType.toJson)), ("return_type", s.returnType.toJson)]

def ofJson? (v : Json) : Option CallSignature := do
  match ← v.record? fieldNames with
  | [args, returnType] =>
    let args ← Json.required? (Json.list? OperandType.ofJson?) args
    let returnType ← Json.required? OperandType.ofJson? returnType
    return ⟨args, returnType⟩
  | _ => none

end CallSignature

end Corewise
