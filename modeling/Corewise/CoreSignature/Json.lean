import Corewise.CoreSignature
import Corewise.Json.Decode
/-!
Core signatures as JSON values: the names of the dimensions as lists of strings.
-/

namespace Corewise.CoreSignature

def coreToJson (core : Core) : Json := .array (core.map Json.string)

def coreOfJson? : Json → Option Core := Json.list? Json.string?

def fieldNames : List String := ["inputs", "output"]

def toJson (s : CoreSignature) : Json :=
  .object [("inputs", .array (s.inputs.map coreToJson)), ("output", coreToJson s.output)]

def ofJson? (v : Json) : Option CoreSignature := do
  match ← v.record? fieldNames with
  | [inputs, output] =>
    let inputs ← Json.required? (Json.list? coreOfJson?) inputs
    let output ← Json.required? coreOfJson? output
    return ⟨inputs, output⟩
  | _ => none

end Corewise.CoreSignature
