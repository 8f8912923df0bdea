import Corewise.OperandType.Json
import Corewise.Snapshot
/-!
Snapshots as JSON values. The fields for the kernel, for the signature and for the dispatch are
required, and each of the others may be left out where it has its default.
-/

namespace Corewise

namespace Options

def fieldNames : List String := ["nopython", "forceobj", "boundscheck", "parallel"]

def toJson (o : Options) : Json :=
  .object [("nopython", .bool o.nativeOnly), ("forceobj", .bool o.forceObject),
    ("boundscheck", .bool o.boundsCheck), ("parallel", .bool o.parallel)]

def ofJson? (v : Json) : Option Options := do
  match ← v.record? fieldNames with
  | [nativeOnly, forceObject, boundsCheck, parallel] =>
    let nativeOnly ← Json.optional? default.nativeOnly Json.bool? nativeOnly
    let forceObject ← Json.optional? default.forceObject Json.bool? forceObject
    let boundsCheck ← Json.optional? default.boundsCheck Json.bool? boundsCheck
    let parallel ← Json.optional? default.parallel Json.bool? parallel
    return { nativeOnly, forceObject, boundsCheck, parallel }
  | _ => none

end Options

def Identity.ofJson? (v : Json) : Option Identity := v.variant?.bind Identity.ofName?

namespace Snapshot

def fieldNames : List String :=
  ["kernel", "signature", "identity", "cache", "is_dynamic", "target_options", "writable_args",
    "typesigs", "frozen"]

def toJson (s : Snapshot) : Json :=
  .object [("kernel", .string s.kernel), ("signature", .string s.signature),
    ("identity", .string s.identity.name), ("cache", .bool s.cache),
    ("is_dynamic", .bool s.isDynamic), ("target_options", s.options.toJson),
    ("writable_args", .array (s.writableArgs.map Json.natural)),
    ("typesigs", .array (s.specializations.map CallSignature.toJson)), ("frozen", .bool s.frozen)]

def ofJson? (v : Json) : Option Snapshot := do
  match ← v.record? fieldNames with
  | [kernel, signature, identity, cache, isDynamic, options, writable, specializations, frozen] =>
    let kernel ← Json.required? Json.string? kernel
    let signature ← Json.required? Json.string? signature
    let identity ← Json.optional? .none Identity.ofJson? identity
    let cache ← Json.optional? false Json.bool? cache
    let isDynamic ← Json.required? Json.bool? isDynamic
    let options ← Json.optional? Options.default Options.ofJson? options
    let writableArgs ← Json.optional? [] (Json.list? Json.word?) writable
    let specializations ← Json.optional? [] (Json.list? CallSignature.ofJson?) specializations
    let frozen ← Json.optional? false Json.bool? frozen
    return { kernel, signature, identity, cache, isDynamic, options, writableArgs, specializations,
             frozen }
  | _ => none

end Snapshot

end Corewise
