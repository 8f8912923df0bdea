import Corewise.OperandType.Content
import Corewise.Snapshot
import Corewise.Yaml.Reader
/-!
Readers of snapshots in YAML documents. A field that is left out has its default.
-/

namespace Corewise

open Yaml (Reader)

/-- The type is known from its kind and from what else belongs to that. -/
def OperandType.yamlReader : Reader OperandType := fun levels path es => do
  let kind := Reader.variant "variant identifier" Kind.names
  let ((name, content), rest) ←
    Reader.tagged "kind" "internally tagged enum Type" kind levels path es
  match ofContent ((Kind.ofName? name).getD .none) content with
  | .ok type => return (type, rest)
  | .error cause => throw (.mismatch cause Option.none)

def CallSignature.yamlReader : Reader CallSignature :=
  .record "struct CallSignature"
    [.required "args" (.list OperandType.yamlReader) fun ts s => { s with args := ts },
      .required "return_type" OperandType.yamlReader fun t s => { s with returnType := t }]
    ⟨[], .none⟩

def Options.yamlReader : Reader Options :=
  .record "struct TargetOptions"
    [.optional "nopython" .flag fun b s => { s with nativeOnly := b },
      .optional "forceobj" .flag fun b s => { s with forceObject := b },
      .optional "boundscheck" .flag fun b s => { s with boundsCheck := b },
      .optional "parallel" .flag fun b s => { s with parallel := b }]
    .default

def Identity.yamlReader : Reader Identity := fun levels path es => do
  let (name, rest) ←
    Reader.variant "a YAML tag starting with '!'" (Identity.all.map Identity.name) levels path es
  return ((Identity.ofName? name).getD .none, rest)

namespace Snapshot

/-- What is known of a snapshot without any of its fields. -/
def blank : Snapshot := ⟨"", "", .none, false, false, .default, [], [], false⟩

def yamlReader : Reader Snapshot :=
  .record "struct GufuncState"
    [.required "kernel" .text fun t s => { s with kernel := t },
      .required "signature" .text fun t s => { s with signature := t },
      .optional "identity" Identity.yamlReader fun i s => { s with identity := i },
      .optional "cache" .flag fun b s => { s with cache := b },
      .required "is_dynamic" .flag fun b s => { s with isDynamic := b },
      .optional "target_options" Options.yamlReader fun o s => { s with options := o },
      .optional "writable_args" (.list .word) fun ns s => { s with writableArgs := ns },
      .optional "typesigs" (.list CallSignature.yamlReader) fun cs s =>
        { s with specializations := cs },
      .optional "frozen" .flag fun b s => { s with frozen := b }]
    blank

end Snapshot

end Corewise
