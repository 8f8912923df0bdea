import Corewise.Decimal.Numeral
import Corewise.Content
import Corewise.Json
/-!
Readers of JSON values. A record is an object, or the array of its values in the order of its
fields.
-/

namespace Corewise.Json

def string? : Json → Option String
  | .string s => some s
  | _ => none

def bool? : Json → Option Bool
  | .bool b => some b
  | _ => none

/-- A natural number below `wordLimit`. -/
def word? : Json → Option Nat
  | .natural n => if n < wordLimit then some n else none
  | _ => none

def array? : Json → Option (List Json)
  | .array vs => some vs
  | _ => none

def isNull : Json → Bool
  | .null => true
  | _ => false

def list? {α : Type} (read : Json → Option α) (v : Json) : Option (List α) :=
  v.array?.bind fun vs => vs.mapM read

/-- The value of the field `name`: absent fields are found to be so, and a field that occurs twice
is an error. -/
def field? (fields : List (String × Json)) (name : String) : Option (Option Json) :=
  match fields.filter fun f => f.1 == name with
  | [] => some none
  | [f] => some (some f.2)
  | _ => none

/-- Values of the named fields of a record. Other fields are ignored, and an array of values in
order may stop early: the fields that are left are absent. -/
def record? (names : List String) : Json → Option (List (Option Json))
  | .object fields => names.mapM (field? fields)
  | .array items =>
    if items.length ≤ names.length then
      some (items.map some ++ List.replicate (names.length - items.length) none)
    else none
  | _ => none

/-- A variant without fields is its name, or an object with its name and null. -/
def variant? : Json → Option String
  | .string s => some s
  | .object [(name, .null)] => some name
  | _ => none

/-- A field that a record must have. -/
def required? {α : Type} (read : Json → Option α) (field : Option Json) : Option α := field.bind read

/-- A field that may be absent. -/
def optional? {α : Type} (absent : α) (read : Json → Option α) : Option Json → Option α
  | none => some absent
  | some v => read v

/-- A number as content. -/
def numberContent (literal : String) : Content :=
  let cs := literal.toList.dropWhile (· == '-')
  .fraction ((Decimal.ofNumeral? cs).elim .nan
    (Decimal.nearest .double (literal.toList.head? == some '-')))

mutual

/-- The content of a value that is well formed in all its parts. -/
def content? : Json → Option Content
  | null => some .void
  | bool b => some (.flag b)
  | natural n =>
    some (if n < wordLimit then .natural n else .fraction (Decimal.nearest .double false ⟨n, 0⟩))
  | number literal => some (numberContent literal)
  | string s => some (.text s)
  | array items => (itemsContent? items).map .list
  | object fields => (fieldsContent? fields).map .table
  | malformed => none

def itemsContent? : List Json → Option (List Content)
  | [] => some []
  | v :: vs => do return (← content? v) :: (← itemsContent? vs)

def fieldsContent? : List (String × Json) → Option (List (Content × Content))
  | [] => some []
  | (k, v) :: fs => do
    let c ← content? v
    return (.text k, c) :: (← fieldsContent? fs)

end

end Corewise.Json
