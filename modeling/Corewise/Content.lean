import Corewise.Mismatch
/-!
Content of documents whose form depends on what a part of it says, and readers of it. A name among
some known ones is written as a text or as its number among them.
-/

namespace Corewise

/-- Content of a document in any format. Entries of a table keep their order. -/
inductive Content where
  | void
  | flag (value : Bool)
  /-- A natural number below `wordLimit`. -/
  | natural (value : Nat)
  /-- An integer with a minus, by what follows that. -/
  | negative (magnitude : Nat)
  /-- Any other number. -/
  | fraction (value : Binary)
  | text (value : String)
  | list (items : List Content)
  | table (entries : List (Content × Content))
  deriving Inhabited

namespace Content

def found : Content → Found
  | void => .void
  | flag b => .flag b
  | natural n => .integer n
  | negative n => .integer (-n)
  | fraction x => .fraction x
  | text s => .text s
  | list _ => .list
  | table _ => .table

/-- A field among those with the `names`; other fields are ignored. -/
def fieldName (names : List String) : Content → Except Mismatch (Option String)
  | text s => .ok (names.find? (· == s))
  | natural n => .ok names[n]?
  | c => .error (.kind c.found "field identifier")

/-- A variant among those with the `names`. -/
def variantName (names : List String) : Content → Except Mismatch String
  | text s => if names.contains s then .ok s else .error (.unknownName s names)
  | natural n =>
    match names[n]? with
    | some s => .ok s
    | none =>
      .error (.value (.integer n) ("variant index 0 <= i < " ++ toString names.length))
  | c => .error (.kind c.found "variant identifier")

/-- Content of something that has none. -/
def checkVoid : Content → Except Mismatch Unit
  | void | table [] => .ok ()
  | c => .error (.kind c.found "unit")

/-- A variant without content: its name, or a table with its name as the only key. -/
def variant (names : List String) : Content → Except Mismatch String
  | text s => variantName names (.text s)
  | table [(name, content)] => do
    let name ← variantName names name
    content.checkVoid
    return name
  | table _ => .error (.value .table "map with a single key")
  | c => .error (.kind c.found "string or map")

/-- A natural number below `wordLimit`. -/
def word : Content → Except Mismatch Nat
  | natural n => .ok n
  | negative n =>
    if n = 0 then .ok 0 else .error (.value (.integer (-n)) "usize")
  | c => .error (.kind c.found "usize")

/-- A field of a record that is read into a value of type `σ`. -/
structure Field (σ : Type) where
  name : String
  read : σ → Content → Except Mismatch σ

/-- Reads a table with each of the fields once. -/
def readTable {σ : Type} (fields : List (Field σ)) :
    List String → σ → List (Content × Content) → Except Mismatch σ
  | seen, s, [] =>
    match fields.find? fun f => !seen.contains f.name with
    | none => .ok s
    | some f => .error (.missingField f.name)
  | seen, s, (key, content) :: rest => do
    let name ← fieldName (fields.map Field.name) key
    match fields.find? fun f => name == some f.name with
    | none => readTable fields seen s rest
    | some f =>
      if seen.contains f.name then throw (.repeatedField f.name)
      else
        let s ← f.read s content
        readTable fields (f.name :: seen) s rest

/-- A number of elements. -/
def elementCount (n : Nat) : String := toString n ++ (if n = 1 then " element" else " elements")

/-- Reads a list with the fields in their order. -/
def readList {σ : Type} (title : String) (fields : List (Field σ)) (items : List Content) (s : σ) :
    Except Mismatch σ := do
  let count := fields.length
  let s ← (fields.zip items).foldlM (fun s f => f.1.read s f.2) s
  if items.length < count then
    throw (.length items.length (title ++ " with " ++ elementCount count))
  else if count < items.length then
    throw (.length items.length (elementCount count ++ " in sequence"))
  else return s

/-- Reads a record. -/
def record {σ : Type} (title : String) (fields : List (Field σ)) (start : σ) :
    Content → Except Mismatch σ
  | table entries => readTable fields [] start entries
  | list items => readList title fields items start
  | c => .error (.kind c.found title)

end Content

end Corewise
