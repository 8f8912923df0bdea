import Corewise.Content
import Corewise.Yaml.Event
import Corewise.Yaml.Failure
/-!
Readers of YAML documents. A reader takes the events of one part of a document, given how many
levels of collections may nest in it and its path from the root. `Reader.run` reads a whole text.
-/

namespace Corewise.Yaml

abbrev Reader (α : Type) := Nat → Path → Events → Except Failure (α × Events)

/-- The next event, and the events after it. -/
def Events.next (es : Events) : Except Failure (Event × Mark × Events) :=
  match es.items, es.fault with
  | (e, m) :: rest, _ => .ok (e, m, { es with items := rest })
  | [], some fault => .error (.malformed fault)
  | [], none => .error .incomplete

/-- The events after the end of the collections that are open. -/
def Events.afterOpen : Nat → List (Event × Mark) → List (Event × Mark)
  | 0, items => items
  | _, [] => []
  | depth + 1, (e, _) :: rest =>
    match e with
    | .sequenceStart | .mappingStart => afterOpen (depth + 2) rest
    | .sequenceEnd | .mappingEnd => afterOpen depth rest
    | _ => afterOpen (depth + 1) rest

/-- The events after the next part, whatever it holds. -/
def Events.skip (es : Events) : Except Failure Events := do
  let (e, _, rest) ← es.next
  match e with
  | .sequenceStart | .mappingStart => return { es with items := afterOpen 1 rest.items }
  | _ => return rest

namespace Event

/-- A scalar that is left out, also in a text without documents. -/
def isAbsent : Event → Bool
  | .scalar text isPlain => isPlain && text == ""
  | .void => true
  | _ => false

def isEnd : Event → Bool
  | .sequenceEnd | .mappingEnd => true
  | _ => false

/-- What a plain scalar stands for; quoted scalars are texts. -/
def meaning (text : String) (isPlain : Bool) : Plain := if isPlain then .of text else .text

/-- What a scalar is as content. Integers of more than 64 bits are none. -/
def content (text : String) (isPlain : Bool) : Except Found Content :=
  match meaning text isPlain with
  | .null => .ok .void
  | .bool b => .ok (.flag b)
  | .integer n =>
    if 0 ≤ n ∧ text.toList.head? ≠ some '-' then
      if n < wordLimit then .ok (.natural n.toNat) else .error (.wideInteger n)
    else if Int64.minValue.toInt ≤ n then .ok (.negative n.natAbs)
    else .error (.wideInteger n)
  | .float x => .ok (.fraction x)
  | .text => .ok (.text text)

/-- The failure of a reader that wants something else. -/
def unwanted (e : Event) (wanted : String) : Failure :=
  let found : Option Found :=
    match e with
    | .scalar text isPlain =>
      match content text isPlain with
      | .ok c => some c.found
      | .error found => some found
    | .sequenceStart => some .list
    | .mappingStart => some .table
    | _ => none
  found.elim .incomplete fun found => .mismatch (.kind found wanted) none

end Event

namespace Reader

variable {α σ : Type}

/-- Reads a part that is one scalar, given its text and whether that is plain. -/
def scalar (wanted : String) (read : String → Bool → Option (Except Mismatch α)) : Reader α :=
  fun _ path es => do
    let (e, m, rest) ← es.next
    let value :=
      match e with
      | .scalar text isPlain => read text isPlain
      | _ => none
    match value with
    | some (.ok a) => return (a, rest)
    | some (.error cause) => throw (.mismatch cause (some (path, m)))
    | none => throw ((e.unwanted wanted).locate path m)

/-- Any scalar is a text. -/
def text : Reader String := scalar "a string" fun s _ => some (.ok s)

def flag : Reader Bool :=
  scalar "a boolean" fun s isPlain => if isPlain then (Plain.bool? s).map .ok else none

/-- A natural number below `wordLimit`. A minus is refused in front of zero also. -/
def word : Reader Nat :=
  scalar "usize" fun s isPlain =>
    match Event.content s isPlain with
    | .ok (.natural n) => some (.ok n)
    | _ => none

/-- One of the `names`. -/
def variant (wanted : String) (names : List String) : Reader String :=
  scalar wanted fun s _ =>
    some (if names.contains s then .ok s else .error (.unknownName s names))

/-- Enters a collection that starts at `mark`. -/
def enter (mark : Mark) : Nat → Except Failure Nat
  | 0 => .error (.tooDeep mark)
  | levels + 1 => .ok levels

/-- The items of a sequence from number `index` on. -/
def items (read : Path → Events → Except Failure (α × Events)) (path : Path) :
    Nat → Nat → Events → Except Failure (List α × Events)
  | 0, _, _ => .error .incomplete
  | fuel + 1, index, es => do
    let (e, _, rest) ← es.next
    if e.isEnd then return ([], rest)
    else
      let (a, rest) ← read (.item path index) es
      let (as, rest) ← items read path fuel (index + 1) rest
      return (a :: as, rest)

/-- A sequence. What is left out is an empty one. -/
def list (read : Reader α) : Reader (List α) := fun levels path es => do
  let (e, m, rest) ← es.next
  let body : Except Failure (List α × Events) :=
    if e = .sequenceStart then do
      let levels ← enter m levels
      items (read levels) path (rest.items.length + 1) 0 rest
    else if e.isAbsent then .ok ([], rest)
    else .error (e.unwanted "a sequence")
  body.mapError (Failure.locate path m)

/-- A field of a record that is read into a value of type `σ`. -/
structure Field (σ : Type) where
  name : String
  isRequired : Bool
  read : Reader (σ → σ)

namespace Field

/-- Reads a field and passes it to `set`. -/
def of (name : String) (isRequired : Bool) (read : Reader α) (set : α → σ → σ) : Field σ :=
  ⟨name, isRequired, fun levels path es => do
    let (a, rest) ← read levels path es
    return (set a, rest)⟩

def required (name : String) (read : Reader α) (set : α → σ → σ) : Field σ :=
  of name true read set

def optional (name : String) (read : Reader α) (set : α → σ → σ) : Field σ :=
  of name false read set

end Field

/-- The first required field that has not been `seen`. -/
def checkSeen (fields : List (Field σ)) (seen : List String) : Except Failure Unit :=
  match fields.find? fun f => f.isRequired && !seen.contains f.name with
  | none => .ok ()
  | some f => .error (.mismatch (.missingField f.name) none)

/-- The entries of a record. Keys are texts, and what belongs to other keys is passed over. -/
def entries (fields : List (Field σ)) (levels : Nat) (path : Path) :
    Nat → List String → σ → Events → Except Failure (σ × Events)
  | 0, _, _, _ => .error .incomplete
  | fuel + 1, seen, s, es => do
    let (e, _, rest) ← es.next
    if e.isEnd then
      checkSeen fields seen
      return (s, rest)
    else
      let (key, rest) ← scalar "field identifier" (fun s _ => some (.ok s)) levels path es
      match fields.find? fun f => f.name == key with
      | none => entries fields levels path fuel seen s (← rest.skip)
      | some f =>
        if seen.contains key then throw (.mismatch (.repeatedField key) none)
        else
          let (set, rest) ← f.read levels (.field path key) rest
          entries fields levels path fuel (key :: seen) (set s) rest

/-- A mapping with each of the fields at most once. What is left out is one without entries. -/
def record (title : String) (fields : List (Field σ)) (start : σ) : Reader σ :=
  fun levels path es => do
    let (e, m, rest) ← es.next
    let body : Except Failure (σ × Events) :=
      if e = .mappingStart then do
        let levels ← enter m levels
        entries fields levels path (rest.items.length + 1) [] start rest
      else if e.isAbsent then do
        checkSeen fields []
        return (start, rest)
      else .error (e.unwanted title)
    body.mapError (Failure.locate path m)

/-- The path to the value of a key. -/
def keyPath (path : Path) : Event → Path
  | .scalar text _ => .field path text
  | _ => .unnamed path

/-- The entries of a table, keys and values alike read by `read`. -/
def pairs (read : Path → Events → Except Failure (α × Events)) (path : Path) :
    Nat → Events → Except Failure (List (α × α) × Events)
  | 0, _ => .error .incomplete
  | fuel + 1, es => do
    let (e, _, rest) ← es.next
    if e.isEnd then return ([], rest)
    else
      let (k, rest) ← read path es
      let (v, rest) ← read (keyPath path e) rest
      let (more, rest) ← pairs read path fuel rest
      return ((k, v) :: more, rest)

/-- A scalar as content. -/
def leaf (wanted : String) (e : Event) : Except Failure Content :=
  match e with
  | .scalar text isPlain => (Event.content text isPlain).mapError fun _ => e.unwanted wanted
  | _ => .error (e.unwanted wanted)

/-- Any part that has no integers of more than 64 bits. -/
def content : Reader Content
  | levels, path, es => do
    let (e, m, rest) ← es.next
    let body : Except Failure (Content × Events) :=
      match e, levels with
      | .sequenceStart, 0 | .mappingStart, 0 => .error (.tooDeep m)
      | .sequenceStart, levels + 1 => do
        let (cs, rest) ← items (content levels) path (rest.items.length + 1) 0 rest
        return (.list cs, rest)
      | .mappingStart, levels + 1 => do
        let (cs, rest) ← pairs (content levels) path (rest.items.length + 1) rest
        return (.table cs, rest)
      | e, _ => do return (← leaf "any value" e, rest)
    body.mapError (Failure.locate path m)

/-- What the entry `tag` says, and the other entries of a mapping. -/
def taggedEntries (tag title : String) (read : Reader α) (levels : Nat) (path : Path) :
    Nat → Option α → Events → Except Failure (α × List (Content × Content) × Events)
  | 0, _, _ => .error .incomplete
  | fuel + 1, found, es => do
    let (e, m, rest) ← es.next
    if e.isEnd then
      match found with
      | some a => return (a, [], rest)
      | none => throw (.mismatch (.missingField tag) none)
    else
      let isTag : Bool :=
        match e with
        | .scalar text _ => text == tag
        | _ => false
      if isTag then
        if found.isSome then throw (.mismatch (.repeatedField tag) none)
        else
          let (a, rest) ← read levels (.field path tag) rest
          taggedEntries tag title read levels path fuel (some a) rest
      else
        let (k, rest) ←
          match e with
          | .scalar .. => do
            let k ← (leaf ("a type tag " ++ nameText tag ++ " or any other value") e).mapError
              (Failure.locate path m)
            pure (k, rest)
          | _ => content levels path es
        let (v, rest) ← content levels (keyPath path e) rest
        let (a, more, rest) ← taggedEntries tag title read levels path fuel found rest
        return (a, (k, v) :: more, rest)

/-- A part that has a tag among its entries, or before its items, and all the rest of it. -/
def tagged (tag title : String) (read : Reader α) : Reader (α × Content) := fun levels path es => do
  let (e, m, rest) ← es.next
  let body : Except Failure ((α × Content) × Events) :=
    match e with
    | .mappingStart => do
      let levels ← enter m levels
      let (a, cs, rest) ←
        taggedEntries tag title read levels path (rest.items.length + 1) none rest
      return ((a, .table cs), rest)
    | .sequenceStart => do
      let levels ← enter m levels
      let (first, _, _) ← rest.next
      if first.isEnd then throw (.mismatch (.missingField tag) none)
      else
        let (a, rest) ← read levels (.item path 0) rest
        let (cs, rest) ← items (content levels) path (rest.items.length + 1) 1 rest
        return ((a, .list cs), rest)
    | e => .error (e.unwanted title)
  body.mapError (Failure.locate path m)

/-- Levels of collections that a document may have. -/
def maxLevels : Nat := 128

/-- Reads the only document of a text. Its events are read before a fault behind them counts. -/
def run (read : Reader α) (text : String) : Except Failure α := do
  let document := Document.parse text
  let (a, _) ← read maxLevels .root document.events
  match document.events.fault with
  | some fault => throw (.malformed fault)
  | none => if document.isOnly then return a else throw .severalDocuments

end Reader

end Corewise.Yaml
