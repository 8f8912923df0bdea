import Corewise.Json
import Corewise.Json.Magnitude
import Corewise.Text.Digits
/-!
Reading JSON texts. `Json.parse` takes a whole text with blanks around it. What keeps the grammar
and has no value is read as malformed: strings with half of a pair of surrogates, numbers out of
range, and what nests deeper than 127 arrays and objects.
-/

namespace Corewise.Json

namespace Read

/-- The blanks that may stand between the parts of a text. -/
def isSpace (c : Char) : Bool := c == ' ' || c == '\n' || c == '\t' || c == '\r'

def skipSpace (cs : List Char) : List Char := cs.dropWhile isSpace

/-- Four hexadecimal digits. -/
def hex4? : List Char → Option (Nat × List Char)
  | a :: b :: c :: d :: rest => (Text.natural? 16 [a, b, c, d]).map (·, rest)
  | _ => none

/-- The character after `\u`. One beyond the basic plane is written as a pair of surrogates, and
a surrogate alone is none. -/
def escapedCodePoint? (cs : List Char) : Option (Option Char × List Char) := do
  let (n, rest) ← hex4? cs
  if 0xd800 ≤ n ∧ n < 0xdc00 then
    match rest with
    | '\\' :: 'u' :: next =>
      let (m, next) ← hex4? next
      if 0xdc00 ≤ m ∧ m < 0xe000 then
        return (some (Char.ofNat (0x10000 + (n - 0xd800) * 0x400 + (m - 0xdc00))), next)
      else return (none, rest)
    | _ => return (none, rest)
  else if 0xdc00 ≤ n ∧ n < 0xe000 then return (none, rest)
  else return (some (Char.ofNat n), rest)

/-- The character after a backslash. -/
def escaped? : List Char → Option (Option Char × List Char)
  | '"' :: rest => some (some '"', rest)
  | '\\' :: rest => some (some '\\', rest)
  | '/' :: rest => some (some '/', rest)
  | 'b' :: rest => some (some '\x08', rest)
  | 'f' :: rest => some (some '\x0c', rest)
  | 'n' :: rest => some (some '\n', rest)
  | 'r' :: rest => some (some '\r', rest)
  | 't' :: rest => some (some '\t', rest)
  | 'u' :: rest => escapedCodePoint? rest
  | _ => none

/-- The rest of a string after its opening quote, given the characters so far, the last one first;
no characters when one of them is none. The fuel bounds the number of characters. -/
def stringRest? : Nat → Option (List Char) → List Char → Option (Option String × List Char)
  | 0, _, _ => none
  | _ + 1, _, [] => none
  | fuel + 1, text, c :: rest =>
    if c = '"' then some (text.map fun ds => String.ofList ds.reverse, rest)
    else if c = '\\' then
      match escaped? rest with
      | none => none
      | some (d, rest) => stringRest? fuel (text.bind fun ds => d.map (· :: ds)) rest
    else if c.toNat < 0x20 then none
    else stringRest? fuel (text.map (c :: ·)) rest

/-- A string with its quotes, and its text if it has one. -/
def string? : List Char → Option (Option String × List Char)
  | '"' :: rest => stringRest? (rest.length + 1) (some []) rest
  | _ => none

/-- The fraction of a number, with its point; empty when there is none. -/
def fraction? (cs : List Char) : Option (List Char × List Char) :=
  match cs with
  | '.' :: rest =>
    let ds := rest.takeWhile Char.isDigit
    if ds = [] then none else some ('.' :: ds, rest.dropWhile Char.isDigit)
  | _ => some ([], cs)

/-- The exponent of a number, with its letter; empty when there is none. -/
def exponent? (cs : List Char) : Option (List Char × List Char) :=
  match cs with
  | e :: rest =>
    if e = 'e' ∨ e = 'E' then
      let (sign, rest) := match rest with
        | '+' :: rest => (['+'], rest)
        | '-' :: rest => (['-'], rest)
        | _ => ([], rest)
      let ds := rest.takeWhile Char.isDigit
      if ds = [] then none else some (e :: sign ++ ds, rest.dropWhile Char.isDigit)
    else some ([], cs)
  | [] => some ([], [])

/-- A number: no sign but a minus, and no zero in front of other digits. -/
def number? (cs : List Char) : Option (Json × List Char) := do
  let (sign, cs) := match cs with
    | '-' :: rest => (['-'], rest)
    | _ => ([], cs)
  let whole := cs.takeWhile Char.isDigit
  if whole = [] ∨ (whole.head? = some '0' ∧ whole.length ≠ 1) then none
  else
    let (fraction, rest) ← fraction? (cs.dropWhile Char.isDigit)
    let (exponent, rest) ← exponent? rest
    let magnitude := (Magnitude.ofDigits whole (fraction.drop 1)).scaled
      ((Decimal.exponentOf? (exponent.drop 1)).getD 0)
    let v :=
      if !magnitude.isFinite then .malformed
      else if sign = [] ∧ fraction = [] ∧ exponent = [] then .natural (Decimal.ofDigits whole)
      else .number (String.ofList (sign ++ whole ++ fraction ++ exponent))
    return (v, rest)

/-- A value that holds no other values. -/
def leaf? : List Char → Option (Json × List Char)
  | 'n' :: 'u' :: 'l' :: 'l' :: rest => some (.null, rest)
  | 't' :: 'r' :: 'u' :: 'e' :: rest => some (.bool true, rest)
  | 'f' :: 'a' :: 'l' :: 's' :: 'e' :: rest => some (.bool false, rest)
  | '"' :: rest => (string? ('"' :: rest)).map fun r => (r.1.elim .malformed .string, r.2)
  | cs => number? cs

/-- A name and a colon, with the blanks around it. -/
def name? (cs : List Char) : Option (Option String × List Char) := do
  let (k, rest) ← string? cs
  match skipSpace rest with
  | ':' :: rest => return (k, skipSpace rest)
  | _ => none

/-- Passes over the rest of open arrays and objects, given for each whether it is an object, the
innermost first. `isFirst` when nothing stands in the innermost yet. -/
def pass? : Nat → List Bool → (isFirst : Bool) → List Char → Option (List Char)
  | _, [], _, cs => some cs
  | 0, _, _, _ => none
  | fuel + 1, isObject :: outer, isFirst, cs =>
    let cs := skipSpace cs
    if cs.head? = some (if isObject then '\x7d' else ']') then pass? fuel outer false (cs.drop 1)
    else if !isFirst && cs.head? != some ',' then none
    else
      let cs := if isFirst then cs else skipSpace (cs.drop 1)
      match if isObject then (name? cs).map Prod.snd else some cs with
      | none => none
      | some ('[' :: rest) => pass? fuel (false :: isObject :: outer) true rest
      | some ('\x7b' :: rest) => pass? fuel (true :: isObject :: outer) true rest
      | some cs =>
        match leaf? cs with
        | none => none
        | some (_, rest) => pass? fuel (isObject :: outer) false rest

/-- A reader of one value, without blanks in front of it. -/
abbrev ValueReader := List Char → Option (Json × List Char)

/-- The items after the first, up to the closing bracket. -/
def itemsRest? (value : ValueReader) : Nat → List Char → Option (List Json × List Char)
  | 0, _ => none
  | fuel + 1, cs =>
    match skipSpace cs with
    | ']' :: rest => some ([], rest)
    | ',' :: rest => do
      let (v, rest) ← value (skipSpace rest)
      let (vs, rest) ← itemsRest? value fuel rest
      return (v :: vs, rest)
    | _ => none

def items? (value : ValueReader) (cs : List Char) : Option (List Json × List Char) :=
  match skipSpace cs with
  | ']' :: rest => some ([], rest)
  | cs => do
    let (v, rest) ← value cs
    let (vs, rest) ← itemsRest? value (rest.length + 1) rest
    return (v :: vs, rest)

/-- A field; a name without a text makes it malformed. -/
abbrev Field := Option String × Json

def field? (value : ValueReader) (cs : List Char) : Option (Field × List Char) := do
  let (k, rest) ← name? cs
  let (v, rest) ← value rest
  return ((k, v), rest)

/-- The fields after the first, up to the closing brace. -/
def fieldsRest? (value : ValueReader) : Nat → List Char → Option (List Field × List Char)
  | 0, _ => none
  | fuel + 1, cs =>
    match skipSpace cs with
    | '\x7d' :: rest => some ([], rest)
    | ',' :: rest => do
      let (f, rest) ← field? value (skipSpace rest)
      let (fs, rest) ← fieldsRest? value fuel rest
      return (f :: fs, rest)
    | _ => none

def fields? (value : ValueReader) (cs : List Char) : Option (List Field × List Char) :=
  match skipSpace cs with
  | '\x7d' :: rest => some ([], rest)
  | cs => do
    let (f, rest) ← field? value cs
    let (fs, rest) ← fieldsRest? value (rest.length + 1) rest
    return (f :: fs, rest)

/-- An object whose names all have a text. -/
def object (fields : List Field) : Json :=
  (fields.mapM fun f : Field => f.1.map fun k => (k, f.2)).elim .malformed .object

/-- One value. What nests more than `depth` levels of arrays and objects is malformed. -/
def value? : Nat → ValueReader
  | 0, '[' :: rest => (pass? (rest.length + 1) [false] true rest).map (.malformed, ·)
  | 0, '\x7b' :: rest => (pass? (rest.length + 1) [true] true rest).map (.malformed, ·)
  | depth + 1, '[' :: rest => (items? (value? depth) rest).map fun r => (.array r.1, r.2)
  | depth + 1, '\x7b' :: rest => (fields? (value? depth) rest).map fun r => (object r.1, r.2)
  | _, cs => leaf? cs

end Read

/-- Levels of arrays and objects that are read. -/
def maxDepth : Nat := 127

/-- The value that a whole text denotes. -/
def parse (text : String) : Option Json := do
  let (v, rest) ← Read.value? maxDepth (Read.skipSpace text.toList)
  if Read.skipSpace rest = [] then return v else none

end Corewise.Json
