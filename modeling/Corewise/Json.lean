import Corewise.Text.Quoted
/-!
JSON values and their texts: `Json.compact` without blanks, `Json.pretty` with one item a line.
-/

namespace Corewise

/-- A JSON value. Fields keep their order, and a name may occur twice. -/
inductive Json where
  | null
  | bool (value : Bool)
  | natural (value : Nat)
  /-- Any other number, by its literal. -/
  | number (literal : String)
  | string (value : String)
  | array (items : List Json)
  | object (fields : List (String × Json))
  /-- Part of a text that keeps the grammar and has no value: it can be passed over and not be
  read. It is written as null. -/
  | malformed
  deriving Inhabited

namespace Json

/-- One character of a string. Only quotes, backslashes and controls are escaped. -/
def escapeChar (c : Char) : List Char :=
  if c = '"' then ['\\', '"']
  else if c = '\\' then ['\\', '\\']
  else if c = '\n' then ['\\', 'n']
  else if c = '\r' then ['\\', 'r']
  else if c = '\t' then ['\\', 't']
  else if c = '\x08' then ['\\', 'b']
  else if c = '\x0c' then ['\\', 'f']
  else if c.toNat < 0x20 then '\\' :: 'u' :: (Text.hex 4 c.toNat).toList
  else [c]

def quote (s : String) : List Char := '"' :: s.toList.flatMap escapeChar ++ ['"']

mutual

def compactChars : Json → List Char
  | null | malformed => ['n', 'u', 'l', 'l']
  | bool true => ['t', 'r', 'u', 'e']
  | bool false => ['f', 'a', 'l', 's', 'e']
  | natural n => Nat.toDigits 10 n
  | number literal => literal.toList
  | string s => quote s
  | array [] => ['[', ']']
  | array (v :: vs) => '[' :: compactChars v ++ compactItems vs
  | object [] => ['\x7b', '\x7d']
  | object ((k, v) :: fs) => '\x7b' :: quote k ++ ':' :: compactChars v ++ compactFields fs

/-- The items after the first, with the closing bracket. -/
def compactItems : List Json → List Char
  | [] => [']']
  | v :: vs => ',' :: compactChars v ++ compactItems vs

/-- The fields after the first, with the closing brace. -/
def compactFields : List (String × Json) → List Char
  | [] => ['\x7d']
  | (k, v) :: fs => ',' :: quote k ++ ':' :: compactChars v ++ compactFields fs

end

/-- The text without blanks. -/
def compact (j : Json) : String := String.ofList j.compactChars

/-- The start of a line, two blanks deeper at each level. -/
def newline (depth : Nat) : List Char := '\n' :: List.replicate (2 * depth) ' '

mutual

def prettyChars (depth : Nat) : Json → List Char
  | array (v :: vs) => '[' :: newline (depth + 1) ++ prettyChars (depth + 1) v ++ prettyItems depth vs
  | object ((k, v) :: fs) =>
    '\x7b' :: newline (depth + 1) ++ quote k ++ ':' :: ' ' :: prettyChars (depth + 1) v ++
      prettyFields depth fs
  | leaf => leaf.compactChars

def prettyItems (depth : Nat) : List Json → List Char
  | [] => newline depth ++ [']']
  | v :: vs => ',' :: newline (depth + 1) ++ prettyChars (depth + 1) v ++ prettyItems depth vs

def prettyFields (depth : Nat) : List (String × Json) → List Char
  | [] => newline depth ++ ['\x7d']
  | (k, v) :: fs =>
    ',' :: newline (depth + 1) ++ quote k ++ ':' :: ' ' :: prettyChars (depth + 1) v ++
      prettyFields depth fs

end

/-- The text with one item or field a line. -/
def pretty (j : Json) : String := String.ofList (prettyChars 0 j)

mutual

/-- The value with the fields of every object in the order of their names. -/
def canonical : Json → Json
  | array items => array (canonicalItems items)
  | object fields => object ((canonicalFields fields).mergeSort fun f g => !(g.1 < f.1))
  | leaf => leaf

def canonicalItems : List Json → List Json
  | [] => []
  | v :: vs => v.canonical :: canonicalItems vs

def canonicalFields : List (String × Json) → List (String × Json)
  | [] => []
  | (k, v) :: fs => (k, v.canonical) :: canonicalFields fs

end

end Json

end Corewise
