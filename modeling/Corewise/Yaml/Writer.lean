import Corewise.Json
import Corewise.Yaml.Character
import Corewise.Yaml.Plain
/-!
YAML text of JSON values: block mappings and block lists, lists in mappings at the depth of their
key, and each text in the plainest style that reads back.
-/

namespace Corewise.Yaml

/-- How a text is written. -/
inductive Style where
  | plain | singleQuoted | doubleQuoted | literal
  deriving DecidableEq, Repr

namespace Style

/-- Two neighbours satisfy `p` and `q`. -/
def hasNeighbours (p q : Char → Bool) (cs : List Char) : Bool :=
  (cs.zip cs.tail).any fun n => p n.1 && q n.2

def startsWith (p : Char → Bool) (cs : List Char) : Bool := (cs.head?.map p).getD false

def endsWith (p : Char → Bool) (cs : List Char) : Bool := (cs.getLast?.map p).getD false

/-- Characters with which a plain text does not start. -/
def indicators : List Char :=
  ['#', ',', '[', ']', '\x7b', '\x7d', '&', '*', '!', '|', '>', '\'', '"', '%', '@', '\x60']

/-- A start that means something else than a text. -/
def hasIndicatorStart : List Char → Bool
  | [] => false
  | c :: rest =>
    indicators.contains c || ((c == '?' || c == ':' || c == '-') && atSpaceOrEnd rest) ||
      ['-', '-', '-'].isPrefixOf (c :: rest) || ['.', '.', '.'].isPrefixOf (c :: rest)

/-- A colon before a space or at the end ends a key, and a number sign after a space starts a
comment. -/
def hasIndicatorInside (cs : List Char) : Bool :=
  hasNeighbours (· == ':') isSpaceOrBreak cs || endsWith (· == ':') cs ||
    hasNeighbours isSpaceOrBreak (· == '#') cs

def needsEscapes (cs : List Char) : Bool := cs.any fun c => !isPrintable c

/-- A text with spaces around its breaks cannot be folded back. -/
def admitsSingleQuotes (cs : List Char) : Bool :=
  !needsEscapes cs && !hasNeighbours (· == ' ') isBreak cs && !hasNeighbours isBreak (· == ' ') cs

def admitsPlain (cs : List Char) : Bool :=
  !needsEscapes cs && !cs.any isBreak && !startsWith (· == ' ') cs && !endsWith (· == ' ') cs &&
    !hasIndicatorStart cs && !hasIndicatorInside cs

def admitsLiteral (cs : List Char) : Bool :=
  !needsEscapes cs && !hasNeighbours (· == ' ') isBreak cs && !endsWith (· == ' ') cs

/-- Texts of several lines are literal, those that a plain scalar could be mistaken for are quoted,
and others are plain, as far as their characters admit it. -/
def of (s : String) : Style :=
  let cs := s.toList
  if cs.contains '\n' then if admitsLiteral cs then .literal else .doubleQuoted
  else if !isAmbiguous s && admitsPlain cs then .plain
  else if admitsSingleQuotes cs then .singleQuoted
  else .doubleQuoted

end Style

def indentation (n : Nat) : List Char := List.replicate n ' '

/-- Each line after a break starts with `n` spaces. -/
def indentLines (n : Nat) (atBreak : Bool) : List Char → List Char
  | [] => []
  | c :: rest =>
    if isBreak c then c :: indentLines n true rest
    else (if atBreak then indentation n else []) ++ c :: indentLines n false rest

/-- Upper-case hexadecimal digits of a width. -/
def upperHex (width n : Nat) : List Char := (Text.hex width n).toList.map Char.toUpper

/-- One character between double quotes. -/
def escapeChar (c : Char) : List Char :=
  let n := c.toNat
  if isPrintable c && !isBreak c && c != '"' && c != '\\' then [c]
  else
    '\\' ::
      (if n == 0 then ['0']
      else if n == 0x7 then ['a']
      else if n == 0x8 then ['b']
      else if n == 0x9 then ['t']
      else if n == 0xa then ['n']
      else if n == 0xb then ['v']
      else if n == 0xc then ['f']
      else if n == 0xd then ['r']
      else if n == 0x1b then ['e']
      else if n == 0x22 then ['"']
      else if n == 0x5c then ['\\']
      else if n == 0x85 then ['N']
      else if n == 0x2028 then ['L']
      else if n == 0x2029 then ['P']
      else if n ≤ 0xff then 'x' :: upperHex 2 n
      else if n ≤ 0xffff then 'u' :: upperHex 4 n
      else 'U' :: upperHex 8 n)

def doubleQuoted (cs : List Char) : List Char := '"' :: cs.flatMap escapeChar ++ ['"']

/-- Apostrophes are written twice, and the lines after a break are indented. -/
def singleQuoted (indent : Nat) (cs : List Char) : List Char :=
  let doubled := cs.flatMap fun c => if c = '\'' then ['\'', '\''] else [c]
  let closing := if Style.endsWith isBreak cs then indentation indent ++ ['\''] else ['\'']
  '\'' :: indentLines indent false doubled ++ closing

/-- How the breaks at the end of a literal text are kept: none with a dash, one without a sign and
all with a plus. -/
def chomping (cs : List Char) : List Char :=
  match cs.reverse with
  | [] => ['-']
  | c :: before =>
    if !isBreak c then ['-']
    else
      match before with
      | [] => ['+']
      | d :: _ => if isBreak d then ['+'] else []

/-- A literal text with its header. The header names the indentation where the text itself starts
with a space or a break. -/
def literal (indent : Nat) (cs : List Char) : List Char :=
  let hint := if Style.startsWith (fun c => c == ' ' || isBreak c) cs then ['2'] else []
  let body := indentLines indent true cs
  '|' :: hint ++ chomping cs ++ '\n' :: body

/-- A text, with the break that ends its line. Lines of its own are indented by `indent`. -/
def textLine (indent : Nat) (s : String) : List Char :=
  let cs := s.toList
  match Style.of s with
  | .plain => cs ++ ['\n']
  | .singleQuoted => singleQuoted indent cs ++ ['\n']
  | .doubleQuoted => doubleQuoted cs ++ ['\n']
  | .literal => literal indent cs ++ (if Style.endsWith isBreak cs then [] else ['\n'])

/-- A value without others in it, with the break that ends its line. -/
def leafLine (indent : Nat) : Json → List Char
  | .string s => textLine indent s
  | leaf => leaf.compactChars ++ ['\n']

/-- A key and its colon. Keys stay on one line. -/
def keyChars (key : String) : List Char :=
  (match Style.of key with
    | .plain => key.toList
    | .singleQuoted =>
      if key.toList.any isBreak then doubleQuoted key.toList else singleQuoted 0 key.toList
    | _ => doubleQuoted key.toList) ++ [':']

mutual

/-- What follows the colon of a key at `depth`. -/
def valueLines (depth : Nat) : Json → List Char
  | .object [] => [' ', '\x7b', '\x7d', '\n']
  | .object fields => '\n' :: fieldLines (depth + 2) fields
  | .array [] => [' ', '[', ']', '\n']
  | .array items => '\n' :: itemLines depth items
  | leaf => ' ' :: leafLine (depth + 2) leaf

def fieldLines (depth : Nat) : List (String × Json) → List Char
  | [] => []
  | (k, v) :: fs => indentation depth ++ keyChars k ++ valueLines depth v ++ fieldLines depth fs

/-- What follows the dash of an item at `depth`. The first part of the item stands on the line of
the dash. -/
def itemContent (depth : Nat) : Json → List Char
  | .object ((k, v) :: fs) =>
    ' ' :: keyChars k ++ valueLines (depth + 2) v ++ fieldLines (depth + 2) fs
  | .array (v :: vs) => ' ' :: '-' :: itemContent (depth + 2) v ++ itemLines (depth + 2) vs
  | .object [] => [' ', '\x7b', '\x7d', '\n']
  | .array [] => [' ', '[', ']', '\n']
  | leaf => ' ' :: leafLine (depth + 2) leaf

def itemLines (depth : Nat) : List Json → List Char
  | [] => []
  | v :: vs => indentation depth ++ '-' :: itemContent depth v ++ itemLines depth vs

end

/-- The document of a value. -/
def render : Json → String
  | .object (f :: fs) => String.ofList (fieldLines 0 (f :: fs))
  | .array (v :: vs) => String.ofList (itemLines 0 (v :: vs))
  | .object [] => "\x7b\x7d\n"
  | .array [] => "[]\n"
  | leaf => String.ofList (leafLine 2 leaf)

end Corewise.Yaml
