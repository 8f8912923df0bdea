import Corewise.Yaml.Scalar
/-!
Tokens of YAML texts. `Tokens.scan` turns indentation into tokens, and puts the tokens of a key in
front of it when its colon is found. Anchors, aliases, tags and the directives for tags are refused.
-/

namespace Corewise.Yaml

inductive TokenKind where
  | version (major minor : Nat)
  | documentStart | documentEnd | textEnd
  | blockSequenceStart | blockMappingStart | blockEnd
  | flowSequenceStart | flowSequenceEnd | flowMappingStart | flowMappingEnd
  | blockEntry | flowEntry | key | value
  | scalar (text : String) (isPlain : Bool)
  deriving DecidableEq, Repr

structure Token where
  kind : TokenKind
  start : Mark
  /-- The end of a token of one line. -/
  stop : Mark
  deriving DecidableEq, Repr

/-- Tokens up to the end of the text, which is told, or up to a fault. -/
structure Tokens where
  items : List Token
  ending : Except Fault Mark

/-- The next token, and the tokens after it. At the end of the text that is found again and
again. -/
def Tokens.next (ts : Tokens) : Except Fault (Token × Tokens) :=
  match ts.items, ts.ending with
  | t :: rest, _ => .ok (t, { ts with items := rest })
  | [], .ok m => .ok (⟨.textEnd, m, m⟩, ts)
  | [], .error fault => .error fault

/-- A place where a key may have started. -/
structure KeyPlace where
  /-- Number of flow collections around it. -/
  depth : Nat
  /-- Number of tokens before it. -/
  tokens : Nat
  /-- Number of bytes before it. -/
  offset : Nat
  mark : Mark
  /-- Only a key can start here. -/
  isRequired : Bool

structure Scanner where
  cursor : Cursor
  /-- The tokens so far, the newest first. -/
  tokens : List Token
  count : Nat
  /-- First columns of the open block collections, the innermost first. -/
  columns : List Nat
  /-- Number of open flow collections. -/
  depth : Nat
  /-- Possible keys, at most one of each depth, the deepest and latest first. -/
  keys : List KeyPlace
  /-- A key may start here. -/
  admitsKey : Bool

namespace Scanner

def start (cs : List Char) : Scanner := ⟨.start cs, [], 0, [], 0, [], true⟩

def inFlow (s : Scanner) : Bool := s.depth != 0

def mark (s : Scanner) : Mark := s.cursor.mark

/-- The first column that is inside of the innermost block collection. -/
def margin (s : Scanner) : Nat := (s.columns.head?.map (· + 1)).getD 0

/-- Puts a token in front of the newest ones, after `position` tokens. -/
def insert (s : Scanner) (position : Nat) (kind : TokenKind) (m : Mark) : Scanner :=
  let newer := s.count - position
  { s with
    tokens := s.tokens.take newer ++ ⟨kind, m, m⟩ :: s.tokens.drop newer, count := s.count + 1 }

/-- Adds a token that started at `start` and ends here. -/
def push (s : Scanner) (kind : TokenKind) (start : Mark) : Scanner :=
  { s with tokens := ⟨kind, start, s.mark⟩ :: s.tokens, count := s.count + 1 }

def moveTo (s : Scanner) (cursor : Cursor) : Scanner := { s with cursor }

def allowKey (s : Scanner) (b : Bool) : Scanner := { s with admitsKey := b }

/-- Adds a token of `n` characters. -/
def take (s : Scanner) (n : Nat) (kind : TokenKind) : Scanner :=
  (s.moveTo (s.cursor.skip n)).push kind s.mark

/-- A problem at this place. -/
def fault (s : Scanner) (problem : Problem) : Fault := ⟨problem, s.mark, none⟩

def missingColon (s : Scanner) (key : KeyPlace) : Fault :=
  s.cursor.fault .missingColon .simpleKey key.mark

/-- Steps over spaces, comments and line breaks. A line may start with a mark of the byte order. A
tab where a key may start is no space. -/
def skipSpaces : Nat → Scanner → Scanner
  | 0, s => s
  | fuel + 1, s =>
    let c := s.cursor
    let c := if c.column = 0 ∧ c.rest.head? = some (Char.ofNat 0xfeff) then c.skip 1 else c
    let isSkipped (d : Char) : Bool := d == ' ' || ((s.inFlow || !s.admitsKey) && d == '\t')
    let c := (c.skipWhile isSkipped).skipComment
    if c.atBreak then
      skipSpaces fuel { s with cursor := c.skipBreak, admitsKey := s.admitsKey || !s.inFlow }
    else s.moveTo c

/-- A key and its colon stand on one line, at most 1024 bytes apart. -/
def reaches (s : Scanner) (key : KeyPlace) : Bool :=
  s.cursor.line ≤ key.mark.line && s.cursor.offset ≤ key.offset + 1024

/-- Gives up keys that are too far back. -/
def dropStaleKeys (s : Scanner) : Except Fault Scanner :=
  let keys := s.keys.takeWhile s.reaches
  match (s.keys.drop keys.length).find? KeyPlace.isRequired with
  | some key => .error (s.missingColon key)
  | none => .ok { s with keys }

/-- The key that may have started in the innermost collection, and the other keys. -/
def innerKey? (s : Scanner) : Option (KeyPlace × List KeyPlace) :=
  match s.keys with
  | key :: keys => if key.depth = s.depth then some (key, keys) else none
  | [] => none

/-- Gives up the innermost key. -/
def dropKey (s : Scanner) : Except Fault Scanner :=
  match s.innerKey? with
  | some (key, keys) =>
    if key.isRequired then .error (s.missingColon key) else .ok { s with keys }
  | none => .ok s

/-- Notes that a key may start here. -/
def saveKey (s : Scanner) : Except Fault Scanner := do
  if s.admitsKey then
    let s ← s.dropKey
    let isRequired := !s.inFlow && s.columns.head? == some s.cursor.column
    return { s with keys := ⟨s.depth, s.count, s.cursor.offset, s.mark, isRequired⟩ :: s.keys }
  else return s

/-- Opens a block collection at a column right of the open ones, after `position` tokens. -/
def openBlock (s : Scanner) (position : Nat) (kind : TokenKind) (m : Mark) : Scanner :=
  if s.inFlow || m.column < s.margin then s
  else { s.insert position kind m with columns := m.column :: s.columns }

/-- Opens a block collection here. Outside of flow collections that needs a place where a key may
start. -/
def openBlockHere (s : Scanner) (kind : TokenKind) (otherwise : Problem) :
    Except Fault Scanner :=
  if !s.inFlow && !s.admitsKey then .error (s.fault otherwise)
  else .ok (s.openBlock s.count kind s.mark)

/-- Closes the block collections that start right of a column, all of them without one. -/
def closeBlocks (s : Scanner) (column : Option Nat) : Scanner :=
  if s.inFlow then s
  else
    let isClosed (n : Nat) : Bool := column.all fun c => c < n
    let closed := (s.columns.takeWhile isClosed).length
    { s with
      columns := s.columns.drop closed
      tokens := List.replicate closed ⟨.blockEnd, s.mark, s.mark⟩ ++ s.tokens
      count := s.count + closed }

/-- Closes everything before a part that is no content of a document. -/
def closeContent (s : Scanner) : Except Fault Scanner := do
  let s ← (s.closeBlocks none).dropKey
  return s.allowKey false

/-- Digits of a version. -/
def versionNumber (c : Cursor) (start : Mark) : Except Fault (Nat × Cursor) :=
  let ds := c.rest.takeWhile Char.isDigit
  if ds = [] then .error (c.fault .versionNumber .versionDirective start)
  else if 9 < ds.length then .error ((c.skip 9).fault .longVersionNumber .versionDirective start)
  else .ok ((Text.natural? 10 ds).getD 0, c.skip ds.length)

/-- A directive. Only that for the version is known. -/
def directive (s : Scanner) : Except Fault Scanner := do
  let s ← s.closeContent
  let start := s.mark
  let c := s.cursor.skip 1
  let name := c.rest.takeWhile fun d => d.isAlphanum || d == '_' || d == '-'
  let c := c.skip name.length
  if name = [] then throw (c.fault .directiveName .directive start)
  else if !atSpaceOrEnd c.rest then throw (c.fault .directiveCharacter .directive start)
  else if String.ofList name ≠ "YAML" then throw (c.fault .unknownDirective .directive start)
  else
    let (major, c) ← versionNumber (c.skipWhile isSpace) start
    if !c.at? (· == '.') then throw (c.fault .versionCharacter .versionDirective start)
    else
      let (minor, c) ← versionNumber (c.skip 1) start
      let next ← c.finishLine .directive start
      return ((s.moveTo c).push (.version major minor) start).moveTo next

def documentMark (s : Scanner) (kind : TokenKind) : Except Fault Scanner := do
  let s ← s.closeContent
  return s.take 3 kind

def flowStart (s : Scanner) (kind : TokenKind) : Except Fault Scanner := do
  let s ← s.saveKey
  return ({ s with depth := s.depth + 1 }.allowKey true).take 1 kind

def flowEnd (s : Scanner) (kind : TokenKind) : Except Fault Scanner := do
  let s ← s.dropKey
  return ({ s with depth := s.depth - 1 }.allowKey false).take 1 kind

def flowEntry (s : Scanner) : Except Fault Scanner := do
  let s ← s.dropKey
  return (s.allowKey true).take 1 .flowEntry

def blockEntry (s : Scanner) : Except Fault Scanner := do
  let s ← (← s.openBlockHere .blockSequenceStart .misplacedEntry).dropKey
  return (s.allowKey true).take 1 .blockEntry

def key (s : Scanner) : Except Fault Scanner := do
  let s ← (← s.openBlockHere .blockMappingStart .misplacedKey).dropKey
  return (s.allowKey !s.inFlow).take 1 .key

def value (s : Scanner) : Except Fault Scanner :=
  match s.innerKey? with
  | some (k, keys) =>
    let s := { s with keys }.insert k.tokens .key k.mark
    let s := s.openBlock k.tokens .blockMappingStart k.mark
    .ok ((s.allowKey false).take 1 .value)
  | none => do
    let s ← s.openBlockHere .blockMappingStart .misplacedValue
    return (s.allowKey !s.inFlow).take 1 .value

def blockScalar (s : Scanner) (isLiteral : Bool) : Except Fault Scanner := do
  let s ← s.dropKey
  let (text, cursor) ← s.cursor.block isLiteral s.margin
  return ((s.moveTo cursor).allowKey true).push (.scalar (String.ofList text) false) s.mark

def quotedScalar (s : Scanner) (quote : Char) : Except Fault Scanner := do
  let s ← s.saveKey
  let (text, cursor) ← s.cursor.quoted quote
  return ((s.moveTo cursor).allowKey false).push (.scalar (String.ofList text) false) s.mark

def plainScalar (s : Scanner) : Except Fault Scanner := do
  let s ← s.saveKey
  let (text, endsLine, cursor) ← s.cursor.plain s.inFlow s.margin
  return ((s.moveTo cursor).allowKey endsLine).push (.scalar (String.ofList text) true) s.mark

/-- Characters that never start a plain scalar. -/
def reserved : List Char :=
  [',', '[', ']', '\x7b', '\x7d', '#', '&', '*', '!', '|', '>', '\'', '"', '%', '@', '\x60']

/-- A plain scalar may start with a sign that is no indicator here. -/
def startsPlain (inFlow : Bool) : List Char → Bool
  | [] => false
  | c :: rest =>
    if isSpaceOrBreak c || reserved.contains c then false
    else if c == '-' then !(rest.head?.map isSpace).getD false
    else if c == '?' || c == ':' then !inFlow && !atSpaceOrEnd rest
    else true

/-- Scans the token that starts with a character. -/
def tokenAt (s : Scanner) (c : Char) (rest : List Char) : Except Fault Scanner :=
  if s.cursor.column = 0 ∧ c = '%' then s.directive
  else if s.cursor.atDocumentMark then
    s.documentMark (if c = '-' then .documentStart else .documentEnd)
  else if c = '[' then s.flowStart .flowSequenceStart
  else if c = '\x7b' then s.flowStart .flowMappingStart
  else if c = ']' then s.flowEnd .flowSequenceEnd
  else if c = '\x7d' then s.flowEnd .flowMappingEnd
  else if c = ',' then s.flowEntry
  else if c = '-' ∧ atSpaceOrEnd rest then s.blockEntry
  else if c = '?' ∧ (s.inFlow || atSpaceOrEnd rest) then s.key
  else if c = ':' ∧ (s.inFlow || atSpaceOrEnd rest) then s.value
  else if c = '|' ∧ !s.inFlow then s.blockScalar true
  else if c = '>' ∧ !s.inFlow then s.blockScalar false
  else if c = '\'' ∨ c = '"' then s.quotedScalar c
  else if startsPlain s.inFlow (c :: rest) then s.plainScalar
  else .error (s.cursor.fault .noTokenStart .nextToken s.mark)

/-- Ends the text. It ends with a line break, written or not. -/
def finish (s : Scanner) : Except Fault Scanner :=
  let c := s.cursor
  let s := if c.column = 0 then s else s.moveTo { c with line := c.line + 1, column := 0 }
  s.closeContent

/-- Scans up to the end of a token, and tells whether the text ends there. -/
def step (s : Scanner) : Except Fault (Scanner × Bool) := do
  let s ← (skipSpaces s.cursor.fuel s).dropStaleKeys
  let s := s.closeBlocks (some s.cursor.column)
  match s.cursor.rest with
  | [] => return (← (← s.finish).dropStaleKeys, true)
  | c :: rest => return (← (← s.tokenAt c rest).dropStaleKeys, false)

/-- The tokens that a fault leaves: one is not known as long as a key may start at it. -/
def known (s : Scanner) : List Token :=
  s.tokens.reverse.take ((s.keys.map KeyPlace.tokens).foldl min s.count)

/-- Scans tokens to the end of the text. -/
def run : Nat → Scanner → Tokens
  | 0, s => ⟨s.tokens.reverse, .ok s.mark⟩
  | fuel + 1, s =>
    match s.step with
    | .error fault => ⟨s.known, .error fault⟩
    | .ok (s, true) => ⟨s.tokens.reverse, .ok s.mark⟩
    | .ok (s, false) => run fuel s

end Scanner

/-- The tokens of a text. A character that no document may hold leaves none of them. -/
def Tokens.scan (text : String) : Tokens :=
  let cs := text.toList
  let allowed := cs.takeWhile isAllowed
  if allowed.length = cs.length then (Scanner.start cs).run (cs.length + 2)
  else ⟨[], .error ⟨.controlCharacter (Cursor.bytes allowed), .start, none⟩⟩

end Corewise.Yaml
