import Corewise.Text.Digits
import Corewise.Yaml.Cursor
/-!
Scalars of YAML texts: plain ones, quoted ones, and blocks of lines.
-/

namespace Corewise.Yaml.Cursor

/-- The characters of a plain scalar up to a space, a break or an indicator that ends it. In flow
collections no indicator may stand right after a colon: there the number of characters before the
colon is the error. -/
def plainPart (inFlow : Bool) : List Char → Except Nat (List Char)
  | [] => .ok []
  | c :: rest =>
    if isSpaceOrBreak c then .ok []
    else if inFlow && c == ':' &&
        (rest.head?.map [',', '?', '[', ']', '\x7b', '\x7d'].contains).getD false then .error 0
    else if c == ':' && atSpaceOrEnd rest then .ok []
    else if inFlow && [',', '[', ']', '\x7b', '\x7d'].contains c then .ok []
    else
      match plainPart inFlow rest with
      | .ok cs => .ok (c :: cs)
      | .error n => .error (n + 1)

/-- Reads on in a plain scalar, given what was read of it, the last character first, and the gap
after that. Also tells whether the scalar ends with a line break. -/
def plainFrom (inFlow : Bool) (margin : Nat) (start : Mark) :
    Nat → List Char → Gap → Cursor → Except Fault (List Char × Bool × Cursor)
  | 0, text, gap, c => .ok (text.reverse, gap.breaks != [], c)
  | fuel + 1, text, gap, c =>
    if c.atDocumentMark || c.at? (· == '#') then .ok (text.reverse, gap.breaks != [], c)
    else
      match plainPart inFlow c.rest with
      | .error n => .error ((c.skip n).fault .colonInPlain .plainScalar start)
      | .ok part =>
        let next := c.skip part.length
        let (text, gap) :=
          if part = [] then (text, gap)
          else (part.reverse ++ gap.folded.reverse ++ text, .empty)
        if next.atSpace || next.atBreak then
          match Gap.read margin next.fuel gap next with
          | .error tab => .error (tab.fault .tabBeforeText .plainScalar start)
          | .ok (gap, after) =>
            if !inFlow && after.column < margin then
              .ok (text.reverse, gap.breaks != [], after)
            else plainFrom inFlow margin start fuel text gap after
        else .ok (text.reverse, gap.breaks != [], next)

/-- A plain scalar. Outside of flow collections its lines start at column `margin` or after it. -/
def plain (c : Cursor) (inFlow : Bool) (margin : Nat) : Except Fault (List Char × Bool × Cursor) :=
  plainFrom inFlow margin c.mark c.fuel [] .empty c

/-- What a backslash and the character after it stand for. -/
inductive Escape where
  | char (c : Char)
  /-- A code point, written with a number of hexadecimal digits. -/
  | code (digits : Nat)

def escape? : Char → Option Escape
  | '0' => some (.char (Char.ofNat 0))
  | 'a' => some (.char (Char.ofNat 0x7))
  | 'b' => some (.char (Char.ofNat 0x8))
  | 't' | '\t' => some (.char '\t')
  | 'n' => some (.char '\n')
  | 'v' => some (.char (Char.ofNat 0xb))
  | 'f' => some (.char (Char.ofNat 0xc))
  | 'r' => some (.char '\r')
  | 'e' => some (.char (Char.ofNat 0x1b))
  | ' ' => some (.char ' ')
  | '"' => some (.char '"')
  | '/' => some (.char '/')
  | '\\' => some (.char '\\')
  | 'N' => some (.char (Char.ofNat 0x85))
  | '_' => some (.char (Char.ofNat 0xa0))
  | 'L' => some (.char (Char.ofNat 0x2028))
  | 'P' => some (.char (Char.ofNat 0x2029))
  | 'x' => some (.code 2)
  | 'u' => some (.code 4)
  | 'U' => some (.code 8)
  | _ => none

/-- The character that a backslash at this place starts, and the place after it. -/
def escape (c : Cursor) (start : Mark) : Except Fault (Char × Cursor) :=
  match (c.rest.drop 1).head?.bind escape? with
  | none => .error (c.fault .unknownEscape .escape start)
  | some (.char d) => .ok (d, c.skip 2)
  | some (.code digits) =>
    let c := c.skip 2
    let ds := c.rest.take digits
    match if ds.length = digits then Text.natural? 16 ds else none with
    | none => .error (c.fault .hexadecimal .escape start)
    | some n =>
      if n.isValidChar then .ok (Char.ofNat n, c.skip digits)
      else .error (c.fault .codePoint .escape start)

/-- Reads on in a quoted scalar, given what was read of it, the last character first. -/
def quotedFrom (quote : Char) (start : Mark) :
    Nat → List Char → Cursor → Except Fault (List Char × Cursor)
  | 0, _, c => .error (c.fault .endInQuotes .quotedScalar start)
  | fuel + 1, text, c =>
    if c.atDocumentMark then .error (c.fault .documentMarkInQuotes .quotedScalar start)
    else
      match c.rest with
      | [] => .error (c.fault .endInQuotes .quotedScalar start)
      | d :: rest =>
        if d = quote then
          if quote = '\'' ∧ rest.head? = some '\'' then
            quotedFrom quote start fuel ('\'' :: text) (c.skip 2)
          else .ok (text.reverse, c.skip 1)
        else if d = '\\' ∧ quote = '"' then
          if (c.skip 1).atBreak then
            -- The escaped break is dropped, and the breaks after it are kept.
            match Gap.read 0 c.fuel ⟨[], ['\n']⟩ (c.skip 1).skipBreak with
            | .error after => quotedFrom quote start fuel text after
            | .ok (gap, after) =>
              quotedFrom quote start fuel (gap.breaks.dropLast ++ text) after
          else
            match c.escape start with
            | .error e => .error e
            | .ok (e, after) => quotedFrom quote start fuel (e :: text) after
        else if isSpaceOrBreak d then
          match Gap.read 0 c.fuel .empty c with
          | .error after => quotedFrom quote start fuel text after
          | .ok (gap, after) => quotedFrom quote start fuel (gap.folded.reverse ++ text) after
        else quotedFrom quote start fuel (d :: text) (c.skip 1)

/-- A scalar in the quotes that the place starts with. -/
def quoted (c : Cursor) (quote : Char) : Except Fault (List Char × Cursor) :=
  quotedFrom quote c.mark c.fuel [] (c.skip 1)

/-- How the breaks at the end of a block scalar are read. -/
inductive Chomping where
  | strip | clip | keep
  deriving DecidableEq

/-- The sign for the breaks at the end. -/
def chomping (c : Cursor) : Chomping × Cursor :=
  match c.rest with
  | '-' :: _ => (.strip, c.skip 1)
  | '+' :: _ => (.keep, c.skip 1)
  | _ => (.clip, c)

/-- The digit for the indentation; zero where there is none. -/
def indentationDigit (c : Cursor) (start : Mark) : Except Fault (Nat × Cursor) :=
  match c.rest with
  | d :: _ =>
    if d = '0' then .error (c.fault .zeroIndentation .blockScalar start)
    else if d.isDigit then .ok (d.toNat - '0'.toNat, c.skip 1)
    else .ok (0, c)
  | [] => .ok (0, c)

/-- The sign and the digit of a block scalar's header, in any order. -/
def blockHeader (c : Cursor) (start : Mark) : Except Fault (Chomping × Nat × Cursor) := do
  let (sign, next) := c.chomping
  let (digit, next) ← next.indentationDigit start
  if sign = .clip ∧ digit ≠ 0 then
    let (sign, next) := next.chomping
    return (sign, digit, next)
  else return (sign, digit, next)

/-- Indentation and empty lines before a line of a block scalar: the breaks, the last one first, the
deepest column and the place. An indentation of zero is not known yet. -/
def blockBreaks (indent : Nat) (start : Mark) :
    Nat → List Char → Nat → Cursor → Except Fault (List Char × Nat × Cursor)
  | 0, breaks, deepest, c => .ok (breaks, deepest, c)
  | fuel + 1, breaks, deepest, c =>
    let spaces := (c.rest.takeWhile (· == ' ')).length
    let c := c.skip (if indent = 0 then spaces else min spaces (indent - c.column))
    let deepest := max deepest c.column
    if (indent = 0 ∨ c.column < indent) ∧ c.atTab then
      .error (c.fault .tabInIndentation .blockScalar start)
    else if c.atBreak then
      blockBreaks indent start fuel (c.breakChar :: breaks) deepest c.skipBreak
    else .ok (breaks, deepest, c)

/-- What is read of a block scalar before one of its lines. -/
structure BlockText where
  /-- The text, the last character first. -/
  text : List Char
  /-- The break after the last line. -/
  lineBreak : List Char
  /-- The breaks of empty lines after it, the last one first. -/
  emptyLines : List Char
  /-- The last line starts with a space or a tab. -/
  isIndented : Bool

/-- The lines of a block scalar, all indented by `indent`. In a folded scalar a single break
between two lines without further indentation is read as a space. -/
def blockLines (isLiteral : Bool) (indent : Nat) (start : Mark) :
    Nat → BlockText → Cursor → Except Fault (BlockText × Cursor)
  | 0, b, c => .ok (b, c)
  | fuel + 1, b, c =>
    if c.column = indent ∧ c.rest ≠ [] then do
      let isIndented := c.atSpace
      let isFolded := !isLiteral && b.lineBreak == ['\n'] && !b.isIndented && !isIndented
      let joint := if isFolded then (if b.emptyLines = [] then [' '] else []) else b.lineBreak
      let line := c.rest.takeWhile fun d => !isBreak d
      let after := c.skip line.length
      let lineBreak := if after.atBreak then [after.breakChar] else []
      let after := if after.atBreak then after.skipBreak else after
      let (emptyLines, _, next) ← blockBreaks indent start after.fuel [] 0 after
      blockLines isLiteral indent start fuel
        ⟨line.reverse ++ b.emptyLines ++ joint ++ b.text, lineBreak, emptyLines, isIndented⟩
        next
    else .ok (b, c)

/-- A block scalar at its first character, in a collection that is indented by `parent - 1`. -/
def block (c : Cursor) (isLiteral : Bool) (parent : Nat) : Except Fault (List Char × Cursor) := do
  let start := c.mark
  let (chomping, increment, c) ← (c.skip 1).blockHeader start
  let c ← c.finishLine .blockScalar start
  let known := if increment = 0 then 0 else parent - 1 + increment
  let (emptyLines, deepest, c) ← blockBreaks known start c.fuel [] 0 c
  let indent := if known = 0 then max deepest (max parent 1) else known
  let (b, c) ← blockLines isLiteral indent start c.fuel ⟨[], [], emptyLines, false⟩ c
  let tail := match chomping with
    | .strip => []
    | .clip => b.lineBreak
    | .keep => b.lineBreak ++ b.emptyLines.reverse
  return (b.text.reverse ++ tail, c)

end Corewise.Yaml.Cursor
