import Corewise.Yaml.Character
import Corewise.Yaml.Fault
/-!
A place in a YAML text, and the gaps of spaces and line breaks in it. Line breaks between two parts
of a scalar are folded: one break is read as a space, and of several the first is dropped.
-/

namespace Corewise.Yaml

/-- What is left of a text, and where that is. -/
structure Cursor where
  rest : List Char
  /-- Number of bytes before the place. -/
  offset : Nat
  line : Nat
  column : Nat
  /-- No part of the text is read in more steps than this. -/
  fuel : Nat

namespace Cursor

def start (cs : List Char) : Cursor := ⟨cs, 0, 0, 0, cs.length + 1⟩

def mark (c : Cursor) : Mark := ⟨c.line, c.column⟩

def bytes (cs : List Char) : Nat := cs.foldl (fun n c => n + c.utf8Size) 0

/-- Steps over `n` characters of the line. -/
def skip (c : Cursor) (n : Nat) : Cursor :=
  { c with
    rest := c.rest.drop n, offset := c.offset + bytes (c.rest.take n), column := c.column + n }

def skipWhile (p : Char → Bool) (c : Cursor) : Cursor := c.skip (c.rest.takeWhile p).length

/-- Steps over a line break; a carriage return takes a line feed after it along. -/
def skipBreak (c : Cursor) : Cursor :=
  let n := match c.rest with
    | '\r' :: '\n' :: _ => 2
    | _ => 1
  { c with
    rest := c.rest.drop n, offset := c.offset + bytes (c.rest.take n), line := c.line + 1
    column := 0 }

def at? (c : Cursor) (p : Char → Bool) : Bool := (c.rest.head?.map p).getD false

def atSpace (c : Cursor) : Bool := c.at? isSpace

def atBreak (c : Cursor) : Bool := c.at? isBreak

def atTab (c : Cursor) : Bool := c.at? (· == '\t')

def atDocumentMark (c : Cursor) : Bool := c.column == 0 && isDocumentMark c.rest

/-- What a line break is read as. -/
def breakChar (c : Cursor) : Char :=
  match c.rest with
  | d :: _ => if d.toNat = 0x2028 ∨ d.toNat = 0x2029 then d else '\n'
  | [] => '\n'

/-- Steps over the comment at a place, if there is one. -/
def skipComment (c : Cursor) : Cursor :=
  if c.at? (· == '#') then c.skipWhile fun d => !isBreak d else c

/-- A problem at this place, in something that started at `start`. -/
def fault (c : Cursor) (problem : Problem) (activity : Activity) (start : Mark) : Fault :=
  ⟨problem, c.mark, some (activity, start)⟩

/-- Steps over spaces and a comment to the end of the line, and over its break. -/
def finishLine (c : Cursor) (activity : Activity) (start : Mark) : Except Fault Cursor :=
  let c := (c.skipWhile isSpace).skipComment
  if c.atBreak then .ok c.skipBreak
  else if c.rest = [] then .ok c
  else .error (c.fault .lineEnd activity start)

end Cursor

/-- Spaces and line breaks between two parts of a scalar. -/
structure Gap where
  /-- The spaces before the first break, the last one first. -/
  spaces : List Char
  /-- The breaks, the last one first. -/
  breaks : List Char

namespace Gap

def empty : Gap := ⟨[], []⟩

/-- What the gap is read as. -/
def folded (g : Gap) : List Char :=
  match g.breaks.reverse with
  | [] => g.spaces.reverse
  | '\n' :: [] => [' ']
  | '\n' :: more => more
  | breaks => breaks

/-- Reads on in a gap. After a break no tab may stand before column `margin`: there the place of
the tab is the error. -/
def read (margin : Nat) : Nat → Gap → Cursor → Except Cursor (Gap × Cursor)
  | 0, g, c => .ok (g, c)
  | fuel + 1, g, c =>
    if c.atSpace then
      if g.breaks = [] then
        read margin fuel { g with spaces := c.rest.take 1 ++ g.spaces } (c.skip 1)
      else if c.atTab ∧ c.column < margin then .error c
      else read margin fuel g (c.skip 1)
    else if c.atBreak then
      read margin fuel { g with breaks := c.breakChar :: g.breaks } c.skipBreak
    else .ok (g, c)

end Gap

end Corewise.Yaml
