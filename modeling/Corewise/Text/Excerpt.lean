import Corewise.Text.Blank
import Corewise.Text.Width
/-!
A text with one marked place and a message, framed for a terminal: the lines that hold the place,
the place underlined, and an arrow from it to the message.
-/

namespace Corewise.Text

/-- The characters from `start` up to `stop` of `source`, with the message about them. -/
structure Excerpt where
  /-- Name of the text in the frame's first line. -/
  title : String
  source : String
  start : Nat
  stop : Nat
  message : String

namespace Excerpt

/-- A line of the source: the position of its first character, its length with the line break, and
what is shown of it. -/
structure Line where
  offset : Nat
  length : Nat
  shown : List Char

/-- The position is one of the line's characters. -/
def Line.contains (l : Line) (position : Nat) : Bool :=
  l.offset ≤ position && position < l.offset + l.length

def isLineBreak (c : Char) : Bool :=
  let n := c.toNat
  (0xa ≤ n && n ≤ 0xd) || n == 0x85 || n == 0x2028 || n == 0x2029

/-- Cuts a text after each line break; a carriage return takes a line feed after it along. -/
def splitLines : List Char → List (List Char)
  | [] => []
  | '\r' :: '\n' :: rest => ['\r', '\n'] :: splitLines rest
  | c :: rest =>
    if isLineBreak c then [c] :: splitLines rest
    else
      match splitLines rest with
      | [] => [[c]]
      | line :: lines => (c :: line) :: lines

def dropTrailingBlanks (cs : List Char) : List Char :=
  (cs.reverse.dropWhile isBlank).reverse

/-- Lines with their positions; an empty text is one empty line. -/
def linesOf (source : String) : List Line :=
  let place (done : List Line × Nat) (cs : List Char) : List Line × Nat :=
    (done.1 ++ [⟨done.2, cs.length, dropTrailingBlanks cs⟩], done.2 + cs.length)
  match splitLines source.toList with
  | [] => [⟨0, 0, []⟩]
  | lines => (lines.foldl place ([], 0)).1

/-- Number and line of a position, the end of the text included. -/
def lineAt? (lines : List Line) (position : Nat) : Option (Nat × Line) :=
  let size := lines.foldl (fun n l => n + l.length) 0
  if position ≤ size then
    (lines.zipIdx.filter fun l => l.1.offset ≤ position).getLast?.map fun l => (l.2, l.1)
  else none

/-- Tabs end at multiples of four columns. -/
def cellWidth (column : Nat) (c : Char) : Nat :=
  if c = '\t' then 4 - column % 4 else if isBlank c then 1 else columns c

def shownText (line : Line) : String :=
  String.join <| line.shown.zipIdx.map fun p =>
    if isBlank p.1 then String.ofList (List.replicate (cellWidth p.2 p.1) ' ') else p.1.toString

/-- A row below `line` with a mark, repeated as `fill`, for each of `count` characters. -/
def markRow (line : Line) (count : Nat) (mark : Nat → Char × Char) : String :=
  String.join <| (List.range count).map fun column =>
    let width := (line.shown[column]?.map (cellWidth column)).getD 1
    let (head, fill) := mark column
    String.ofList ((head :: List.replicate (width - 1) fill).take width)

def spaces (n : Nat) : String := String.ofList (List.replicate n ' ')

def bars (n : Nat) : String := String.ofList (List.replicate n '─')

/-- The rows of a line with the whole place in it. -/
def inlineRows (e : Excerpt) (numberWidth number : Nat) (line : Line) : List String :=
  let margin := spaces (numberWidth + 2) ++ "│ "
  let label := toString (number + 1)
  let anchor := max ((e.start + e.stop) / 2) e.start - line.offset
  let count := e.stop - line.offset + 2
  let underlined (column : Nat) : Bool :=
    e.start ≤ line.offset + column && line.offset + column < e.stop
  let underline := markRow line count fun column =>
    if column = anchor then (if underlined column then ('┬', '─') else ('│', ' '))
    else if underlined column then ('─', '─')
    else (' ', ' ')
  let arrow := markRow line count fun column =>
    if column = anchor then ('╰', '─') else if anchor < column then ('─', '─') else (' ', ' ')
  [" " ++ spaces (numberWidth - label.length) ++ label ++ " │ " ++ shownText line,
    margin ++ underline,
    margin ++ arrow ++ " " ++ e.message]

/-- A line of the source between the marks at its left. -/
def cornerRow (numberWidth number : Nat) (corner : String) (line : Line) : String :=
  let label := toString (number + 1)
  " " ++ spaces (numberWidth - label.length) ++ label ++ " │ " ++ corner ++ "─▶ " ++ shownText line

/-- The rows of the last line of a place that runs over several lines. -/
def closingRows (e : Excerpt) (numberWidth number : Nat) (line : Line) : List String :=
  let margin := spaces (numberWidth + 2)
  let width := line.length + 2
  [cornerRow numberWidth number "├" line,
    margin ++ "│ │   " ++ markRow line width fun _ => (' ', ' '),
    margin ++ "│ ╰───" ++ (markRow line width fun _ => ('─', '─')) ++ " " ++ e.message]

/-- Position of the last character of the place. -/
def last (e : Excerpt) : Nat := max (e.stop - 1) e.start

/-- What a line shows of a place. -/
inductive Part where
  | whole | opening | closing | inside | outside
  deriving DecidableEq

/-- What a line shows of a place in one line, or of one in several. -/
def partOf (e : Excerpt) (isInline : Bool) (line : Line) : Part :=
  if isInline then
    if line.offset ≤ e.start ∧ e.stop ≤ line.offset + line.length then .whole else .outside
  else if line.contains e.start then .opening
  else if line.contains e.last then .closing
  else if e.start ≤ line.offset ∧ line.offset < e.stop then .inside
  else .outside

/-- The rows of numbered lines. Lines without an end of the place are left out; the first of them
in a row leaves a gap, which is dashed inside of the place. -/
def rowsOf (e : Excerpt) (isInline : Bool) (numberWidth : Nat) :
    (inGap : Bool) → List (Nat × Line) → List String
  | _, [] => []
  | inGap, (number, line) :: lines =>
    let margin := spaces (numberWidth + 2)
    match e.partOf isInline line with
    | .whole => e.inlineRows numberWidth number line ++ e.rowsOf isInline numberWidth false lines
    | .opening =>
      cornerRow numberWidth number "╭" line :: e.rowsOf isInline numberWidth false lines
    | .closing => e.closingRows numberWidth number line ++ e.rowsOf isInline numberWidth false lines
    | .inside =>
      (if inGap then [] else [margin ++ "┆ ┆   "]) ++ e.rowsOf isInline numberWidth true lines
    | .outside =>
      (if inGap then [] else [margin ++ "│ "]) ++ e.rowsOf isInline numberWidth true lines

/-- The framed excerpt. A place that starts or ends behind the text runs to its last line. -/
def render (e : Excerpt) : String :=
  let lines := linesOf e.source
  let first := lineAt? lines e.start
  let last := lineAt? lines e.last
  let isInline := first.map (·.1) == last.map (·.1)
  let lineCount := (last.map fun l => l.1 + 1).getD lines.length
  let numberWidth := (toString lineCount).length
  let shown := ((lines.zipIdx.map fun l => (l.2, l.1)).take lineCount).drop
    ((first.map (·.1)).getD 0)
  let location := match first with
    | some (number, line) => toString (number + 1) ++ ":" ++ toString (e.start - line.offset + 1)
    | none => "?:?"
  let frame := ["Error: " ++ e.message,
    spaces (numberWidth + 2) ++ "╭─[" ++ e.title ++ ":" ++ location ++ "]",
    spaces (numberWidth + 2) ++ "│"]
  String.join <|
    (frame ++ e.rowsOf isInline numberWidth false shown ++ [bars (numberWidth + 2) ++ "╯"]).map
      (· ++ "\n")

end Excerpt

end Corewise.Text
