import Corewise.Text.Digits
import Corewise.Text.Printable
/-!
Quoted text in messages: double quotes around the text, and an escape for each quote, backslash
and character without a glyph.
-/

namespace Corewise.Text

/-- One character between double quotes. An apostrophe stands for itself. -/
def escapeChar (c : Char) : String :=
  if c = '"' then "\\\""
  else if c = '\\' then "\\\\"
  else if c = '\n' then "\\n"
  else if c = '\t' then "\\t"
  else if c = '\r' then "\\r"
  else if c = Char.ofNat 0 then "\\0"
  else if hasGlyph c then c.toString
  else "\\u\x7b" ++ hex 1 c.toNat ++ "\x7d"

def quote (s : String) : String :=
  "\"" ++ String.join (s.toList.map escapeChar) ++ "\""

/-- Items between brackets, as in `[3, 4]`. -/
def bracketed (items : List String) : String :=
  "[" ++ String.intercalate ", " items ++ "]"

/-- A shape or an index. -/
def indexList (ns : List Nat) : String := bracketed (ns.map toString)

def shapeList (shapes : List (List Nat)) : String := bracketed (shapes.map indexList)

def quotedList (items : List String) : String := bracketed (items.map quote)

/-- A named record with its fields, as in `Loop \x7b size: 3 \x7d`. -/
def record (name : String) (fields : List (String × String)) : String :=
  name ++ " \x7b " ++ String.intercalate ", " (fields.map fun f => f.1 ++ ": " ++ f.2) ++ " \x7d"

end Corewise.Text
