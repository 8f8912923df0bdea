/-!
Character classes of YAML.
-/

namespace Corewise.Yaml

/-- A line break: line feed, carriage return, next line, line or paragraph separator. -/
def isBreak (c : Char) : Bool :=
  let n := c.toNat
  n == 0xa || n == 0xd || n == 0x85 || n == 0x2028 || n == 0x2029

def isSpace (c : Char) : Bool := c == ' ' || c == '\t'

def isSpaceOrBreak (c : Char) : Bool := isSpace c || isBreak c

/-- Nothing is left, or a space or break follows. -/
def atSpaceOrEnd : List Char → Bool
  | [] => true
  | c :: _ => isSpaceOrBreak c

/-- Characters that a document may hold. -/
def isAllowed (c : Char) : Bool :=
  let n := c.toNat
  n == 0x9 || n == 0xa || n == 0xd || (0x20 ≤ n && n ≤ 0x7e) || n == 0x85 ||
    (0xa0 ≤ n && n ≤ 0xfffd) || 0x10000 ≤ n

/-- Characters that are written without an escape. -/
def isPrintable (c : Char) : Bool :=
  let n := c.toNat
  n == 0xa || (0x20 ≤ n && n ≤ 0x7e) || (0xa0 ≤ n && n ≤ 0xfffd && n != 0xfeff) || 0x10000 ≤ n

/-- Three dashes or three dots that stand alone. -/
def isDocumentMark : List Char → Bool
  | '-' :: '-' :: '-' :: rest => atSpaceOrEnd rest
  | '.' :: '.' :: '.' :: rest => atSpaceOrEnd rest
  | _ => false

end Corewise.Yaml
