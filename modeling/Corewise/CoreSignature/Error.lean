import Corewise.Text.Quoted
/-!
Errors in signature texts: what is wrong, and the place in the text.
-/

namespace Corewise.CoreSignature

inductive ParseError.Cause where
  | unexpected (c : Char)
  | unexpectedEnd
  /-- A signature has one output group. -/
  | outputGroups (found : Nat)
  | described (message : String)
  deriving DecidableEq, Repr

/-- The place runs from character `start` up to character `stop` of `text`. -/
structure ParseError where
  text : String
  start : Nat
  stop : Nat
  cause : ParseError.Cause
  deriving DecidableEq, Repr

namespace ParseError

def Cause.message : Cause → String
  | .unexpected c => "unexpected character '" ++ c.toString ++ "'"
  | .unexpectedEnd => "unexpected end of signature"
  | .outputGroups n => "expected exactly one output group, found " ++ toString n
  | .described m => m

def detail (e : ParseError) : String := e.cause.message

def message (e : ParseError) : String :=
  "invalid gufunc signature " ++ Text.quote e.text ++ ": " ++ e.detail

/-- The characters of `cs` that start at byte `start` and end at byte `stop`, none when one of the
two is inside a character. -/
def byteSlice? (start stop : Nat) (cs : List Char) : Option (List Char) :=
  match cs with
  | [] => if start = 0 ∧ stop = 0 then some [] else none
  | c :: rest =>
    if start = 0 then
      if stop = 0 then some []
      else if c.utf8Size ≤ stop then
        (byteSlice? 0 (stop - c.utf8Size) rest).map (c :: ·)
      else none
    else if c.utf8Size ≤ start then
      byteSlice? (start - c.utf8Size) (stop - c.utf8Size) rest
    else none

/-- The place as a slice of bytes, cut off at the end of the text, and empty when it is not a
slice of whole characters. -/
def offending (e : ParseError) : String :=
  let size := e.text.utf8ByteSize
  let start := min e.start size
  let stop := max start (min e.stop size)
  ((byteSlice? start stop e.text.toList).map String.ofList).getD ""

end ParseError

end Corewise.CoreSignature
