import Corewise.CoreSignature
import Corewise.CoreSignature.Error
import Corewise.Text.Combinator
/-!
Reading core signatures. Blanks may stand around names, groups and the arrow. A group may end in a comma after its
last name, but blanks there belong to a name that must follow.
-/

namespace Corewise.CoreSignature

open Combinator

/-- First characters of a name. -/
def isNameStart (c : Char) : Bool := c.isAlpha || c == '_'

/-- Later characters of a name. -/
def isNameRest (c : Char) : Bool := c.isAlphanum || c == '_'

def identifier : Parser String :=
  map (fun p => String.ofList (p.1 :: p.2)) (andThen (satisfy isNameStart) (repeated (satisfy isNameRest)))

def dimensionName : Parser String := padded identifier

def coreGroup : Parser Core :=
  delimitedBy (separatedBy dimensionName (just [',']) true 0) (just ['(']) (just [')'])

/-- The groups on one side of the arrow. -/
def coreGroups : Parser (List Core) := separatedBy (padded coreGroup) (just [',']) false 1

/-- The inputs, and the outputs with the part of the text that they take. -/
def signatureText : Parser (List Core × List Core × List Char × List Char) :=
  thenIgnore (andThen (thenIgnore coreGroups (just ['-', '>'])) (spanned coreGroups)) atEnd

/-- The signature that a text denotes. -/
def parse (text : String) : Except ParseError CoreSignature :=
  let cs := text.toList
  match signatureText cs with
  | .error [] => .error ⟨text, cs.length, cs.length, .unexpectedEnd⟩
  | .error (c :: rest) =>
    let place := cs.length - (c :: rest).length
    .error ⟨text, place, place + 1, .unexpected c⟩
  | .ok ⟨(inputs, [output], _), _, _⟩ => .ok ⟨inputs, output⟩
  | .ok ⟨(_, outputs, before, after), _, _⟩ =>
    .error ⟨text, cs.length - before.length, cs.length - after.length, .outputGroups outputs.length⟩

end Corewise.CoreSignature
