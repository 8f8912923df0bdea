import Corewise.Mismatch
import Corewise.Yaml.Fault
/-!
Why a YAML text is no document of the wanted form, with the wording in `Failure.message`.
-/

namespace Corewise.Yaml

/-- The way from the root of a document to one of its parts. -/
inductive Path where
  | root
  | item (parent : Path) (index : Nat)
  | field (parent : Path) (key : String)
  /-- The value of a key that is no scalar. -/
  | unnamed (parent : Path)
  deriving DecidableEq, Repr

namespace Path

mutual

def display : Path → String
  | root => "."
  | item parent index => parent.display ++ "[" ++ toString index ++ "]"
  | field parent key => parent.stem ++ key
  | unnamed parent => parent.stem ++ "?"

/-- What stands before the name of a field. -/
def stem : Path → String
  | root => ""
  | item parent index => parent.display ++ "[" ++ toString index ++ "]."
  | field parent key => parent.stem ++ key ++ "."
  | unnamed parent => parent.stem ++ "?."

end

end Path

inductive Failure where
  | malformed (fault : Fault)
  /-- A part of another form than the reader wants, and where that is as far as it is known. -/
  | mismatch (cause : Mismatch) (place : Option (Path × Mark))
  | tooDeep (mark : Mark)
  | severalDocuments
  | incomplete
  deriving DecidableEq, Repr

namespace Failure

/-- A mismatch whose place is not known yet is in the part at this place. -/
def locate (path : Path) (mark : Mark) : Failure → Failure
  | mismatch cause none => mismatch cause (some (path, mark))
  | failure => failure

def message : Failure → String
  | malformed fault => fault.message
  | mismatch cause none => cause.message
  | mismatch cause (some (path, mark)) =>
    (if path.display = "." then "" else path.display ++ ": ") ++ cause.message ++ mark.suffix
  | tooDeep mark => "recursion limit exceeded" ++ mark.suffix
  | severalDocuments =>
    "deserializing from YAML containing more than one document is not supported"
  | incomplete => "EOF while parsing a value"

end Failure

end Corewise.Yaml
