import Corewise.Decimal
import Corewise.Text.Quoted
/-!
Why a part of a document does not have the form that its reader wants, with the wording of each
reason in `Mismatch.message`.
-/

namespace Corewise

/-- Naturals that fit a 64-bit word. -/
def wordLimit : Nat := UInt64.size

/-- What a reader has found. -/
inductive Found where
  | void
  | flag (value : Bool)
  | integer (value : Int)
  /-- An integer of more than 64 bits. -/
  | wideInteger (value : Int)
  | fraction (value : Binary)
  | text (value : String)
  | list
  | table
  deriving DecidableEq, Repr

/-- A name in a message. -/
def nameText (name : String) : String := "\x60" ++ name ++ "\x60"

/-- A number that is no integer is shown with a point. -/
def Found.display : Found → String
  | .void => "unit value"
  | .flag b => "boolean " ++ nameText (toString b)
  | .integer n => "integer " ++ nameText (toString n)
  | .wideInteger n =>
    "integer " ++ nameText (toString n) ++ (if n < 0 then " as i128" else " as u128")
  | .fraction x =>
    "floating point " ++ nameText (x.render .double "0.0" (Decimal.positional 1))
  | .text s => "string " ++ Text.quote s
  | .list => "sequence"
  | .table => "map"

inductive Mismatch where
  /-- Something of another kind. -/
  | kind (found : Found) (wanted : String)
  /-- Something of the right kind that is out of its range. -/
  | value (found : Found) (wanted : String)
  | length (found : Nat) (wanted : String)
  | missingField (name : String)
  | repeatedField (name : String)
  | unknownName (name : String) (names : List String)
  deriving DecidableEq, Repr

namespace Mismatch

/-- Names to choose from. -/
def choice : List String → String
  | [] => "nothing"
  | [a] => nameText a
  | [a, b] => nameText a ++ " or " ++ nameText b
  | names => "one of " ++ String.intercalate ", " (names.map nameText)

def message : Mismatch → String
  | kind found wanted => "invalid type: " ++ found.display ++ ", expected " ++ wanted
  | value found wanted => "invalid value: " ++ found.display ++ ", expected " ++ wanted
  | length found wanted => "invalid length " ++ toString found ++ ", expected " ++ wanted
  | missingField name => "missing field " ++ nameText name
  | repeatedField name => "duplicate field " ++ nameText name
  | unknownName name names =>
    "unknown variant " ++ nameText name ++ ", expected " ++ choice names

end Mismatch

end Corewise
