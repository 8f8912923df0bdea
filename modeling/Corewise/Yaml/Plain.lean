import Corewise.Decimal.Numeral
import Corewise.Text.Digits
/-!
What a plain scalar of a YAML document stands for: nothing, a truth value, an integer, a float or
a text.
-/

namespace Corewise.Yaml

inductive Plain where
  | null
  | bool (value : Bool)
  | integer (value : Int)
  | float (value : Binary)
  | text
  deriving DecidableEq, Repr

namespace Plain

def nulls : List String := ["", "~", "null", "Null", "NULL"]

def bool? (s : String) : Option Bool :=
  if ["true", "True", "TRUE"].contains s then some true
  else if ["false", "False", "FALSE"].contains s then some false
  else none

/-- Digits in a base that their first two characters may name. -/
def magnitude? : List Char → Option Nat
  | '0' :: 'x' :: ds => Text.natural? 16 ds
  | '0' :: 'o' :: ds => Text.natural? 8 ds
  | '0' :: 'b' :: ds => Text.natural? 2 ds
  | ds => Text.natural? 10 ds

def dropSign : List Char → List Char
  | '+' :: cs => cs
  | '-' :: cs => cs
  | cs => cs

/-- Decimal digits with a zero in front are a text. -/
def isPaddedNumeral (s : String) : Bool :=
  match dropSign s.toList with
  | '0' :: c :: ds => (c :: ds).all Char.isDigit
  | _ => false

/-- Integers of up to 128 bits, with a sign or without. -/
def integer? (s : String) : Option Int :=
  if isPaddedNumeral s then none
  else
    match s.toList with
    | '-' :: ds => do
      let n ← magnitude? ds
      if n ≤ Nat.pow 2 127 then some (-(n : Int)) else none
    | cs => do
      let n ← magnitude? (match cs with
        | '+' :: ds => ds
        | ds => ds)
      if n < Nat.pow 2 128 then some n else none

/-- Decimal numerals in the range of doubles, and the names of what is no finite number. -/
def float? (s : String) : Option Binary :=
  if isPaddedNumeral s then none
  else if [".inf", ".Inf", ".INF", "+.inf", "+.Inf", "+.INF"].contains s then
    some (.infinite false)
  else if ["-.inf", "-.Inf", "-.INF"].contains s then some (.infinite true)
  else if [".nan", ".NaN", ".NAN"].contains s then some .nan
  else do
    let d ← Decimal.ofNumeral? (dropSign s.toList)
    if d.isFinite .double then return d.nearest .double (s.toList.head? == some '-') else none

def of (s : String) : Plain :=
  if nulls.contains s then .null
  else
    match bool? s with
    | some b => .bool b
    | none =>
      match integer? s with
      | some n => .integer n
      | none => (float? s).elim .text .float

end Plain

/-- A text that a plain scalar would not be read back as, or that looks like a number. -/
def isAmbiguous (s : String) : Bool := Plain.of s != .text || Plain.isPaddedNumeral s

end Corewise.Yaml
