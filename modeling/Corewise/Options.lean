import Corewise.Text.Blank
/-!
Options of functions: how kernels are compiled and loops are run, and the identity element that a
function reports.
-/

namespace Corewise

structure Options where
  /-- Refuse object kernels. -/
  nativeOnly : Bool
  /-- Compile every kernel under the object convention. -/
  forceObject : Bool
  /-- Check the ranks of operands before each invocation. -/
  boundsCheck : Bool
  /-- Iterations may run at the same time. -/
  parallel : Bool
  deriving DecidableEq, Repr

namespace Options

def default : Options := ⟨false, false, false, false⟩

/-- Value of a switch; blanks around it and the case of letters do not matter. -/
def parseSwitch (text : String) : Option Bool :=
  let word := String.ofList ((trimBlanks text).toList.map Char.toLower)
  if ["1", "true", "yes", "on"].contains word then some true
  else if ["0", "false", "no", "off"].contains word then some false
  else none

/-- The options that environment settings ask for. An unreadable switch is off. -/
def ofEnvironment (settings : List (String × String)) : Options :=
  let isOn (name : String) : Bool := ((settings.lookup name).bind parseSwitch).getD false
  { nativeOnly := false
    forceObject := isOn "DYNGUFUNC_FORCEOBJ"
    boundsCheck := isOn "DYNGUFUNC_BOUNDSCHECK"
    parallel := isOn "DYNGUFUNC_PARALLEL" }

end Options

/-- Identity element of a function as a reduction. -/
inductive Identity where
  | zero | one | minusOne | reorderableNone | none
  deriving DecidableEq, Repr

namespace Identity

def all : List Identity := [zero, one, minusOne, reorderableNone, none]

def name : Identity → String
  | zero => "zero"
  | one => "one"
  | minusOne => "minus_one"
  | reorderableNone => "reorderable_none"
  | none => "none"

def ofName? (s : String) : Option Identity := all.find? fun i => i.name == s

/-- Name in listings. -/
def title : Identity → String
  | zero => "Zero"
  | one => "One"
  | minusOne => "MinusOne"
  | reorderableNone => "ReorderableNone"
  | none => "None"

end Identity

end Corewise
