import Corewise.OperandType
/-!
Modules of external functions that lowered code calls, and the libraries they are linked from.
-/

namespace Corewise.Lowering

structure FunctionType where
  returnType : OperandType
  params : List OperandType
  deriving DecidableEq, Repr

def FunctionType.display (t : FunctionType) : String :=
  t.returnType.display ++ " (" ++ OperandType.displayList t.params ++ ")"

inductive Attribute where
  | alwaysInline | neverInline
  deriving DecidableEq, Repr

namespace Attribute

def all : List Attribute := [alwaysInline, neverInline]

def name : Attribute → String
  | alwaysInline => "AlwaysInline"
  | neverInline => "NoInline"

def ofName? (s : String) : Option Attribute := all.find? fun a => a.name == s

end Attribute

structure Declaration where
  name : Symbol
  type : FunctionType
  attributes : List Attribute
  deriving DecidableEq, Repr

namespace Declaration

def has (d : Declaration) (a : Attribute) : Bool := d.attributes.contains a

/-- The attributes in a fixed order. -/
def sortedAttributes (d : Declaration) : List Attribute := Attribute.all.filter d.has

def addAttribute (d : Declaration) (a : Attribute) : Declaration :=
  if d.has a then d else { d with attributes := d.attributes ++ [a] }

end Declaration

structure Module where
  name : String
  /-- Declarations, one for each name. -/
  functions : List Declaration
  /-- Linked libraries, each of them once. -/
  linked : List String
  deriving DecidableEq, Repr

namespace Module

def empty (name : String) : Module := ⟨name, [], []⟩

def find? (m : Module) (name : Symbol) : Option Declaration :=
  m.functions.find? fun d => d.name = name

/-- Declares a function with attributes. One that is declared already keeps its type. -/
def declare (m : Module) (name : Symbol) (type : FunctionType) (attributes : List Attribute) :
    Module :=
  match m.find? name with
  | none => { m with
      functions := m.functions ++ [attributes.foldl Declaration.addAttribute ⟨name, type, []⟩] }
  | some _ => { m with
      functions := m.functions.map fun d =>
        if d.name = name then attributes.foldl Declaration.addAttribute d else d }

def link (m : Module) (library : String) : Module :=
  if m.linked.contains library then m else { m with linked := m.linked ++ [library] }

/-- Linked libraries in the order of their names. -/
def linkedLibraries (m : Module) : List String := m.linked.mergeSort fun a b => !(b < a)

end Module

end Corewise.Lowering
