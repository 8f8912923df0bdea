import Corewise.DType
import Corewise.Text.Quoted
/-!
Types of operands and return values, and call signatures made of them.
-/

namespace Corewise

/-- Memory layout of an array type; `any` accepts both orders. -/
inductive Layout where
  | c | f | any
  deriving DecidableEq, Repr

namespace Layout

def name : Layout → String
  | c => "C"
  | f => "F"
  | any => "A"

def ofName? (s : String) : Option Layout :=
  [c, f, any].find? fun l => l.name == s

end Layout

/-- Static description of an operand or of a return value. -/
inductive OperandType where
  | none
  | any
  | object
  | scalar (dtype : DType)
  | array (dtype : DType) (rank : Nat) (layout : Layout)
  deriving DecidableEq, Repr

namespace OperandType

/-- Array type as kernels are compiled for. -/
def anyArray (dtype : DType) (rank : Nat) : OperandType := .array dtype rank .any

def isArray : OperandType → Bool
  | .array .. => true
  | _ => false

/-- Element type of arrays and scalars. -/
def element? : OperandType → Option DType
  | .array dtype _ _ => some dtype
  | .scalar dtype => some dtype
  | _ => Option.none

def display : OperandType → String
  | .none => "none"
  | .any => "any"
  | .object => "pyobject"
  | .scalar dtype => dtype.name
  | .array dtype rank layout =>
    "array(" ++ dtype.name ++ ", " ++ toString rank ++ "d, " ++ layout.name ++ ")"

def displayList (ts : List OperandType) : String := String.intercalate ", " (ts.map display)

end OperandType

/-- Operand types that a kernel is compiled for. Kernels write an operand and return nothing, so
the return type of a signature that can be compiled is `none`. -/
structure CallSignature where
  args : List OperandType
  returnType : OperandType
  deriving DecidableEq, Repr

namespace CallSignature

/-- A signature that returns nothing. -/
def void (args : List OperandType) : CallSignature := ⟨args, .none⟩

def display (s : CallSignature) : String :=
  s.returnType.display ++ "(" ++ OperandType.displayList s.args ++ ")"

end CallSignature

/-- Name of a compiled entry point. A compiled one is named after its kernel and its signature. -/
inductive Symbol where
  | named (text : String)
  | compiled (kernel : String) (signature : CallSignature)
  deriving DecidableEq, Repr

/-- The digits that tell signatures apart are not shown. -/
def Symbol.display : Symbol → String
  | .named text => text
  | .compiled kernel _ => "__gufunc_" ++ kernel ++ "_<hash>"

end Corewise
