import Corewise.Buffer
import Corewise.CoreSignature
import Corewise.CoreSignature.Error
import Corewise.OperandType
/-!
Errors of functions and their parts, by cause, with the wording of each in `Error.message`.
-/

namespace Corewise

/-- Identity of a function; functions of one name differ in their serial numbers. -/
structure FunctionKey where
  name : String
  serial : Nat
  deriving DecidableEq, Repr

def FunctionKey.display (k : FunctionKey) : String := k.name ++ "#" ++ toString k.serial

/-- Why a kernel cannot be compiled for a call signature. -/
inductive Refusal where
  | returnsValue (type : OperandType)
  | operandCount (expected : Nat) (signature : CoreSignature) (found : Nat)
  | inputRank (position : Nat) (type : OperandType) (rank : Nat)
  | outputRank (rank : Nat) (found : Option OperandType)
  | unboundOutputs (names : List String)
  | objectKernel
  deriving DecidableEq, Repr

def Refusal.message : Refusal → String
  | .returnsValue type =>
    "kernels return through their output operand, not " ++ type.display
  | .operandCount expected signature found =>
    "expected " ++ toString expected ++ " operands for signature " ++ signature.render ++
      ", found " ++ toString found
  | .inputRank position type rank =>
    "operand " ++ toString position ++ " of type " ++ type.display ++
      " does not match core rank " ++ toString rank
  | .outputRank rank found =>
    "output operand must be a " ++ toString rank ++ "d array, found " ++
      (found.map OperandType.display).getD "nothing"
  | .unboundOutputs names =>
    "output dimensions [" ++ String.intercalate ", " names ++ "] are not bound by any input"
  | .objectKernel => "object-mode kernel cannot be compiled with nopython"

/-- Why operands do not fit together, or do not fit what they are handed to. -/
inductive ShapeConflict where
  | notBroadcastable (shapes : List (List Nat))
  | rankBelowCore (position rank : Nat) (core : Core)
  | coreSize (name : String) (position size expected : Nat)
  | operandCount (expected found : Nat)
  | outputNotArray
  | outputShape (outer broadcast : List Nat)
  | noElement (position : Nat) (index : List Nat)
  | kernelOperand (position : Nat) (symbol : Symbol) (shape : List Nat) (expected : OperandType)
  deriving DecidableEq, Repr

def ShapeConflict.message : ShapeConflict → String
  | .notBroadcastable shapes =>
    "operands could not be broadcast together with shapes " ++ Text.shapeList shapes
  | .rankBelowCore position rank core =>
    "operand " ++ toString position ++ " has " ++ toString rank ++
      " dimension(s) but its core (" ++ String.intercalate "," core ++ ") needs " ++
      toString core.length
  | .coreSize name position size expected =>
    "core dimension '" ++ name ++ "' of operand " ++ toString position ++ " has size " ++
      toString size ++ ", expected " ++ toString expected
  | .operandCount expected found =>
    "expected " ++ toString expected ++ " operands, found " ++ toString found
  | .outputNotArray => "output operand must be an array"
  | .outputShape outer broadcast =>
    "output outer shape " ++ Text.indexList outer ++ " does not match broadcast shape " ++
      Text.indexList broadcast
  | .noElement position index =>
    "operand " ++ toString position ++ " has no element at " ++ Text.indexList index
  | .kernelOperand position symbol shape expected =>
    "operand " ++ toString position ++ " of " ++ symbol.display ++ " has shape " ++
      Text.indexList shape ++ ", kernel expects " ++ expected.display

/-- Why a call site cannot be typed or lowered. -/
inductive TypingConflict where
  | keyword (function name : String)
  | argumentCount (inputs found : Nat)
  | noTemplate (key : FunctionKey)
  | noLowering (key : FunctionKey)
  | noLoweringFor (key : FunctionKey) (arguments : Nat)
  | dropped
  | described (text : String)
  deriving DecidableEq, Repr

def TypingConflict.message : TypingConflict → String
  | .keyword function name =>
    "<dyngufunc '" ++ function ++ "'> does not accept keyword argument '" ++ name ++
      "' at typed call sites"
  | .argumentCount inputs found =>
    "expected " ++ toString inputs ++ " inputs and an optional output, got " ++ toString found ++
      " arguments"
  | .noTemplate key => "no typing template for " ++ key.display
  | .noLowering key => "no lowering registered for " ++ key.display
  | .noLoweringFor key n =>
    "no lowering of " ++ key.display ++ " accepts " ++ toString n ++ " argument(s)"
  | .dropped => "gufunc has been dropped"
  | .described text => text

inductive Error where
  | signature (error : CoreSignature.ParseError)
  /-- Every operand has to be passed, the output included. -/
  | arity (function : String) (expected found : Nat)
  /-- The inputs have to be passed, and the output may be. -/
  | argumentRange (function : String) (inputs found : Nat)
  | noMatch (function : String) (types : List DType)
  | compilation (kernel : String) (signature : CallSignature) (reason : Refusal)
  | unsupportedOperand (position : Nat) (type : OperandType)
  | shapeConflict (conflict : ShapeConflict)
  | missingOutput (function dimension : String)
  | kernel (text : String)
  | cast (source target : OperandType)
  | shape (error : ShapeError)
  | nothingToFreeze (function : String)
  | unknownKernel (name : String)
  | kernelConflict (name : String)
  | typing (conflict : TypingConflict)
  /-- A state that cannot be read, or the file it should be in. -/
  | serialization (text : String)
  deriving DecidableEq, Repr

namespace Error

/-- Number of operands that a call needs, and how many it got. -/
def operandCounts? : Error → Option (Nat × Nat)
  | .arity _ expected found => some (expected, found)
  | .argumentRange _ inputs found => some (inputs + 1, found)
  | _ => none

/-- Name of the kind of error. -/
def kind : Error → String
  | .signature _ => "SignatureParse"
  | .arity .. | .argumentRange .. => "Arity"
  | .noMatch .. => "NoMatchingSpecialization"
  | .compilation .. => "Compilation"
  | .unsupportedOperand .. => "UnsupportedOperand"
  | .shapeConflict _ => "ShapeMismatch"
  | .missingOutput .. => "MissingOutput"
  | .kernel _ => "Kernel"
  | .cast .. => "Cast"
  | .shape _ => "Shape"
  | .nothingToFreeze _ => "FreezeWithoutSpecializations"
  | .unknownKernel _ => "UnknownKernel"
  | .kernelConflict _ => "KernelConflict"
  | .typing _ => "Typing"
  | .serialization _ => "Serialization"

def message : Error → String
  | .signature e => e.message
  | .arity function expected found =>
    "Wrong number of arguments for function '" ++ function ++ "' (expected " ++
      toString expected ++ ", got " ++ toString found ++ "). " ++
      "Note that the pattern \x60out = gufunc(Arg1, Arg2, ..., ArgN)\x60 is not allowed. " ++
      "Use \x60gufunc(Arg1, Arg2, ..., ArgN, out)\x60 instead."
  | .argumentRange function inputs found =>
    function ++ "() takes from " ++ toString inputs ++ " to " ++ toString (inputs + 1) ++
      " arguments but " ++ toString found ++ " were given"
  | .noMatch function types =>
    "cannot call " ++ function ++ " with element-wise types (" ++
      String.intercalate ", " (types.map DType.name) ++ "): no matching specialization"
  | .compilation name types reason =>
    "failed to compile '" ++ name ++ "' for " ++ types.display ++ ": " ++ reason.message
  | .unsupportedOperand position type =>
    "operand " ++ toString position ++ " of type " ++ type.display ++
      " has no numeric element type"
  | .shapeConflict c => "shape mismatch: " ++ c.message
  | .missingOutput function dimension =>
    "output dimension '" ++ dimension ++ "' of " ++ function ++ " is not bound by any input"
  | .kernel text => "kernel error: " ++ text
  | .cast source target =>
    "cannot cast value from " ++ source.display ++ " to " ++ target.display
  | .shape e => e.message
  | .nothingToFreeze function =>
    "cannot disable compilation of " ++ function ++ ": no specialization has been compiled"
  | .unknownKernel name => "kernel '" ++ name ++ "' is not registered in the kernel library"
  | .kernelConflict name => "a different kernel body is already registered as '" ++ name ++ "'"
  | .typing c => "typing failed: " ++ c.message
  | .serialization text => "failed to (de)serialize gufunc state: " ++ text

end Error

end Corewise
