import Corewise.OperandType
import Corewise.Options
/-!
Snapshots of functions: all that is needed to make a function again, apart from the body of its
kernel, which is found by its name.
-/

namespace Corewise

structure Snapshot where
  kernel : String
  signature : String
  identity : Identity
  cache : Bool
  isDynamic : Bool
  options : Options
  writableArgs : List Nat
  /-- Call signatures of the specializations, in order. -/
  specializations : List CallSignature
  frozen : Bool
  deriving DecidableEq, Repr

end Corewise
