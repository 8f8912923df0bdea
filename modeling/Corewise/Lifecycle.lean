/-!
Lifecycles of functions. Whether calls may compile is fixed when a function is made; a function
that may is open until it is frozen, and never opens again.
-/

namespace Corewise

inductive Dispatch.Mode where
  | static | dynamic
  deriving DecidableEq, Repr

def Dispatch.Mode.title : Dispatch.Mode → String
  | .static => "Static"
  | .dynamic => "Dynamic"

inductive Phase where
  | opened
  /-- Frozen when there were this many specializations, at least one. -/
  | frozen (specializations : Nat)
  deriving DecidableEq, Repr

def Phase.display : Phase → String
  | .opened => "Open"
  | .frozen n => "Frozen \x7b specializations: " ++ toString n ++ " \x7d"

structure Lifecycle where
  mode : Dispatch.Mode
  phase : Phase
  deriving DecidableEq, Repr

namespace Lifecycle

def new (mode : Dispatch.Mode) : Lifecycle := ⟨mode, .opened⟩

def isDynamic (l : Lifecycle) : Bool := l.mode = .dynamic

def isFrozen (l : Lifecycle) : Bool :=
  match l.phase with
  | .opened => false
  | .frozen _ => true

/-- Calls go straight to the loop table. -/
def isFixed (l : Lifecycle) : Bool := l.isFrozen || !l.isDynamic

/-- Freezes with at least one specialization, and without any changes nothing. -/
def freeze (l : Lifecycle) (specializations : Nat) : Option Lifecycle :=
  if specializations = 0 then none else some { l with phase := .frozen specializations }

end Lifecycle

end Corewise
