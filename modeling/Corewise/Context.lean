import Corewise.Lowering.CallShape
/-!
Contexts through which functions are called by their keys: typing rules, one for each function, and
implementations, one for each function and call shape. Both are kept in the order of insertion.
-/

namespace Corewise

/-- Typing rules by function. -/
structure TypingContext (α : Type) where
  rules : List (FunctionKey × α)
  deriving Repr

namespace TypingContext

variable {α : Type}

def empty : TypingContext α := ⟨[]⟩

def contains (c : TypingContext α) (key : FunctionKey) : Bool := (c.rules.lookup key).isSome

/-- Removes the rule of a function. -/
def remove (c : TypingContext α) (key : FunctionKey) : TypingContext α :=
  ⟨c.rules.filter fun r => r.1 ≠ key⟩

/-- Gives a function a rule in place of any that it had. -/
def insert (c : TypingContext α) (key : FunctionKey) (rule : α) : TypingContext α :=
  ⟨(c.remove key).rules ++ [(key, rule)]⟩

def resolve (c : TypingContext α) (key : FunctionKey) : Except Error α :=
  match c.rules.lookup key with
  | some rule => .ok rule
  | none => .error (.typing (.noTemplate key))

end TypingContext

/-- Implementations by function and call shape. -/
structure TargetContext (α : Type) where
  definitions : List (FunctionKey × List (Lowering.CallShape × α))
  deriving Repr

namespace TargetContext

variable {α : Type}

def empty : TargetContext α := ⟨[]⟩

/-- Definitions of a function, the first inserted first. -/
def definitionsOf (c : TargetContext α) (key : FunctionKey) : List (Lowering.CallShape × α) :=
  (c.definitions.lookup key).getD []

def shapes (c : TargetContext α) (key : FunctionKey) : List Lowering.CallShape :=
  (c.definitionsOf key).map (·.1)

def remove (c : TargetContext α) (key : FunctionKey) : TargetContext α :=
  ⟨c.definitions.filter fun d => d.1 ≠ key⟩

/-- Adds a definition behind all others of the function, in place of any of its shape. -/
def insert (c : TargetContext α) (key : FunctionKey) (shape : Lowering.CallShape) (target : α) :
    TargetContext α :=
  let kept := (c.definitionsOf key).filter fun d => d.1 ≠ shape
  ⟨(c.remove key).definitions ++ [(key, kept ++ [(shape, target)])]⟩

/-- The first definition of a function whose shape accepts the arguments. -/
def resolve (c : TargetContext α) (key : FunctionKey) (args : List Contents) : Except Error α :=
  match c.definitions.lookup key with
  | none => .error (.typing (.noLowering key))
  | some definitions =>
    match definitions.find? fun d => d.1.accepts args with
    | some d => .ok d.2
    | none => .error (.typing (.noLoweringFor key args.length))

end TargetContext

end Corewise
