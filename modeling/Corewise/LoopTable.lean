import Corewise.Loop.Team
import Corewise.Lowering.Pass
import Corewise.Registry
/-!
Loop tables: the specializations of a registry at one moment, called by element types. A table
never compiles; it only makes trampolines, and keeps them in a lowering pass.
-/

namespace Corewise

structure LoopTable where
  name : String
  signature : CoreSignature
  identity : Identity
  loops : List Specialization
  /-- Operands that receive the kernel's writes, one flag for each. -/
  writable : List Bool
  options : Options

/-- What a call through a table changes. -/
structure Execution where
  pass : Lowering.Pass
  memory : Memory

abbrev Execute (α : Type) := ExceptT Error (StateM Execution) α

namespace Execute

def onMemory {α : Type} (a : Action α) : Execute α := ExceptT.mk fun e =>
  let (result, memory) := a.run e.memory
  (result, { e with memory })

def ofExcept {α : Type} (r : Except Error α) : Execute α := ExceptT.mk (pure r)

end Execute

namespace LoopTable

/-- The table of all entries of a registry, in their order. -/
def ofRegistry (name : String) (registry : Registry) (identity : Identity)
    (writableArgs : List Nat) : LoopTable :=
  { name
    signature := registry.recipe.signature
    identity
    loops := registry.entries
    writable := (List.range (registry.arity + 1)).map fun i => writableArgs.contains i
    options := registry.recipe.options }

def arity (t : LoopTable) : Nat := t.signature.arity

/-- Type codes of the loops, as in `dd->d`. -/
def codes (t : LoopTable) : List String :=
  t.loops.map fun l => Dispatch.loopCode t.arity l.key

def select? (t : LoopTable) (query : List DType) : Option Specialization :=
  Dispatch.select (Specialization.types t.arity) t.loops t.arity query

/-- Shape of the output for these inputs. -/
def outputShape (t : LoopTable) (m : Memory) (inputs : List Value) : Except Error (List Nat) :=
  Loop.outputShape t.name t.signature (inputs.map m.shape)

/-- A zeroed output for these inputs. -/
def allocate (t : LoopTable) (inputs : List Value) (dtype : DType) : Action Value := do
  let shape ← Action.ofExcept (t.outputShape (← get) inputs)
  Action.newArray (.zeros dtype shape)

/-- Runs a loop over all operands, the output last. -/
def execute (t : LoopTable) (operands : List Value) (loop : Specialization) : Execute Unit := do
  let e ← get
  let plan ← Execute.ofExcept (Loop.plan t.signature (e.memory.contentsOf operands))
  let outer := Loop.elementSignature t.signature (e.memory.dtypes operands)
  let (trampoline, pass) :=
    e.pass.trampoline (outer, loop.key) loop.artifact t.writable t.options.boundsCheck
  set { e with pass }
  Execute.onMemory
    (Loop.runAll t.signature plan operands t.writable trampoline.call t.options.parallel)

/-- Runs a loop over inputs and an output that is allocated when it is not among them. The output
is the result. -/
def executeWith (t : LoopTable) (operands : List Value) (loop : Specialization) :
    Execute Value := do
  let operands ←
    if operands.length = t.arity then
      match (loop.types t.arity).outputs with
      | dtype :: _ =>
        let output ← Execute.onMemory (t.allocate operands dtype)
        pure (operands ++ [output])
      | [] => pure operands
    else pure operands
  t.execute operands loop
  return operands.getD t.arity (.scalar default)

/-- Calls the loop that is selected for the element types of the operands. -/
def call (t : LoopTable) (args : List Value) (out : Option Value) : Execute Value := do
  let operands := args ++ out.toList
  if operands.length ≠ t.arity ∧ operands.length ≠ t.arity + 1 then
    throw (.argumentRange t.name t.arity operands.length)
  let query := (← get).memory.dtypes operands
  match t.select? query with
  | none => throw (.noMatch t.name query)
  | some loop => t.executeWith operands loop

def debug (t : LoopTable) : String :=
  Text.record "Ufunc" [("name", Text.quote t.name),
    ("signature", Text.quote t.signature.render), ("types", Text.quotedList t.codes)]

end LoopTable

end Corewise
