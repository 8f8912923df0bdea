import Corewise.LoopTable
import Corewise.Lifecycle
import Corewise.Snapshot
/-!
Functions whose loop table grows at call time. A dynamic, open function compiles a specialization
for element types that no loop accepts, renews its table and calls through it; a static or frozen
one only ever calls through the table it has.
-/

namespace Corewise

structure DynamicFunction where
  key : FunctionKey
  doc : Option String
  /-- The core signature as it was written. -/
  signatureText : String
  identity : Identity
  cache : Bool
  writableArgs : List Nat
  registry : Registry
  lifecycle : Lifecycle
  table : LoopTable
  /-- Trampolines made since the table was last renewed. -/
  pass : Lowering.Pass

/-- A function with the compiler and the memory that it works on. -/
structure Machine where
  function : DynamicFunction
  engine : Engine
  memory : Memory

/-- A step of a function. -/
abbrev Step (α : Type) := ExceptT Error (StateM Machine) α

namespace DynamicFunction

def name (f : DynamicFunction) : String := f.key.name

def arity (f : DynamicFunction) : Nat := f.table.arity

def display (f : DynamicFunction) : String := "<dyngufunc '" ++ f.name ++ "'>"

def debug (f : DynamicFunction) : String :=
  Text.record "Gufunc" [("name", Text.quote f.name), ("signature", Text.quote f.signatureText),
    ("specializations", toString f.registry.entries.length),
    ("frozen", if f.lifecycle.isFrozen then "true" else "false")]

/-- The function with a table of all its specializations. -/
def renewTable (f : DynamicFunction) : DynamicFunction :=
  { f with
    table := .ofRegistry f.name f.registry f.identity f.writableArgs
    pass := .empty f.name }

/-- A function without specializations. -/
def new (key : FunctionKey) (recipe : Recipe) (signatureText : String) (identity : Identity)
    (cache : Bool) (writableArgs : List Nat) (mode : Dispatch.Mode) : DynamicFunction :=
  { key, doc := recipe.kernel.doc, signatureText, identity, cache, writableArgs
    registry := .empty recipe
    lifecycle := .new mode
    table := .ofRegistry key.name (.empty recipe) identity writableArgs
    pass := .empty key.name }

/-- The specialization for element types: one with exactly these types, or once frozen any that
accepts them. -/
def specialization? (f : DynamicFunction) (query : List DType) : Option Specialization :=
  if f.lifecycle.isFrozen then (f.registry.findCompatible? query).map (·.2)
  else f.registry.find? query

def snapshot (f : DynamicFunction) : Snapshot :=
  { kernel := f.name
    signature := f.signatureText
    identity := f.identity
    cache := f.cache
    isDynamic := f.lifecycle.isDynamic
    options := f.registry.recipe.options
    writableArgs := f.writableArgs
    specializations := f.registry.signatures
    frozen := f.lifecycle.isFrozen }

end DynamicFunction

namespace Step

def ofExcept {α : Type} (r : Except Error α) : Step α := ExceptT.mk (pure r)

/-- A step through the current table. -/
def onTable {α : Type} (body : LoopTable → Execute α) : Step α := ExceptT.mk fun s =>
  let (result, e) := (body s.function.table).run ⟨s.function.pass, s.memory⟩
  (result, { s with function := { s.function with pass := e.pass }, memory := e.memory })

/-- A step of the registry and the compiler. -/
def onRegistry {α : Type} (body : Registry → Engine → Except Error α × Registry × Engine) :
    Step α := ExceptT.mk fun s =>
  let (result, registry, engine) := body s.function.registry s.engine
  (result, { s with function := { s.function with registry }, engine })

/-- Changes the function. -/
def modifyFunction (f : DynamicFunction → DynamicFunction) : Step Unit :=
  modify fun s => { s with function := f s.function }

end Step

namespace DynamicFunction

/-- Compiles a call signature. The table is not renewed. -/
def add (call : CallSignature) : Step Unit := do
  let _ ← Step.onRegistry fun registry engine => registry.insert call engine

/-- Renews the table. -/
def buildTable : Step Unit := Step.modifyFunction renewTable

/-- Freezes the function; one without specializations cannot be frozen. -/
def disableCompile : Step Unit := do
  let f := (← get).function
  match f.lifecycle.freeze f.registry.entries.length with
  | some lifecycle => Step.modifyFunction ({ · with lifecycle })
  | none => throw (.nothingToFreeze f.name)

/-- Calls the function. Static and frozen functions may be called without the output. The output
is the result. -/
def call (args : List Value) (out : Option Value) : Step Value := do
  let s ← get
  let f := s.function
  if f.lifecycle.isFixed then
    Step.onTable fun table => table.call args out
  else
    let operands := args ++ out.toList
    let expected := f.arity + 1
    if operands.length ≠ expected then throw (.arity f.name expected operands.length)
    let query := s.memory.dtypes operands
    if (f.table.select? query).isNone then
      let _ ← Step.onRegistry fun registry engine =>
        registry.resolve f.name query false true engine
      buildTable
    Step.onTable fun table => table.call operands none

/-- Types a call site, compiling what it needs unless the function is frozen. The call has the
types of its arguments and returns nothing. -/
def typeCall (types : List OperandType) (keywords : List (String × OperandType)) :
    Step CallSignature := do
  let f := (← get).function
  match keywords with
  | (name, _) :: _ => throw (.typing (.keyword f.name name))
  | [] => pure ()
  let query ← Step.ofExcept (Dispatch.siteTypes f.arity types)
  if (f.specialization? query).isNone then
    let frozen := f.lifecycle.isFrozen
    let resolution ← Step.onRegistry fun registry engine =>
      registry.resolve f.name query frozen (!frozen) engine
    if resolution.kind = .compiled then buildTable
  return .void types

/-- Runs a call site that has been typed. The output is the result, and is allocated when it is
not passed. -/
def lowerCall (args : List Value) : Step Value := do
  let s ← get
  let query := s.memory.dtypes args
  match s.function.specialization? query with
  | none => throw (.noMatch s.function.name query)
  | some loop => Step.onTable fun table => table.executeWith args loop

end DynamicFunction

end Corewise
