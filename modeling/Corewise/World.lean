import Corewise.Context
import Corewise.CoreSignature.Parser
import Corewise.DynamicFunction
import Corewise.Kernel.Library
/-!
Worlds of functions. Making a function registers its kernel in the world's library and installs a
typing rule and implementations under the function's key; they stay for as long as some handle to
the function is alive.
-/

namespace Corewise

/-- Number of a compiler; functions that share one share its counters. -/
abbrev EngineRef := Nat

/-- A function with its compiler and the number of handles to it. -/
structure LiveFunction where
  function : DynamicFunction
  engine : EngineRef
  handles : Nat

structure World where
  memory : Memory
  engines : List Engine
  library : KernelLibrary
  /-- Functions to which a handle is alive, the oldest first. -/
  functions : List LiveFunction
  /-- Typing rules; a function's own is named by its key. -/
  typing : TypingContext FunctionKey
  target : TargetContext FunctionKey
  /-- Serial number of the next function key. -/
  nextSerial : Nat

/-- What a function is made from. -/
structure Blueprint where
  kernel : Kernel
  signature : String
  mode : Dispatch.Mode
  identity : Identity
  cache : Bool
  options : Options
  writableArgs : List Nat

namespace World

def empty : World := ⟨.empty, [], .empty, [], .empty, .empty, 1⟩

/-- A compiler that nothing uses yet. -/
def newEngine (w : World) : EngineRef × World :=
  (w.engines.length, { w with engines := w.engines ++ [.fresh] })

def engine (w : World) (r : EngineRef) : Engine := w.engines.getD r .fresh

def setEngine (w : World) (r : EngineRef) (e : Engine) : World :=
  { w with engines := w.engines.set r e }

/-- A key that no function has. -/
def newKey (w : World) (name : String) : FunctionKey × World :=
  (⟨name, w.nextSerial⟩, { w with nextSerial := w.nextSerial + 1 })

def find? (w : World) (key : FunctionKey) : Option LiveFunction :=
  w.functions.find? fun l => l.function.key = key

/-- Replaces the function with this key. -/
def replace (w : World) (key : FunctionKey) (live : LiveFunction) : World :=
  { w with functions := w.functions.map fun l => if l.function.key = key then live else l }

/-- A typing rule and implementations for both forms of calls. -/
def installHooks (w : World) (key : FunctionKey) (arity : Nat) : World :=
  { w with
    typing := w.typing.insert key key
    target := (Lowering.CallShape.forms arity).foldl (fun c shape => c.insert key shape key)
      w.target }

/-- Makes a function with one handle. Neither a bad signature nor a kernel name that is taken
changes anything. -/
def build (w : World) (b : Blueprint) (engine : EngineRef) : Except Error (FunctionKey × World) :=
  match CoreSignature.parse b.signature with
  | .error e => .error (.signature e)
  | .ok signature =>
    match w.library.register b.kernel with
    | .error e => .error e
    | .ok library =>
      let (key, w) := newKey { w with library } b.kernel.name
      let recipe : Recipe := ⟨b.kernel, signature, b.options⟩
      let function :=
        DynamicFunction.new key recipe b.signature b.identity b.cache b.writableArgs b.mode
      let live : LiveFunction := ⟨function, engine, 1⟩
      let w := { w with functions := w.functions ++ [live] }
      .ok (key, w.installHooks key signature.arity)

/-- One more handle to a function. -/
def clone (w : World) (key : FunctionKey) : World :=
  match w.find? key with
  | some live => w.replace key { live with handles := live.handles + 1 }
  | none => w

/-- Gives up a handle. With the last one the function goes, and so do its rule and its
implementations. -/
def drop (w : World) (key : FunctionKey) : World :=
  match w.find? key with
  | none => w
  | some live =>
    if 1 < live.handles then w.replace key { live with handles := live.handles - 1 }
    else
      { w with
        functions := w.functions.filter fun l => l.function.key ≠ key
        typing := w.typing.remove key
        target := w.target.remove key }

/-- Lets a function take a step. -/
def step {α : Type} (w : World) (key : FunctionKey) (body : Step α) : Except Error α × World :=
  match w.find? key with
  | none => (.error (.typing .dropped), w)
  | some live =>
    let (result, s) := body.run ⟨live.function, w.engine live.engine, w.memory⟩
    (result, { (w.replace key { live with function := s.function }).setEngine live.engine s.engine with
      memory := s.memory })

/-- Runs an action on the memory. -/
def act {α : Type} (w : World) (a : Action α) : Except Error α × World :=
  let (result, memory) := a.run w.memory
  (result, { w with memory })

/-- Runs a call through a loop table that no function owns. -/
def callTable (w : World) (table : LoopTable) (pass : Lowering.Pass) (args : List Value)
    (out : Option Value) : (Except Error Value × Lowering.Pass) × World :=
  let (result, e) := (table.call args out).run ⟨pass, w.memory⟩
  ((result, e.pass), { w with memory := e.memory })

/-- Compiles and counts on one of the compilers. -/
def onEngine {α : Type} (w : World) (r : EngineRef) (body : Engine → α × Engine) : α × World :=
  let (result, e) := body (w.engine r)
  (result, w.setEngine r e)

/-- The steps that bring a new function to where a snapshot was taken. -/
def restore (s : Snapshot) : Step Unit := do
  s.specializations.forM DynamicFunction.add
  DynamicFunction.buildTable
  if s.frozen then DynamicFunction.disableCompile

/-- Makes the function of a snapshot again, with the kernel that `library` has under its name. A
failure on the way leaves no function behind. -/
def rebuild (w : World) (s : Snapshot) (library : KernelLibrary) (engine : EngineRef) :
    Except Error FunctionKey × World :=
  match library.find? s.kernel with
  | none => (.error (.unknownKernel s.kernel), w)
  | some kernel =>
    let mode := if s.isDynamic then Dispatch.Mode.dynamic else .static
    match w.build ⟨kernel, s.signature, mode, s.identity, s.cache, s.options, s.writableArgs⟩
        engine with
    | .error e => (.error e, w)
    | .ok (key, w) =>
      match w.step key (restore s) with
      | (.ok _, w) => (.ok key, w)
      | (.error e, w) => (.error e, w.drop key)

/-- Types a call through the typing rule of a function. -/
def resolveType (w : World) (key : FunctionKey) (types : List OperandType)
    (keywords : List (String × OperandType)) : Except Error CallSignature × World :=
  match w.typing.resolve key with
  | .error e => (.error e, w)
  | .ok rule => w.step rule (DynamicFunction.typeCall types keywords)

/-- Runs a call through the implementation of a function for its shape. -/
def lowerCall (w : World) (key : FunctionKey) (args : List Value) : Except Error Value × World :=
  match w.target.resolve key (w.memory.contentsOf args) with
  | .error e => (.error e, w)
  | .ok target => w.step target (DynamicFunction.lowerCall args)

end World

end Corewise
