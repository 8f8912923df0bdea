import Corewise.Kernel
import Corewise.Options
import Corewise.Dispatch
/-!
Compiling a kernel for a call signature. The signature must fit the core signature: a scalar for an
input without core axes, an array of the core rank for any other, and an array for the output.
-/

namespace Corewise

/-- A kernel compiled for one call signature. -/
structure Artifact where
  symbol : Symbol
  library : String
  signature : CallSignature
  entry : Body

namespace Artifact

def convention (a : Artifact) : Convention := a.entry.convention

def debug (a : Artifact) : String :=
  Text.record "CompiledArtifact" [("symbol", Text.quote a.symbol.display),
    ("library", "LibraryId(" ++ Text.quote a.library ++ ")"),
    ("signature", Text.quote a.signature.display), ("convention", a.convention.name)]

end Artifact

/-- What is compiled from: all but the call signature. -/
structure Recipe where
  kernel : Kernel
  signature : CoreSignature
  options : Options

/-- Counters of one compiler. -/
structure Engine where
  compilations : Nat
  failures : Nat
  deriving DecidableEq, Repr

namespace Engine

def fresh : Engine := ⟨0, 0⟩

end Engine

namespace Compiler

/-- Whether an input of this type fits a core of this rank. -/
def fitsInput (rank : Nat) : OperandType → Bool
  | .scalar _ => rank == 0
  | .array _ r _ => r == rank && rank != 0
  | _ => false

def checkInputs (ranks : List Nat) (args : List OperandType) : Except Refusal Unit :=
  match (args.zip ranks).zipIdx.find? fun p => !fitsInput p.1.2 p.1.1 with
  | some ((type, rank), position) => .error (.inputRank position type rank)
  | none => .ok ()

def checkOutput (rank : Nat) (output : Option OperandType) : Except Refusal Unit :=
  match output with
  | some (.array _ r _) => if r = rank then .ok () else .error (.outputRank rank output)
  | _ => .error (.outputRank rank output)

/-- Whether a call signature fits a core signature, and if not, the first reason. -/
def check (signature : CoreSignature) (call : CallSignature) : Except Refusal Unit := do
  if call.returnType ≠ .none then throw (.returnsValue call.returnType)
  let expected := signature.arity + 1
  if call.args.length ≠ expected then
    throw (.operandCount expected signature call.args.length)
  checkInputs signature.inputRanks call.args
  checkOutput signature.carrierRank call.args.getLast?
  if signature.unboundOutputs ≠ [] then throw (.unboundOutputs signature.unboundOutputs)

/-- The entry point of a kernel under the options. -/
def bind (kernel : Kernel) (options : Options) : Except Refusal Body :=
  match kernel.body with
  | .object body => if options.nativeOnly then .error .objectKernel else .ok (.object body)
  | .native body =>
    if options.forceObject then .ok (.object (Body.boxed "cannot unbox None operand" body))
    else .ok (.native body)

/-- The entry point for a call signature. -/
def entry (recipe : Recipe) (call : CallSignature) : Except Refusal Body := do
  check recipe.signature call
  bind recipe.kernel recipe.options

/-- Compiles and counts. Libraries are numbered by the successful compilations of the engine. -/
def compile (recipe : Recipe) (call : CallSignature) (engine : Engine) :
    Except Error Artifact × Engine :=
  match entry recipe call with
  | .error reason =>
    (.error (.compilation recipe.kernel.name call reason),
      { engine with failures := engine.failures + 1 })
  | .ok entry =>
    let serial := engine.compilations + 1
    (.ok ⟨.compiled recipe.kernel.name call,
        recipe.kernel.name ++ ".lib" ++ toString serial, call, entry⟩,
      { engine with compilations := serial })

end Compiler

end Corewise
