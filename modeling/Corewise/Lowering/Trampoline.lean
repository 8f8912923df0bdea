import Corewise.Compiler
import Corewise.Lowering.Module
/-!
Trampolines between the elements of a loop and a compiled kernel. A trampoline casts the elements
to the types that the kernel was compiled for, calls the entry point, and copies what the kernel
wrote to converted copies back.
-/

namespace Corewise.Lowering

structure Trampoline where
  /-- Types of the elements. -/
  outer : CallSignature
  /-- Types of the kernel's operands. -/
  inner : CallSignature
  symbol : Symbol
  entry : Body
  /-- Operands whose converted copies are written back, one flag for each. -/
  writable : List Bool
  boundsCheck : Bool

namespace Trampoline

def convention (t : Trampoline) : Convention := t.entry.convention

/-- Type of an entry point: the operands themselves, or boxes and a box for the result. -/
def functionType (a : Artifact) : FunctionType :=
  match a.convention with
  | .native => ⟨a.signature.returnType, a.signature.args⟩
  | .object => ⟨.object, a.signature.args.map fun _ => .object⟩

/-- The flags cut or filled up to `count`; the last operand is the output and always written
back. -/
def writableFlags (count : Nat) (flags : List Bool) : List Bool :=
  (List.range count).map fun i => i + 1 == count || flags.getD i false

/-- The trampoline from elements of types `outer` to an artifact. -/
def of (outer : CallSignature) (a : Artifact) (writable : List Bool) (boundsCheck : Bool) :
    Trampoline :=
  ⟨outer, a.signature, a.symbol, a.entry, writableFlags a.signature.args.length writable,
    boundsCheck⟩

/-- The module with what a trampoline to the artifact needs. -/
def declareIn (m : Module) (a : Artifact) : Module :=
  (m.link a.library).declare a.symbol (functionType a) [.alwaysInline]

/-- Whether an operand has the rank that the kernel expects. -/
def fits (operand : Contents) (expected : OperandType) : Bool :=
  match operand, expected with
  | .array b, .array _ rank _ => b.rank == rank
  | .scalar _, .scalar _ => true
  | _, .any => true
  | _, .object => true
  | _, _ => false

/-- The first operand without the expected rank. -/
def rankConflict? (t : Trampoline) (operands : List Contents) : Option ShapeConflict :=
  ((operands.zip t.inner.args).zipIdx.find? fun p => !fits p.1.1 p.1.2).map fun p =>
    .kernelOperand p.2 t.symbol p.1.1.shape p.1.2

/-- Copies a converted array back to the array it was made from. -/
def writeBack (p : (Value × Value) × Bool) : Action Unit :=
  match p with
  | ((.array target, .array converted), true) => Action.assign target [] converted
  | _ => return ()

/-- Runs the kernel on the operands of one element. -/
def call (t : Trampoline) (args : List Value) : Action Unit := do
  if args.length ≠ t.inner.args.length then
    throw (.arity t.symbol.display t.inner.args.length args.length)
  if t.boundsCheck then
    match t.rankConflict? ((← get).contentsOf args) with
    | some conflict => throw (.shapeConflict conflict)
    | none => pure ()
  let converted ← (args.zip (t.outer.args.zip t.inner.args)).mapM fun p =>
    Action.castTo p.1 p.2.1 p.2.2
  t.entry.call converted
  ((args.zip converted).zip t.writable).forM writeBack

def debug (t : Trampoline) : String :=
  Text.record "KernelTrampoline" [("symbol", Text.quote t.symbol.display),
    ("outer", Text.quote t.outer.display), ("inner", Text.quote t.inner.display),
    ("convention", t.convention.name)]

end Trampoline

end Corewise.Lowering
