import Corewise.Memory
/-!
Kernels. A kernel body is told the types and shapes of its operands and then reads and writes their
elements one at a time, so it reaches nothing but its operands and never changes their types or
shapes. A native body is handed the operands themselves, an object body is handed boxes with the
operands in them.
-/

namespace Corewise

/-- What a body knows of an operand before it starts. -/
inductive OperandView where
  | scalar (value : Scalar)
  | array (dtype : DType) (shape : List Nat)
  deriving DecidableEq

def Contents.view : Contents → OperandView
  | .scalar s => .scalar s
  | .array b => .array b.dtype b.shape

def Memory.view (m : Memory) (operand : Value) : OperandView := (m.contents operand).view

/-- A boxed operand; an empty box holds nothing. -/
inductive Object where
  | none
  | value (operand : Value)
  deriving DecidableEq

namespace Object

/-- Puts an operand into a box. An array in a box is the array itself, not a copy. -/
def box (operand : Value) : Object := .value operand

def unbox? : Object → Option Value
  | none => .none
  | value operand => some operand

end Object

/-- What a body does. Operands and their elements are numbered from 0; reading beyond the end gives
nothing, and writing there is refused. -/
inductive Program where
  | done
  | fail (text : String)
  | read (operand offset : Nat) (next : Option Scalar → Program)
  | write (operand offset : Nat) (value : Scalar) (next : Bool → Program)

namespace Program

/-- Runs a program on operands that are found by their numbers; the result is the memory and the
error text, if any. -/
def run (operand? : Nat → Option Value) : Program → Memory → Option String × Memory
  | done, m => (none, m)
  | fail text, m => (some text, m)
  | read i offset next, m =>
    match operand? i with
    | some (.array r) => (next ((m.buffer r).getFlat? offset)).run operand? m
    | _ => (next none).run operand? m
  | write i offset value next, m =>
    match operand? i with
    | some (.array r) =>
      match (m.buffer r).setFlat offset value with
      | .ok b => (next true).run operand? (m.store r b)
      | .error _ => (next false).run operand? m
    | _ => (next false).run operand? m

end Program

/-- How an entry point takes its operands. -/
inductive Convention where
  | native | object
  deriving DecidableEq, Repr

def Convention.name : Convention → String
  | native => "Native"
  | object => "Object"

abbrev NativeBody := List OperandView → Program

/-- A body whose operands are boxed. -/
abbrev ObjectBody := List (Option OperandView) → Program

inductive Body where
  | native (body : NativeBody)
  | object (body : ObjectBody)

namespace Body

def convention : Body → Convention
  | native _ => .native
  | object _ => .object

/-- What is in every box, if none is empty. -/
def unbox? (boxes : List (Option OperandView)) : Option (List OperandView) := boxes.mapM id

/-- A native body as an object body that fails with `text` on an empty box. -/
def boxed (text : String) (body : NativeBody) : ObjectBody := fun boxes =>
  match unbox? boxes with
  | some views => body views
  | none => .fail text

/-- What a body does to operands. The operands of an object body are boxed first, and it reaches them
by unboxing. -/
def effect (body : Body) (operands : List Value) (m : Memory) : Option String × Memory :=
  match body with
  | native body => (body (operands.map m.view)).run (operands[·]?) m
  | object body =>
    let boxes := operands.map Object.box
    (body (boxes.map fun box => box.unbox?.map m.view)).run (fun i => boxes[i]?.bind Object.unbox?) m

/-- Calls a body on operands. -/
def call (body : Body) (operands : List Value) : Action Unit := do
  let m ← get
  let (failure, m) := body.effect operands (m.invoked operands)
  set m
  match failure with
  | none => return ()
  | some text => throw (.kernel text)

end Body

/-- A kernel with its name. -/
structure Kernel where
  name : String
  doc : Option String
  body : Body
  /-- Tells bodies apart that were written separately. -/
  identity : Nat

namespace Kernel

def isObject (k : Kernel) : Bool := k.body.convention = .object

/-- Whether both kernels have the body that was written once. -/
def sameBody (a b : Kernel) : Bool := a.isObject == b.isObject && a.identity == b.identity

def debug (k : Kernel) : String :=
  Text.record "KernelBody"
    [("name", Text.quote k.name), ("object_mode", if k.isObject then "true" else "false")]

end Kernel

end Corewise
