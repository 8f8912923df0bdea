import Corewise.Error
/-!
Memory of array buffers. An array value is a reference, so two values may name one buffer, and a
write through one shows through the other. The memory also lists what each kernel invocation was
handed. Where iterations run at the same time, nothing says which of them comes when; so that the
outcome is nevertheless a function of the memory, it has a schedule for each such run.
-/

namespace Corewise

/-- Position of a buffer in memory. -/
abbrev Ref := Nat

/-- An operand: a scalar, or a reference to an array. -/
inductive Value where
  | scalar (value : Scalar)
  | array (ref : Ref)
  deriving DecidableEq

/-- What an operand holds at some moment. -/
inductive Contents where
  | scalar (value : Scalar)
  | array (buffer : Buffer)
  deriving DecidableEq

/-- How iterations that run at the same time take turns. -/
structure Schedule where
  /-- Numbers of iterations, each of which takes a step in its turn. -/
  turns : List Nat
  /-- Which failure is reported when several have failed. -/
  report : Nat
  deriving Inhabited

structure Memory where
  buffers : List Buffer
  /-- Operands of the kernel invocations so far, as they were on entry. -/
  invocations : List (List Contents)
  /-- What will be chosen, by the number of invocations before. No action changes it. -/
  schedules : Nat → Schedule

/-- A step that changes memory and may fail; what it wrote before failing stays written. -/
abbrev Action (α : Type) := ExceptT Error (StateM Memory) α

namespace Contents

/-- Scalars have no axes. -/
def shape : Contents → List Nat
  | scalar _ => []
  | array b => b.shape

def dtype : Contents → DType
  | scalar s => s.dtype
  | array b => b.dtype

def isArray : Contents → Bool
  | scalar _ => false
  | array _ => true

/-- Type of a raw operand; arrays are in row-major order. -/
def type : Contents → OperandType
  | scalar s => .scalar s.dtype
  | array b => .array b.dtype b.rank .c

end Contents

namespace Memory

/-- These arrays, and no invocation so far. -/
def holding (buffers : List Buffer) : Memory := ⟨buffers, [], fun _ => default⟩

def empty : Memory := .holding []

def buffer (m : Memory) (r : Ref) : Buffer := m.buffers.getD r default

def store (m : Memory) (r : Ref) (b : Buffer) : Memory :=
  { m with buffers := m.buffers.set r b }

/-- Puts a buffer into a fresh place. -/
def alloc (m : Memory) (b : Buffer) : Ref × Memory :=
  (m.buffers.length, { m with buffers := m.buffers ++ [b] })

def contents (m : Memory) : Value → Contents
  | .scalar s => .scalar s
  | .array r => .array (m.buffer r)

def contentsOf (m : Memory) (values : List Value) : List Contents := values.map m.contents

def shape (m : Memory) (v : Value) : List Nat := (m.contents v).shape

/-- Equality of arrays: an array equals itself, whatever its elements are. -/
def sameArray (m : Memory) (a b : Ref) : Bool := a == b || (m.buffer a).sameValue (m.buffer b)

/-- The schedule for what runs next. -/
def schedule (m : Memory) : Schedule := m.schedules m.invocations.length

/-- The memory with these invocations behind the ones before. -/
def noting (m : Memory) (noted : List (List Contents)) : Memory :=
  { m with invocations := m.invocations ++ noted }

/-- Notes one more invocation with these operands. -/
def invoked (m : Memory) (operands : List Value) : Memory := m.noting [m.contentsOf operands]

end Memory

namespace Action

def ofExcept {α : Type} (r : Except Error α) : Action α := ExceptT.mk (pure r)

def ofShape {α : Type} (r : Except ShapeError α) : Action α :=
  ofExcept (r.mapError Error.shape)

/-- Allocates an array. -/
def newArray (b : Buffer) : Action Value := do
  let (r, m) := (← get).alloc b
  set m
  return .array r

/-- Replaces the buffer of an array by what `f` makes of it. -/
def update (r : Ref) (f : Buffer → Except ShapeError Buffer) : Action Unit := do
  let b ← ofShape (f ((← get).buffer r))
  modify (·.store r b)

/-- Writes the elements of `source` over a sub-array of `target`. An array is not written over
itself. -/
def assign (target : Ref) (index : List Nat) (source : Ref) : Action Unit := do
  if target ≠ source then
    let b := (← get).buffer source
    update target (·.assign index b)

end Action

end Corewise
