import Corewise.Loop.Plan
/-!
Running a loop. Each iteration copies the addressed cores of all operands into a memory of its own,
lets the kernel work there, and copies the output and the writable inputs back. A kernel that fails
ends the loop, and nothing of its iteration is copied back.
-/

namespace Corewise.Loop

/-- What the loop calls with the elements of one iteration. -/
abbrev Callee := List Value → Action Unit

/-- How an iteration addresses an operand. -/
structure Access where
  position : Nat
  /-- Core rank of the operand. -/
  rank : Nat
  isOutput : Bool
  /-- Whether the kernel's writes are copied back. -/
  writable : Bool
  /-- Outer index into the operand. -/
  index : List Nat
  deriving DecidableEq, Repr

/-- How the iteration numbered `flat` addresses all operands. -/
def accesses (signature : CoreSignature) (plan : Plan) (writable : List Bool) (flat : Nat) :
    List Access :=
  let index := Shape.unravel flat plan.outer
  (plan.operandOuter.zip signature.ranks).zipIdx.map fun ((outer, rank), position) =>
    let isOutput := position == signature.arity
    { position, rank, isOutput
      writable := isOutput || writable.getD position false
      index := Shape.project index outer }

/-- An output without core axes is carried by an array of length one. -/
def carrier (dtype : DType) (s : Scalar) : Buffer := ⟨dtype, [1], [s.cast dtype]⟩

/-- A copy of the addressed core of an operand. -/
def element (m : Memory) (a : Access) : Value → Except Error Contents
  | .scalar s => .ok (.scalar s)
  | .array r =>
    let b := m.buffer r
    if a.rank = 0 then
      match b.get? a.index with
      | some s => .ok (if a.isOutput then .array (carrier b.dtype s) else .scalar s)
      | none => .error (.shapeConflict (.noElement a.position a.index))
    else ((b.slice a.index).mapError Error.shape).map .array

/-- Operands in a memory, with a fresh array for each. -/
def place : List Contents → Memory → List Value × Memory
  | [], m => ([], m)
  | .scalar s :: rest, m =>
    let (values, m) := place rest m
    (.scalar s :: values, m)
  | .array b :: rest, m =>
    let (r, m) := m.alloc b
    let (values, m) := place rest m
    (.array r :: values, m)

/-- What a kernel makes of elements. -/
structure Outcome where
  result : Except Error Unit
  /-- The elements when it is done. -/
  after : List Contents
  /-- The invocations it notes. -/
  noted : List (List Contents)

/-- A kernel at work on copies, in a memory that holds nothing else. -/
def outcome (callee : Callee) (elements : List Contents) : Outcome :=
  let (values, frame) := place elements .empty
  let (result, frame) := (callee values).run frame
  ⟨result, frame.contentsOf values, frame.invocations⟩

/-- Copies the element that the kernel was handed back to its operand. -/
def put (a : Access) (operand : Value) (element : Contents) : Action Unit :=
  match operand, element with
  | .array target, .array core =>
    if a.writable then
      if a.isOutput ∧ a.rank = 0 then
        Action.update target fun b => b.set a.index ((core.getFlat? 0).getD (Scalar.zero b.dtype))
      else
        Action.update target (·.assign a.index core)
    else return ()
  | _, _ => return ()

/-- The operands with how an iteration addresses them. -/
def addressed (signature : CoreSignature) (plan : Plan) (operands : List Value)
    (writable : List Bool) (flat : Nat) : List (Value × Access) :=
  operands.zip (accesses signature plan writable flat)

/-- One iteration. -/
def iterate (signature : CoreSignature) (plan : Plan) (operands : List Value)
    (writable : List Bool) (callee : Callee) (flat : Nat) : Action Unit := do
  let m ← get
  let addressed := addressed signature plan operands writable flat
  let elements ← Action.ofExcept (addressed.mapM fun p => element m p.2 p.1)
  let made := outcome callee elements
  set (m.noting made.noted)
  Action.ofExcept made.result
  (addressed.zip made.after).forM fun t => put t.1.2 t.1.1 t.2

/-- The iterations numbered in `order`, one after the other up to the first that fails. -/
def runOrder (signature : CoreSignature) (plan : Plan) (operands : List Value)
    (writable : List Bool) (callee : Callee) (order : List Nat) : Action Unit :=
  order.forM (iterate signature plan operands writable callee)

/-- All iterations in ascending order. -/
def run (signature : CoreSignature) (plan : Plan) (operands : List Value)
    (writable : List Bool) (callee : Callee) : Action Unit :=
  runOrder signature plan operands writable callee (List.range plan.iterations)

end Corewise.Loop
