import Corewise.Kernel
/-!
Kernel bodies by name. Numbers are read as `float64`, an element beyond the end as 0.
-/

namespace Corewise.Stock

/-- The operand must be an array; its element type and shape. -/
def withArray (views : List OperandView) (i : Nat) (next : DType → List Nat → Program) :
    Program :=
  match views[i]? with
  | some (.array dtype shape) => next dtype shape
  | _ => .fail ("operand " ++ toString i ++ " is not an array")

def withScalar (views : List OperandView) (i : Nat) (next : Scalar → Program) : Program :=
  match views[i]? with
  | some (.scalar s) => next s
  | _ => .fail ("operand " ++ toString i ++ " is not a scalar")

def readFloat (operand offset : Nat) (next : Float → Program) : Program :=
  .read operand offset fun s => next ((s.map Scalar.toFloat).getD 0)

/-- Writes an element; beyond the end the program fails. -/
def put (operand : Nat) (shape : List Nat) (offset : Nat) (value : Scalar) (next : Program) :
    Program :=
  .write operand offset value fun written =>
    if written then next else .fail (ShapeError.outOfBounds [offset] shape).message

/-- Writes the element at an index; outside of the shape the program fails. -/
def putAt (operand : Nat) (shape index : List Nat) (value : Scalar) (next : Program) : Program :=
  match Shape.offset? shape index with
  | some offset => put operand shape offset value next
  | none => .fail (ShapeError.outOfBounds index shape).message

/-- A step for each number below `n`, and then the rest. -/
def forEach (n : Nat) (step : Nat → Program → Program) (rest : Program) : Program :=
  (List.range n).foldr step rest

/-- Adds the products of pairs of elements to `total`, from the first pair on. -/
def sumProducts (a b : Nat) (total : Float) : List (Nat × Nat) → (Float → Program) → Program
  | [], next => next total
  | (i, j) :: pairs, next =>
    readFloat a i fun x => readFloat b j fun y => sumProducts a b (total + x * y) pairs next

def fillWith (operand : Nat) (shape : List Nat) (value : Scalar) : Program :=
  forEach (Shape.size shape) (fun i rest => put operand shape i value rest) .done

/-- Rows and columns of a matrix. -/
def withMatrix (shape : List Nat) (next : Nat → Nat → Program) : Program :=
  match shape with
  | [rows, columns] => next rows columns
  | _ => .fail "operand is not a matrix"

def noop : NativeBody := fun _ => .done

def add : NativeBody := fun views =>
  withArray views 0 fun _ _ => withArray views 1 fun _ _ => withArray views 2 fun _ out =>
    forEach (Shape.size out) (fun i rest =>
      readFloat 0 i fun x => readFloat 1 i fun y => put 2 out i (.float64 (x + y)) rest) .done

def addScalar : NativeBody := fun views =>
  withScalar views 0 fun a => withScalar views 1 fun b => withArray views 2 fun _ out =>
    put 2 out 0 (.float64 (a.toFloat + b.toFloat)) .done

def axpy : NativeBody := fun views =>
  withScalar views 0 fun a => withArray views 1 fun _ xs => withArray views 2 fun _ out =>
    forEach (Shape.size xs) (fun i rest =>
      readFloat 1 i fun x => readFloat 2 i fun y =>
        put 2 out i (.float64 (a.toFloat * x + y)) rest) .done

def scale : NativeBody := fun views =>
  withArray views 0 fun _ xs => withScalar views 1 fun f => withArray views 2 fun _ out =>
    forEach (Shape.size xs) (fun i rest =>
      readFloat 0 i fun x => put 2 out i (.float64 (x * f.toFloat)) rest) .done

def matvec : NativeBody := fun views =>
  withArray views 0 fun _ m => withArray views 1 fun _ _ => withArray views 2 fun _ out =>
    withMatrix m fun rows columns =>
      forEach rows (fun i rest =>
        sumProducts 0 1 0 ((List.range columns).map fun j => (i * columns + j, j)) fun total =>
          put 2 out i (.float64 total) rest) .done

def matmul : NativeBody := fun views =>
  withArray views 0 fun _ a => withArray views 1 fun _ b => withArray views 2 fun _ out =>
    withMatrix a fun rows inner => withMatrix b fun _ columns =>
      forEach rows (fun i rest =>
        forEach columns (fun j rest =>
          let pairs := (List.range inner).map fun k => (i * inner + k, k * columns + j)
          sumProducts 0 1 0 pairs fun total =>
            putAt 2 out [i, j] (.float64 total) rest) rest) .done

def dot : NativeBody := fun views =>
  withArray views 0 fun _ a => withArray views 1 fun _ _ => withArray views 2 fun _ out =>
    sumProducts 0 1 0 ((List.range (Shape.size a)).map fun i => (i, i)) fun total =>
      put 2 out 0 (.float64 total) .done

/-- Moves the first operand into the second and leaves zeros. -/
def consume : NativeBody := fun views =>
  withArray views 0 fun _ xs => withArray views 1 fun _ out =>
    forEach (Shape.size xs) (fun i rest =>
      readFloat 0 i fun x =>
        put 1 out i (.float64 x) (put 0 xs i (.float64 0) rest)) .done

/-- Fills the last operand. -/
def constant (value : Float) : NativeBody := fun views =>
  let last := views.length - 1
  withArray views last fun _ out => fillWith last out (.float64 value)

/-- Adds the elements of an operand to `total` as wrapping 64-bit integers. -/
def sumElements (operand : Nat) : List Nat → Int64 → (Int64 → Program) → Program
  | [], total, next => next total
  | offset :: offsets, total, next =>
    .read operand offset fun s =>
      sumElements operand offsets (total + (s.map Scalar.toInt64).getD 0) next

/-- Adds scalars and the elements of arrays, each with its operand number. -/
def sumOperands : List (OperandView × Nat) → Int64 → (Int64 → Program) → Program
  | [], total, next => next total
  | (.scalar s, _) :: rest, total, next => sumOperands rest (total + s.toInt64) next
  | (.array _ shape, i) :: rest, total, next =>
    sumElements i (List.range (Shape.size shape)) total fun total => sumOperands rest total next

/-- Fills the last operand with the integer sum of all others. -/
def integerSum : NativeBody := fun views =>
  let last := views.length - 1
  withArray views last fun _ out =>
    sumOperands (views.take last).zipIdx 0 fun total => fillWith last out (.int64 total)

/-- The first element of an operand; a scalar is its own. -/
def withFirst (view : Option OperandView) (next : Scalar → Program) : Program :=
  match view with
  | some (.scalar s) => next s
  | _ => .read 0 0 fun
    | some s => next s
    | none => .fail "empty operand"

/-- Fills the last operand with the first element of the first. -/
def first : NativeBody := fun views =>
  let last := views.length - 1
  withFirst views[0]? fun s => withArray views last fun _ out => fillWith last out s

/-- Adds one to every element of every array. -/
def bump : NativeBody := fun views =>
  views.zipIdx.foldr (fun p rest =>
    match p.1 with
    | .scalar _ => rest
    | .array _ shape =>
      forEach (Shape.size shape) (fun i rest =>
        readFloat p.2 i fun x => put p.2 shape i (.float64 (x + 1)) rest) rest) .done

def failing : NativeBody := fun _ => .fail "boom"

/-- Copies until the first negative element. -/
def failOnNegative : NativeBody := fun views =>
  let last := views.length - 1
  withArray views 0 fun _ xs => withArray views last fun _ out =>
    forEach (Shape.size xs) (fun i rest =>
      readFloat 0 i fun x =>
        if x < 0 then .fail ("negative element " ++ toString i)
        else put last out i (.float64 x) rest) .done

/-- Writes one element too many. -/
def overrun : NativeBody := fun views =>
  let last := views.length - 1
  withArray views last fun _ out => put last out (Shape.size out) (.float64 1) .done

/-- The body of this name. -/
def body? : String → Option NativeBody
  | "noop" => some noop
  | "add" => some add
  | "add_scalar" => some addScalar
  | "axpy" => some axpy
  | "scale" => some scale
  | "matvec" => some matvec
  | "matmul" => some matmul
  | "dot" => some dot
  | "consume" => some consume
  | "ones" => some (constant 1)
  | "twos" => some (constant 2)
  | "isum" => some integerSum
  | "first" => some first
  | "bump" => some bump
  | "fail" => some failing
  | "fail_negative" => some failOnNegative
  | "overrun" => some overrun
  | _ => none

/-- What an object body answers to an empty box. -/
def emptyBoxText : String := "none operand"

end Corewise.Stock
