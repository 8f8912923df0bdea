import Corewise.Scalar
import Corewise.Shape
import Corewise.Text.Quoted
/-!
Array buffers in row-major order. A leading index addresses a sub-array, which is a contiguous run
of elements: `Buffer.slice` copies it out, and `Buffer.assign` writes it.
-/

namespace Corewise

inductive ShapeError where
  | elementCount (shape : List Nat) (found : Nat)
  | outOfBounds (index shape : List Nat)
  | coreShape (expected found : List Nat)
  deriving DecidableEq, Repr

def ShapeError.message : ShapeError → String
  | .elementCount shape found =>
    "shape " ++ Text.indexList shape ++ " holds " ++ toString (Shape.size shape) ++
      " elements but " ++ toString found ++ " were supplied"
  | .outOfBounds index shape =>
    "index " ++ Text.indexList index ++ " is out of bounds for shape " ++ Text.indexList shape
  | .coreShape expected found =>
    "sub-array of shape " ++ Text.indexList found ++ " does not fit core shape " ++
      Text.indexList expected

/-- Elements of one type in row-major order. -/
structure Buffer where
  dtype : DType
  shape : List Nat
  data : List Scalar
  deriving DecidableEq

instance : Inhabited Buffer := ⟨⟨.bool, [0], []⟩⟩

/-- Name of the kind of error. -/
def ShapeError.kind : ShapeError → String
  | .elementCount .. => "ElementCount"
  | .outOfBounds .. => "OutOfBounds"
  | .coreShape .. => "CoreShape"

namespace Buffer

/-- As many elements as the shape holds, each of the buffer's type. -/
def WellFormed (b : Buffer) : Prop :=
  b.data.length = Shape.size b.shape ∧ ∀ s ∈ b.data, s.dtype = b.dtype

def size (b : Buffer) : Nat := b.data.length

def rank (b : Buffer) : Nat := b.shape.length

def zeros (dtype : DType) (shape : List Nat) : Buffer :=
  ⟨dtype, shape, List.replicate (Shape.size shape) (Scalar.zero dtype)⟩

/-- A buffer of the given elements, each cast to `dtype`. -/
def ofScalars (dtype : DType) (shape : List Nat) (values : List Scalar) :
    Except ShapeError Buffer :=
  if values.length = Shape.size shape then .ok ⟨dtype, shape, values.map (·.cast dtype)⟩
  else .error (.elementCount shape values.length)

def get? (b : Buffer) (index : List Nat) : Option Scalar := do
  let offset ← Shape.offset? b.shape index
  b.data[offset]?

def getFlat? (b : Buffer) (offset : Nat) : Option Scalar := b.data[offset]?

/-- Stores a value at an offset in range, cast to the type of the buffer. -/
def put (b : Buffer) (offset : Nat) (value : Scalar) : Buffer :=
  { b with data := b.data.set offset (value.cast b.dtype) }

def set (b : Buffer) (index : List Nat) (value : Scalar) : Except ShapeError Buffer :=
  match Shape.offset? b.shape index with
  | some offset => .ok (b.put offset value)
  | none => .error (.outOfBounds index b.shape)

def setFlat (b : Buffer) (offset : Nat) (value : Scalar) : Except ShapeError Buffer :=
  if offset < b.size then .ok (b.put offset value) else .error (.outOfBounds [offset] b.shape)

def fill (b : Buffer) (value : Scalar) : Buffer :=
  { b with data := b.data.map fun _ => value.cast b.dtype }

/-- A copy converted to `dtype`. -/
def cast (b : Buffer) (dtype : DType) : Buffer :=
  ⟨dtype, b.shape, b.data.map (·.cast dtype)⟩

/-- Offset and shape of the sub-array at a leading index. -/
def locate (b : Buffer) (index : List Nat) : Except ShapeError (Nat × List Nat) :=
  let core := b.shape.drop index.length
  match Shape.offset? (b.shape.take index.length) index with
  | some outer => .ok (outer * Shape.size core, core)
  | none => .error (.outOfBounds index b.shape)

/-- A copy of the sub-array at a leading index. -/
def slice (b : Buffer) (index : List Nat) : Except ShapeError Buffer := do
  let (start, core) ← b.locate index
  return ⟨b.dtype, core, (b.data.drop start).take (Shape.size core)⟩

/-- Writes the elements of `source` over the sub-array at a leading index. The shapes may differ as
long as they hold equally many elements. -/
def assign (b : Buffer) (index : List Nat) (source : Buffer) : Except ShapeError Buffer := do
  let (start, core) ← b.locate index
  if Shape.size core = source.size then
    return { b with
      data := b.data.take start ++ source.data.map (·.cast b.dtype) ++
        b.data.drop (start + source.size) }
  else throw (.coreShape core source.shape)

/-- Equality of types, shapes and element values. -/
def sameValue (a b : Buffer) : Bool :=
  a.dtype == b.dtype && a.shape == b.shape && a.size == b.size &&
    (a.data.zip b.data).all fun p => p.1.sameValue p.2

def debug (b : Buffer) : String :=
  Text.record "Array" [("dtype", b.dtype.tag), ("shape", Text.indexList b.shape),
    ("data", Text.bracketed (b.data.map Scalar.debug))]

end Buffer

end Corewise
