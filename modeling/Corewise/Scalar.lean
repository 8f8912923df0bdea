import Corewise.DType
import Corewise.Decimal
/-!
Scalars: one value of one element type, the number it stands for, and conversion between element
types. A cast of integers wraps, a cast of a float to an integer drops the fraction and clamps, and
a cast to a float rounds to nearest.
-/

namespace Corewise

inductive Scalar where
  | bool (value : Bool)
  | int8 (value : Int8)
  | int16 (value : Int16)
  | int32 (value : Int32)
  | int64 (value : Int64)
  | uint8 (value : UInt8)
  | uint16 (value : UInt16)
  | uint32 (value : UInt32)
  | uint64 (value : UInt64)
  | float32 (value : Float32)
  | float64 (value : Float)
  deriving DecidableEq, Inhabited

/-- The number a scalar stands for: an integer, with the truth values as 0 and 1, or a float. -/
inductive Number where
  | whole (value : Int)
  | real (value : Binary)
  deriving DecidableEq, Repr

namespace Number

def isZero : Number → Bool
  | .whole n => n == 0
  | .real x => x.isZero

/-- Integers are kept for wrapping, floats are clamped to the range of the target. -/
def toIntWithin (lo hi : Int) : Number → Int
  | .whole n => n
  | .real x => x.clampToInt lo hi

def toBinary : Number → Binary
  | .whole n => .ofInt n
  | .real x => x

end Number

namespace Scalar

def dtype : Scalar → DType
  | bool _ => .bool
  | int8 _ => .int8
  | int16 _ => .int16
  | int32 _ => .int32
  | int64 _ => .int64
  | uint8 _ => .uint8
  | uint16 _ => .uint16
  | uint32 _ => .uint32
  | uint64 _ => .uint64
  | float32 _ => .float32
  | float64 _ => .float64

def ofFloat32Bits (bits : Nat) : Scalar := .float32 (Float32.ofBits (UInt32.ofNat bits))

def ofFloat64Bits (bits : Nat) : Scalar := .float64 (Float.ofBits (UInt64.ofNat bits))

def number : Scalar → Number
  | bool b => .whole (if b then 1 else 0)
  | int8 v => .whole v.toInt
  | int16 v => .whole v.toInt
  | int32 v => .whole v.toInt
  | int64 v => .whole v.toInt
  | uint8 v => .whole v.toNat
  | uint16 v => .whole v.toNat
  | uint32 v => .whole v.toNat
  | uint64 v => .whole v.toNat
  | float32 v => .real (.decode .single v.toBits.toNat)
  | float64 v => .real (.decode .double v.toBits.toNat)

/-- The scalar of type `t` that a number converts to. -/
def ofNumber (t : DType) (n : Number) : Scalar :=
  match t with
  | .bool => .bool !n.isZero
  | .int8 => .int8 (.ofInt (n.toIntWithin Int8.minValue.toInt Int8.maxValue.toInt))
  | .int16 => .int16 (.ofInt (n.toIntWithin Int16.minValue.toInt Int16.maxValue.toInt))
  | .int32 => .int32 (.ofInt (n.toIntWithin Int32.minValue.toInt Int32.maxValue.toInt))
  | .int64 => .int64 (.ofInt (n.toIntWithin Int64.minValue.toInt Int64.maxValue.toInt))
  | .uint8 => .uint8 (.ofInt (n.toIntWithin 0 (UInt8.size - 1)))
  | .uint16 => .uint16 (.ofInt (n.toIntWithin 0 (UInt16.size - 1)))
  | .uint32 => .uint32 (.ofInt (n.toIntWithin 0 (UInt32.size - 1)))
  | .uint64 => .uint64 (.ofInt (n.toIntWithin 0 (UInt64.size - 1)))
  | .float32 => ofFloat32Bits (n.toBinary.encode .single)
  | .float64 => ofFloat64Bits (n.toBinary.encode .double)

/-- Conversion to `t`; a scalar that already has the type is kept as it is. -/
def cast (s : Scalar) (t : DType) : Scalar :=
  if s.dtype = t then s else ofNumber t s.number

@[simp] theorem cast_dtype_self (s : Scalar) : s.cast s.dtype = s := by
  simp [cast]

@[simp] theorem dtype_ofNumber (t : DType) (n : Number) : (ofNumber t n).dtype = t := by
  cases t <;> rfl

@[simp] theorem dtype_cast (s : Scalar) (t : DType) : (s.cast t).dtype = t := by
  unfold cast
  split <;> simp_all

/-- What successive conversions give, one after the other. -/
def castChain (s : Scalar) : List DType → List Scalar
  | [] => []
  | t :: ts => s.cast t :: (s.cast t).castChain ts

def zero (t : DType) : Scalar := ofNumber t (.whole 0)

def toFloat (s : Scalar) : Float :=
  match s.cast .float64 with
  | float64 v => v
  | _ => 0

def toInt64 (s : Scalar) : Int64 :=
  match s.cast .int64 with
  | int64 v => v
  | _ => 0

def ofFloat (t : DType) (x : Float) : Scalar := (float64 x).cast t

/-- Equality of values: scalars of different types differ, zeros of both signs are equal, and what
is not a number equals nothing. -/
def sameValue : Scalar → Scalar → Bool
  | float32 a, float32 b => a == b
  | float64 a, float64 b => a == b
  | a, b => a == b

/-- Order of two floats, none when one of them is not a number. -/
def compareFloats (less equal greater : Bool) : Option Ordering :=
  if less then some .lt else if equal then some .eq else if greater then some .gt else none

/-- Scalars are ordered by type first and by value within a type. -/
def compare? : Scalar → Scalar → Option Ordering
  | bool a, bool b => some (Ord.compare a.toNat b.toNat)
  | float32 a, float32 b => compareFloats (a < b) (a == b) (b < a)
  | float64 a, float64 b => compareFloats (a < b) (a == b) (b < a)
  | a, b =>
    match a.number, b.number with
    | .whole m, .whole n =>
      if a.dtype = b.dtype then some (Ord.compare m n)
      else some (Ord.compare a.dtype.rank b.dtype.rank)
    | _, _ => some (Ord.compare a.dtype.rank b.dtype.rank)

/-- Integers in decimal, floats with the fewest digits that read back. -/
def display (s : Scalar) : String :=
  match s, s.number with
  | bool b, _ => if b then "true" else "false"
  | float32 _, .real x => x.plain .single
  | _, .real x => x.plain .double
  | _, .whole n => toString n

/-- The value under the name of its type, a whole float ending in `.0`: `Float64(1.0)`. -/
def debug (s : Scalar) : String :=
  let value := match s, s.number with
    | float32 _, .real x => x.tagged .single
    | float64 _, .real x => x.tagged .double
    | s, _ => s.display
  s.dtype.tag ++ "(" ++ value ++ ")"

end Scalar

end Corewise
