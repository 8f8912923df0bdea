/-!
Element types: their kinds and widths, and the two casting orders under which a loop accepts an
operand (`DType.castsSafely`) or stores a result (`DType.castsWithinKind`).
-/

namespace Corewise

/-- Element type of an array, or type of a scalar operand. -/
inductive DType where
  | bool
  | int8 | int16 | int32 | int64
  | uint8 | uint16 | uint32 | uint64
  | float32 | float64
  deriving DecidableEq, Repr, Inhabited

namespace DType

/-- Numeric kinds, from the narrowest to the widest. -/
inductive Kind where
  | bool | unsigned | signed | float
  deriving DecidableEq, Repr

namespace Kind

def rank : Kind → Nat
  | bool => 0
  | unsigned => 1
  | signed => 2
  | float => 3

def name : Kind → String
  | bool => "Bool"
  | unsigned => "Unsigned"
  | signed => "Signed"
  | float => "Float"

end Kind

/-- Every element type, in declaration order. -/
def all : List DType :=
  [bool, int8, int16, int32, int64, uint8, uint16, uint32, uint64, float32, float64]

/-- Position in `all`. -/
def rank : DType → Nat
  | bool => 0
  | int8 => 1
  | int16 => 2
  | int32 => 3
  | int64 => 4
  | uint8 => 5
  | uint16 => 6
  | uint32 => 7
  | uint64 => 8
  | float32 => 9
  | float64 => 10

def kind : DType → Kind
  | bool => .bool
  | uint8 | uint16 | uint32 | uint64 => .unsigned
  | int8 | int16 | int32 | int64 => .signed
  | float32 | float64 => .float

def bits : DType → Nat
  | bool | int8 | uint8 => 8
  | int16 | uint16 => 16
  | int32 | uint32 | float32 => 32
  | int64 | uint64 | float64 => 64

def name : DType → String
  | bool => "bool"
  | int8 => "int8"
  | int16 => "int16"
  | int32 => "int32"
  | int64 => "int64"
  | uint8 => "uint8"
  | uint16 => "uint16"
  | uint32 => "uint32"
  | uint64 => "uint64"
  | float32 => "float32"
  | float64 => "float64"

def ofName? (s : String) : Option DType :=
  all.find? fun t => t.name == s

/-- The name of the type's constructor in debugging text. -/
def tag : DType → String
  | bool => "Bool"
  | int8 => "Int8"
  | int16 => "Int16"
  | int32 => "Int32"
  | int64 => "Int64"
  | uint8 => "UInt8"
  | uint16 => "UInt16"
  | uint32 => "UInt32"
  | uint64 => "UInt64"
  | float32 => "Float32"
  | float64 => "Float64"

/-- One-letter code, as in the loop description `dd->d`. -/
def code : DType → Char
  | bool => '?'
  | int8 => 'b'
  | int16 => 'h'
  | int32 => 'i'
  | int64 => 'l'
  | uint8 => 'B'
  | uint16 => 'H'
  | uint32 => 'I'
  | uint64 => 'L'
  | float32 => 'f'
  | float64 => 'd'

/-- Casts that a loop makes on its own: within a kind to at least the same width, from unsigned to
a wider signed type, from `bool` to all, from every integer to `float64` and from those of up to 16
bits to `float32`. They keep every value but integers of 64 bits, which `float64` may round. -/
def castsSafely (source target : DType) : Bool :=
  source == target ||
    match source.kind, target.kind with
    | .bool, _ => true
    | _, .bool => false
    | .unsigned, .unsigned | .signed, .signed | .float, .float => source.bits ≤ target.bits
    | .unsigned, .signed => source.bits < target.bits
    | .unsigned, .float | .signed, .float => target == float64 || source.bits ≤ 16
    | _, _ => false

/-- Safe casts, and every cast that does not move to a narrower kind. -/
def castsWithinKind (source target : DType) : Bool :=
  source.castsSafely target || source.kind.rank ≤ target.kind.rank

end DType

end Corewise
