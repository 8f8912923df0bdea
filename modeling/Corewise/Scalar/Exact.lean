import Corewise.Scalar
import Corewise.Text.Digits
/-!
Exact texts of scalars, from which each can be read back: integers in decimal, and floats by their
bits.
-/

namespace Corewise.Scalar

/-- All that are not numbers have one text. -/
def exact (s : Scalar) : String :=
  match s with
  | .float32 x => if x.isNaN then "nan" else "0x" ++ Text.hex 8 x.toBits.toNat
  | .float64 x => if x.isNaN then "nan" else "0x" ++ Text.hex 16 x.toBits.toNat
  | s => s.display

/-- Bits in hexadecimal digits, or those of a quiet number that is none. -/
def exactBits? (f : BinaryFormat) (text : String) : Option Nat :=
  if text = "nan" then some (Binary.encode f .nan)
  else
    match text.toList with
    | '0' :: 'x' :: ds => Text.natural? 16 ds
    | _ => none

def ofExact? (t : DType) (text : String) : Option Scalar :=
  match t with
  | .bool =>
    if text = "true" then some (.bool true)
    else if text = "false" then some (.bool false)
    else none
  | .float32 => (exactBits? .single text).map ofFloat32Bits
  | .float64 => (exactBits? .double text).map ofFloat64Bits
  | t => (Text.integer? text.toList).map fun n => ofNumber t (.whole n)

end Corewise.Scalar
