/-!
Binary floating-point numbers as exact values. `Binary.decode` reads the fields of a word,
`Binary.encode` rounds an exact value to the nearest word of a format, ties going to the even one,
and `Binary.clampToInt` drops the fraction and clamps what is left to a range of integers.
-/

namespace Corewise

/-- A binary interchange format: `precision` significant bits, the hidden one included, and an
exponent field of `exponentBits` bits. -/
structure BinaryFormat where
  precision : Nat
  exponentBits : Nat
  deriving DecidableEq, Repr

namespace BinaryFormat

def single : BinaryFormat := ⟨24, 8⟩

def double : BinaryFormat := ⟨53, 11⟩

/-- Bits of the fraction field. -/
def fractionBits (f : BinaryFormat) : Nat := f.precision - 1

/-- Exponent of the last place of a subnormal number. -/
def minExponent (f : BinaryFormat) : Int :=
  2 - Nat.pow 2 (f.exponentBits - 1) - f.fractionBits

/-- The exponent field of infinities and of numbers that are not numbers. -/
def topField (f : BinaryFormat) : Nat := Nat.pow 2 f.exponentBits - 1

/-- The word of positive infinity, above every finite magnitude. -/
def infinityBits (f : BinaryFormat) : Nat := f.topField * Nat.pow 2 f.fractionBits

def signBit (f : BinaryFormat) : Nat := Nat.pow 2 (f.fractionBits + f.exponentBits)

end BinaryFormat

/-- The value of a floating-point number; a finite one is `±mantissa · 2 ^ exponent`. -/
inductive Binary where
  | nan
  | infinite (negative : Bool)
  | finite (negative : Bool) (mantissa : Nat) (exponent : Int)
  deriving DecidableEq, Repr

namespace Binary

def ofInt (n : Int) : Binary := .finite (n < 0) n.natAbs 0

/-- Zeros of both signs are zero, and nothing else is. -/
def isZero : Binary → Bool
  | .finite _ m _ => m == 0
  | _ => false

/-- Reads the fields of a word. -/
def decode (f : BinaryFormat) (bits : Nat) : Binary :=
  let fraction := bits % Nat.pow 2 f.fractionBits
  let field := bits / Nat.pow 2 f.fractionBits % Nat.pow 2 f.exponentBits
  let negative := bits / f.signBit % 2 == 1
  if field = f.topField then
    if fraction = 0 then .infinite negative else .nan
  else if field = 0 then
    .finite negative fraction f.minExponent
  else
    .finite negative (fraction + Nat.pow 2 f.fractionBits) (field - 1 + f.minExponent)

/-- The quotient rounded to the nearest integer, a half to the even neighbour. -/
def roundQuotient (num den : Nat) : Nat :=
  let q := num / den
  let r := num % den
  if 2 * r < den then q else if den < 2 * r then q + 1 else q + q % 2

/-- `mantissa · 2 ^ exponent` in units of `2 ^ unit`, rounded. -/
def roundToUnit (mantissa : Nat) (exponent unit : Int) : Nat :=
  if unit ≤ exponent then mantissa * Nat.pow 2 (exponent - unit).toNat
  else roundQuotient mantissa (Nat.pow 2 (unit - exponent).toNat)

/-- The last place kept of a number that starts at the leading bit of `mantissa`. -/
def lastPlace (f : BinaryFormat) (mantissa : Nat) (exponent : Int) : Int :=
  if mantissa = 0 then f.minExponent
  else max f.minExponent (exponent + mantissa.log2 + 1 - f.precision)

/-- The word of a magnitude. A carry out of the rounded significand moves into the exponent field
by plain addition, and what exceeds the largest finite number is infinite. -/
def magnitudeBits (f : BinaryFormat) (mantissa : Nat) (exponent : Int) : Nat :=
  let unit := lastPlace f mantissa exponent
  min f.infinityBits
    ((unit - f.minExponent).toNat * Nat.pow 2 f.fractionBits + roundToUnit mantissa exponent unit)

/-- The word of the nearest number of the format. -/
def encode (f : BinaryFormat) : Binary → Nat
  | .nan => f.infinityBits + Nat.pow 2 (f.fractionBits - 1)
  | .infinite negative => (if negative then f.signBit else 0) + f.infinityBits
  | .finite negative m e => (if negative then f.signBit else 0) + magnitudeBits f m e

/-- The integer part of a finite magnitude. -/
def wholePart (mantissa : Nat) (exponent : Int) : Nat :=
  if 0 ≤ exponent then mantissa * Nat.pow 2 exponent.toNat else mantissa / Nat.pow 2 (-exponent).toNat

/-- The integer part, clamped to the range from `lo` to `hi`; zero for what is not a number. -/
def clampToInt (lo hi : Int) : Binary → Int
  | .nan => 0
  | .infinite negative => if negative then lo else hi
  | .finite negative m e =>
    let whole : Int := wholePart m e
    max lo (min hi (if negative then -whole else whole))

end Binary

end Corewise
