import Corewise.Decimal.Numeral
/-!
The range of numbers in JSON texts. A number is taken as a significand of 64 bits times a power of
ten: digits that do not fit the significand are dropped, those before the point with a power of ten
for each. Both factors are rounded to doubles, and their product has to be finite.
-/

namespace Corewise.Json

/-- A significand that takes digits as long as they fit 64 bits. -/
structure Magnitude where
  significand : Nat
  exponent : Int
  /-- A digit did not fit, and no more are taken. -/
  isFull : Bool

namespace Magnitude

def start : Magnitude := ⟨0, 0, false⟩

/-- Takes a digit before the point. -/
def takeWhole (m : Magnitude) (d : Char) : Magnitude :=
  let n := 10 * m.significand + (d.toNat - '0'.toNat)
  if m.isFull || UInt64.size ≤ n then { m with exponent := m.exponent + 1, isFull := true }
  else { m with significand := n }

/-- Takes a digit after the point. -/
def takeFraction (m : Magnitude) (d : Char) : Magnitude :=
  let n := 10 * m.significand + (d.toNat - '0'.toNat)
  if m.isFull || UInt64.size ≤ n then { m with isFull := true }
  else { m with significand := n, exponent := m.exponent - 1 }

/-- Takes the digits of a number; those after the point are tried again when the ones before it
did not fit. -/
def ofDigits (whole fraction : List Char) : Magnitude :=
  let m := whole.foldl takeWhole start
  fraction.foldl takeFraction { m with isFull := false }

/-- A natural number rounded to the digits of a double. -/
def rounded (n : Nat) : Nat :=
  let unit := Nat.pow 2 (n.log2 + 1 - BinaryFormat.double.precision)
  Binary.roundQuotient n unit * unit

/-- The exponents of ten that doubles have. -/
def maxExponent : Int := 308

def isFinite (m : Magnitude) : Bool :=
  m.significand == 0 || m.exponent < 0 ||
    (m.exponent ≤ maxExponent &&
      rounded m.significand * rounded (Nat.pow 10 m.exponent.toNat) <
        Decimal.overflowBound .double)

/-- The exponent behind the digits comes on top. -/
def scaled (m : Magnitude) (exponent : Int) : Magnitude :=
  { m with exponent := m.exponent + exponent }

end Magnitude

end Corewise.Json
