import Corewise.Binary
/-!
Decimal text of binary floating-point numbers: the fewest digits that read back to the same
number, written without an exponent (`Binary.plain`) or with one outside the usual range
(`Binary.tagged`).
-/

namespace Corewise

/-- The number `digits · 10 ^ exponent`. -/
structure Decimal where
  digits : Nat
  exponent : Int
  deriving DecidableEq, Repr

namespace Decimal

/-- The finite number `mantissa · 2 ^ exponent` with its rounding interval. All three numbers are
in quarters of the last place: the number itself is `4 · mantissa`, and every real between `low`
and `high` rounds to it, the ends only when `closed`. -/
structure Target where
  centre : Nat
  low : Nat
  high : Nat
  closed : Bool
  /-- A quarter of the last place is `2 ^ unit`. -/
  unit : Int

/-- Below a power of two the numbers of a format lie twice as close, except at the subnormal
end. -/
def Target.of (f : BinaryFormat) (mantissa : Nat) (exponent : Int) : Target :=
  let lowGap := if mantissa = Nat.pow 2 f.fractionBits ∧ f.minExponent < exponent then 1 else 2
  { centre := 4 * mantissa
    low := 4 * mantissa - lowGap
    high := 4 * mantissa + 2
    closed := mantissa % 2 == 0
    unit := exponent - 2 }

/-- Numerator and denominator of `base ^ exponent`. -/
def power (base : Nat) (exponent : Int) : Nat × Nat :=
  (Nat.pow base exponent.toNat, Nat.pow base (-exponent).toNat)

/-- The multiple of `10 ^ k` nearest to the target among those that read back to it, the larger of
two that are equally near. -/
def onGrid (t : Target) (k : Int) : Option Decimal :=
  let (binNum, binDen) := power 2 t.unit
  let (decNum, decDen) := power 10 k
  let scaled (x : Nat) : Nat := x * binNum * decDen
  let step := decNum * binDen
  let readsBack (d : Nat) : Bool :=
    let v := d * step
    if t.closed then scaled t.low ≤ v && v ≤ scaled t.high
    else scaled t.low < v && v < scaled t.high
  let below := scaled t.centre / step
  let above := below + 1
  let centre := scaled t.centre
  match readsBack below, readsBack above with
  | true, true =>
    if centre - below * step < above * step - centre then some ⟨below, k⟩ else some ⟨above, k⟩
  | true, false => some ⟨below, k⟩
  | false, true => some ⟨above, k⟩
  | false, false => none

/-- An exponent of ten above which no grid holds a positive number as small as the target. -/
def topExponent (mantissa : Nat) (exponent : Int) : Int :=
  (mantissa.log2 + 1 + exponent) * 30103 / 100000 + 2

/-- The digits of a nonzero finite number on the coarsest grid that holds a decimal which reads
back to it. -/
def shortest (f : BinaryFormat) (mantissa : Nat) (exponent : Int) : Decimal :=
  let t := Target.of f mantissa exponent
  let top := topExponent mantissa exponent
  ((List.range 24).findSome? fun n : Nat => onGrid t (top - n)).getD ⟨mantissa, exponent⟩

def zeros (n : Nat) : String := String.ofList (List.replicate n '0')

/-- Positional text: no exponent, no point unless a fraction follows it, and at least `places`
digits after the point. -/
def positional (places : Nat) (d : Decimal) : String :=
  let ds := (toString d.digits).toList
  if 0 ≤ d.exponent then
    let fraction := if places = 0 then "" else "." ++ zeros places
    String.ofList ds ++ zeros d.exponent.toNat ++ fraction
  else
    let cut := (-d.exponent).toNat
    if cut < ds.length then
      String.ofList (ds.take (ds.length - cut)) ++ "." ++ String.ofList (ds.drop (ds.length - cut))
    else
      "0." ++ zeros (cut - ds.length) ++ String.ofList ds

/-- Text with one digit before the point and an exponent after `e`. -/
def scientific (d : Decimal) : String :=
  let ds := (toString d.digits).toList
  let fraction := if ds.length ≤ 1 then "" else "." ++ String.ofList (ds.drop 1)
  let exponent : Int := d.exponent + ds.length - 1
  String.ofList (ds.take 1) ++ fraction ++ "e" ++ toString exponent

/-- Exponent of the leading digit. -/
def leadingExponent (d : Decimal) : Int := d.exponent + (toString d.digits).length - 1

end Decimal

namespace Binary

/-- The sign is kept on zero and dropped on what is not a number. -/
def render (f : BinaryFormat) (zero : String) (layout : Decimal → String) : Binary → String
  | .nan => "NaN"
  | .infinite negative => if negative then "-inf" else "inf"
  | .finite negative m e =>
    (if negative then "-" else "") ++ (if m = 0 then zero else layout (Decimal.shortest f m e))

/-- The fewest digits that read back, without an exponent: `0.1`, `-0`, `100`. -/
def plain (f : BinaryFormat) : Binary → String :=
  render f "0" (Decimal.positional 0)

/-- As `plain`, but a whole number ends in `.0`, and below `1e-4` and from `1e16` on the text has
an exponent. -/
def tagged (f : BinaryFormat) : Binary → String :=
  render f "0.0" fun d =>
    if -4 ≤ d.leadingExponent ∧ d.leadingExponent < 16 then d.positional 1 else d.scientific

end Binary

end Corewise
