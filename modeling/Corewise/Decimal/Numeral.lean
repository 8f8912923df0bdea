import Corewise.Decimal
/-!
Decimal numerals with a fraction and an exponent, and the number of a format that is nearest to one.
-/

namespace Corewise.Decimal

/-- The value of decimal digits. -/
def ofDigits (ds : List Char) : Nat := ds.foldl (fun n d => 10 * n + (d.toNat - '0'.toNat)) 0

/-- The number after the letter of an exponent. -/
def exponentOf? : List Char → Option Int
  | '+' :: ds => if ds ≠ [] ∧ ds.all Char.isDigit then some (ofDigits ds) else none
  | '-' :: ds => if ds ≠ [] ∧ ds.all Char.isDigit then some (-(ofDigits ds : Int)) else none
  | ds => if ds ≠ [] ∧ ds.all Char.isDigit then some (ofDigits ds) else none

/-- Reads digits with a point among, before or after them, and an exponent. -/
def ofNumeral? (cs : List Char) : Option Decimal := do
  let whole := cs.takeWhile Char.isDigit
  let cs := cs.dropWhile Char.isDigit
  let (fraction, cs) := match cs with
    | '.' :: rest => (rest.takeWhile Char.isDigit, rest.dropWhile Char.isDigit)
    | _ => ([], cs)
  if whole ++ fraction = [] then none
  else
    let exponent ← match cs with
      | [] => some 0
      | e :: rest => if e = 'e' ∨ e = 'E' then exponentOf? rest else none
    return ⟨ofDigits (whole ++ fraction), exponent - fraction.length⟩

/-- The least number that rounds to infinity: halfway between the largest finite number and the
next power of two. -/
def overflowBound (f : BinaryFormat) : Nat :=
  let top := Nat.pow 2 (f.exponentBits - 1)
  Nat.pow 2 top - Nat.pow 2 (top - f.precision - 1)

/-- A finite number is nearest. Numbers with a leading digit far above the range, or below one,
need no comparison. -/
def isFinite (f : BinaryFormat) (d : Decimal) : Bool :=
  if d.digits = 0 ∨ d.leadingExponent < 0 then true
  else if Nat.pow 2 (f.exponentBits - 1) < 3 * d.leadingExponent then false
  else d.digits * Nat.pow 10 d.exponent.toNat < overflowBound f * Nat.pow 10 (-d.exponent).toNat

/-- The nearest number of a format that has a finite one. Below the least positive number all are
zero. The quotient is cut far behind the last place, with one more bit for whether anything is
left, so it rounds like the decimal itself. -/
def nearest (f : BinaryFormat) (negative : Bool) (d : Decimal) : Binary :=
  if d.digits = 0 ∨ d.leadingExponent < f.minExponent then .finite negative 0 f.minExponent
  else
    let (num, den) := power 10 d.exponent
    let shift := den.log2 + 2 * f.precision
    let scaled := d.digits * num * Nat.pow 2 shift
    let mantissa := 2 * (scaled / den) + (if scaled % den = 0 then 0 else 1)
    .decode f (Binary.encode f (.finite negative mantissa (-(shift + 1 : Int))))

end Corewise.Decimal
