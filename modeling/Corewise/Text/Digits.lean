/-!
Digits of numbers in bases up to sixteen.
-/

namespace Corewise.Text

def digitValue? (c : Char) : Option Nat :=
  if '0' ≤ c ∧ c ≤ '9' then some (c.toNat - '0'.toNat)
  else if 'a' ≤ c ∧ c ≤ 'f' then some (c.toNat - 'a'.toNat + 10)
  else if 'A' ≤ c ∧ c ≤ 'F' then some (c.toNat - 'A'.toNat + 10)
  else none

/-- The value of digits in a base, at least one. -/
def natural? (base : Nat) (cs : List Char) : Option Nat :=
  if cs = [] then none
  else
    cs.foldlM (fun n c => do
      let d ← digitValue? c
      if d < base then some (base * n + d) else none) 0

/-- Decimal digits, with a minus for negative numbers. -/
def integer? : List Char → Option Int
  | '-' :: ds => (natural? 10 ds).map fun n => -(n : Int)
  | ds => (natural? 10 ds).map Int.ofNat

/-- Hexadecimal digits, lower case, at least `width` of them. -/
def hex (width n : Nat) : String :=
  let ds := Nat.toDigits 16 n
  String.ofList (List.replicate (width - ds.length) '0' ++ ds)

end Corewise.Text
