/-!
Shapes in row-major order: the offset of an index, the index of an offset, and broadcasting. Loops count their
iterations in machine words.
-/

namespace Corewise.Shape

/-- Number of elements of an array. -/
def size (shape : List Nat) : Nat := shape.foldr (· * ·) 1

/-- How many numbers a machine word can tell apart. -/
def word : Nat := UInt64.size

/-- Number of elements as a machine word counts them: each product wraps around. -/
def count (shape : List Nat) : Nat := shape.foldl (fun n d => n * d % word) 1

/-- Offset of an index, none when the index has another length or is out of range. -/
def offset? : List Nat → List Nat → Option Nat
  | [], [] => some 0
  | d :: ds, i :: is => if i < d then (offset? ds is).map (i * size ds + ·) else none
  | _, _ => none

/-- Index of an offset. -/
def unravel (flat : Nat) : List Nat → List Nat
  | [] => []
  | d :: ds => flat / size ds % d :: unravel flat ds

/-- The common size of two axes: a size of one gives way to any other. -/
def joinAxis (a b : Nat) : Option Nat :=
  if a = 1 then some b else if b = 1 ∨ b = a then some a else none

/-- Joins shapes whose axes are listed from the last to the first. -/
def joinReversed : List Nat → List Nat → Option (List Nat)
  | [], bs => some bs
  | as, [] => some as
  | a :: as, b :: bs => do
    let c ← joinAxis a b
    let cs ← joinReversed as bs
    return c :: cs

/-- The shape that all of `shapes` stretch to when they are aligned at their last axes. -/
def broadcast? (shapes : List (List Nat)) : Option (List Nat) :=
  (shapes.foldlM (fun joined shape => joinReversed joined shape.reverse) []).map List.reverse

/-- The part of a loop index that addresses an operand with the outer shape `outer`: axes that the
operand lacks are dropped, and on its axes of size one it is always read at 0. -/
def project (index outer : List Nat) : List Nat :=
  List.zipWith (fun i d => if d = 1 then 0 else i) (index.drop (index.length - outer.length)) outer

end Corewise.Shape
