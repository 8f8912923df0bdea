import Corewise.Proofs.Shape.Broadcast
import Mathlib.Data.Set.Function
/-!
Row-major order, axis by axis. The offset of an index can be summed up from the first axis on, and the index of
an offset can be divided out from the last axis on; only an axis of size zero cannot be divided by, and a shape
with such an axis has no offsets. Later offsets have later indexes. Machine words count and sum up modulo their
size, so offsets and indexes correspond where the number of elements is below it.
-/

namespace Corewise.Shape

/-- Adds the component on an axis to what the axes before it have come to, in a machine word. -/
def sumAxis (offset : Nat) (axis : Nat × Nat) : Option Nat :=
  if axis.2 < axis.1 then some ((offset * axis.1 + axis.2) % word) else none

/-- Offset of an index, from the first axis on, in a machine word. -/
def sumOffset? (shape index : List Nat) : Option Nat :=
  if index.length = shape.length then (shape.zip index).foldlM sumAxis 0 else none

variable {shape index : List Nat} {flat : Nat}

/-- The numbers below the count are the offsets of all indexes in range. -/
structure Exact (shape : List Nat) : Prop where
  counted : count shape = size shape
  summed : ∀ index, sumOffset? shape index = offset? shape index
  bijective : Set.BijOn (unravel · shape) {flat | flat < count shape} {index | InRange shape index}
  offset : ∀ index, InRange shape index →
    ∃ flat < count shape, sumOffset? shape index = some flat ∧ unravel flat shape = index

end Corewise.Shape
