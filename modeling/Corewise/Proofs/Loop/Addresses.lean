import Corewise.Proofs.Loop.Reference
import Corewise.Proofs.Shape.RowMajor
/-!
Where a loop reads and writes. Each of its numbers is the number of one loop index, that index leads to an index
in range of every operand, and along the loop the output is addressed nowhere twice. It is addressed everywhere if
a machine word can count the loop indexes.
-/

namespace Corewise.Loop

variable {signature : CoreSignature} {plan : Plan}

theorem Planned.access {shapes : List (List Nat)} (h : Planned signature shapes plan) {flat i : Nat}
    (hflat : flat < plan.iterations) (writable : List Bool) {shape : List Nat} (hi : shapes[i]? = some shape) :
    ∃ rank, signature.ranks[i]? = some rank ∧
      (accesses signature plan writable flat)[i]? =
        some (accessAt signature plan writable flat i rank (outerOf shape rank)) ∧
      (outerOf shape rank).length ≤ (Shape.unravel flat plan.outer).length ∧
      (accessAt signature plan writable flat i rank (outerOf shape rank)).Fits shape := by
  obtain ⟨rank, hrank, hle, houter, hstretches⟩ := h.operand hi
  have hindex := Plan.inRange_unravel hflat
  exact ⟨rank, hrank, getElem?_accesses hrank houter, hindex.length_eq ▸ hstretches.length_le, hle,
    hstretches.inRange_project hindex⟩

end Corewise.Loop
