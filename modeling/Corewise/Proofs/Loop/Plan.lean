import Corewise.Loop.Plan
import Corewise.Proofs.Effect
import Corewise.Proofs.Shape.Broadcast
/-!
What a plan says of the operands. The shape of every operand is its outer shape, which stretches to
that of the loop, in front of as many axes as its core has; and the outer shape of the output is that
of the loop.
-/

namespace Corewise.Loop

/-- The axes in front of the last `rank` ones. -/
def outerOf (shape : List Nat) (rank : Nat) : List Nat := shape.take (shape.length - rank)

def coreOf (shape : List Nat) (rank : Nat) : List Nat := shape.drop (shape.length - rank)

@[simp] theorem outerOf_append_coreOf (shape : List Nat) (rank : Nat) :
    outerOf shape rank ++ coreOf shape rank = shape := List.take_append_drop _ _

theorem length_coreOf {shape : List Nat} {rank : Nat} (h : rank ≤ shape.length) :
    (coreOf shape rank).length = rank := by
  rw [coreOf, List.length_drop]
  omega

/-- There are no more iterations than loop indexes, also where their number does not fit a machine word. -/
theorem Plan.lt_size {plan : Plan} {flat : Nat} (h : flat < plan.iterations) :
    flat < Shape.size plan.outer := Shape.lt_size_of_lt_count h

theorem Plan.inRange_unravel {plan : Plan} {flat : Nat} (h : flat < plan.iterations) :
    Shape.InRange plan.outer (Shape.unravel flat plan.outer) := Shape.inRange_unravel (Plan.lt_size h)

/-- The plan loops over operands of these shapes, the output last. -/
structure Planned (signature : CoreSignature) (shapes : List (List Nat)) (plan : Plan) : Prop where
  count : shapes.length = signature.arity + 1
  rank_le : List.Forall₂ (fun shape rank => rank ≤ shape.length) shapes signature.ranks
  operandOuter : plan.operandOuter = List.zipWith outerOf shapes signature.ranks
  stretches : ∀ outer ∈ plan.operandOuter, Shape.Stretches outer plan.outer
  output : plan.operandOuter[signature.arity]? = some plan.outer

theorem Planned.operand {signature : CoreSignature} {shapes : List (List Nat)} {plan : Plan}
    (h : Planned signature shapes plan) {i : Nat} {shape : List Nat} (hi : shapes[i]? = some shape) :
    ∃ rank, signature.ranks[i]? = some rank ∧ rank ≤ shape.length ∧
      plan.operandOuter[i]? = some (outerOf shape rank) ∧
      Shape.Stretches (outerOf shape rank) plan.outer := by
  obtain ⟨rank, hrank, hle⟩ := exists_getElem?_of_forall₂ h.rank_le hi
  have houter : plan.operandOuter[i]? = some (outerOf shape rank) := by
    rw [h.operandOuter, List.getElem?_zipWith, hi, hrank]
  exact ⟨rank, hrank, hle, houter, h.stretches _ (List.mem_of_getElem? houter)⟩

theorem bindOperand_eq_ok {found found' : CoreSizes × List (List Nat)} {shape : List Nat}
    {core : Core} {position : Nat}
    (h : bindOperand found ((shape, core), position) = .ok found') :
    core.length ≤ shape.length ∧ found'.2 = found.2 ++ [outerOf shape core.length] := by
  simp only [bindOperand, Effect.bind_eq_ok] at h
  obtain ⟨⟨outer, coreShape⟩, hsplit, sizes, -, hfound⟩ := h
  cases hfound
  unfold splitCore at hsplit
  split at hsplit
  case isTrue => cases hsplit
  case isFalse hlen =>
    rw [List.splitAt_eq] at hsplit
    cases hsplit
    exact ⟨by omega, rfl⟩

theorem foldlM_bindOperand_eq_ok {operands : List ((List Nat × Core) × Nat)}
    {found found' : CoreSizes × List (List Nat)}
    (h : operands.foldlM bindOperand found = .ok found') :
    (∀ o ∈ operands, o.1.2.length ≤ o.1.1.length) ∧
      found'.2 = found.2 ++ operands.map fun o => outerOf o.1.1 o.1.2.length := by
  induction operands generalizing found with
  | nil =>
    cases h
    simp
  | cons o operands ih =>
    rw [List.foldlM_cons] at h
    obtain ⟨next, hnext, hrest⟩ := Effect.bind_eq_ok.1 h
    obtain ⟨hle, hnext⟩ := bindOperand_eq_ok hnext
    obtain ⟨hall, hrest⟩ := ih hrest
    refine ⟨List.forall_mem_cons.2 ⟨hle, hall⟩, ?_⟩
    rw [hrest, hnext, List.append_assoc]
    rfl

theorem bindInputs_eq_ok {signature : CoreSignature} {shapes : List (List Nat)}
    {found : CoreSizes × List (List Nat)} (hlen : shapes.length = signature.arity)
    (h : bindInputs signature shapes = .ok found) :
    List.Forall₂ (fun shape rank => rank ≤ shape.length) shapes signature.inputRanks ∧
      found.2 = List.zipWith outerOf shapes signature.inputRanks := by
  obtain ⟨hle, hfound⟩ := foldlM_bindOperand_eq_ok h
  constructor
  case left =>
    rw [CoreSignature.inputRanks, List.forall₂_map_right_iff, List.forall₂_iff_zip]
    refine ⟨hlen, fun {shape core} hmem => ?_⟩
    obtain ⟨i, hi⟩ := List.getElem?_of_mem hmem
    exact hle ((shape, core), i) (List.mem_zipIdx_iff_getElem?.2 hi)
  case right =>
    rw [hfound, List.nil_append]
    have hsplit : (fun o : (List Nat × Core) × Nat => outerOf o.1.1 o.1.2.length) =
        (fun p : List Nat × Core => outerOf p.1 p.2.length) ∘ Prod.fst := rfl
    rw [hsplit, ← List.map_map, List.zipIdx_map_fst, CoreSignature.inputRanks, List.zipWith_map_right,
      ← List.map_uncurry_zip_eq_zipWith]
    rfl

theorem broadcast_eq_ok {shapes : List (List Nat)} {joined : List Nat}
    (h : broadcast shapes = .ok joined) : ∀ shape ∈ shapes, Shape.Stretches shape joined := by
  unfold broadcast at h
  split at h
  case h_1 shape hshape =>
    cases h
    exact Shape.stretches_of_broadcast hshape
  case h_2 => cases h

theorem ranks_eq (signature : CoreSignature) :
    signature.ranks = signature.inputRanks ++ [signature.outputRank] := by
  simp [CoreSignature.ranks, CoreSignature.cores, CoreSignature.inputRanks,
    CoreSignature.outputRank]

theorem getElem?_outputRank {signature : CoreSignature} :
    signature.ranks[signature.arity]? = some signature.outputRank := by
  have hlen : signature.inputRanks.length = signature.arity := List.length_map _
  rw [ranks_eq, List.getElem?_append_right (Nat.le_of_eq hlen), hlen, Nat.sub_self]
  rfl

theorem eq_append_output {α : Type} {operands : List α} {n : Nat} {output : α}
    (hlen : operands.length = n + 1) (h : operands[n]? = some output) :
    operands = operands.take n ++ [output] := by
  have htake := List.take_add_one (l := operands) (i := n)
  rw [h, List.take_of_length_le (by omega)] at htake
  exact htake

/-- What has been checked on the way to a plan. -/
theorem plan_cases {signature : CoreSignature} {operands : List Contents} {p : Plan}
    (h : plan signature operands = .ok p) :
    ∃ found output, operands.length = signature.arity + 1 ∧
      operands[signature.arity]? = some (.array output) ∧
      bindInputs signature ((operands.take signature.arity).map Contents.shape) = .ok found ∧
      bindOperand found ((output.shape, signature.output), signature.arity) =
        .ok (p.coreSizes, p.operandOuter) ∧
      broadcast p.operandOuter = .ok p.outer ∧
      outerOf output.shape signature.outputRank = p.outer := by
  unfold plan at h
  dsimp only at h
  split at h
  case isTrue => cases h
  case isFalse hcount =>
    obtain ⟨found, hfound, h⟩ := Effect.bind_eq_ok.1 h
    split at h
    case h_2 => cases h
    case h_1 output houtput =>
      obtain ⟨bound, hbound, h⟩ := Effect.bind_eq_ok.1 h
      obtain ⟨joined, hjoined, h⟩ := Effect.bind_eq_ok.1 h
      split at h
      case isFalse => cases h
      case isTrue houter =>
        cases h
        exact ⟨found, output, Decidable.not_not.1 hcount, houtput, hfound, hbound, hjoined, houter⟩

theorem plan_eq_ok {signature : CoreSignature} {operands : List Contents} {p : Plan}
    (h : plan signature operands = .ok p) :
    Planned signature (operands.map Contents.shape) p := by
  obtain ⟨found, output, hcount, houtput, hfound, hbound, hjoined, houter⟩ := plan_cases h
  have hinputs : ((operands.take signature.arity).map Contents.shape).length =
      signature.arity := by
    rw [List.length_map, List.length_take]
    omega
  obtain ⟨hranks, hfound⟩ := bindInputs_eq_ok hinputs hfound
  obtain ⟨hrank, houters⟩ := bindOperand_eq_ok hbound
  replace houters : p.operandOuter = found.2 ++ [p.outer] := houter ▸ houters
  have hshapes : operands.map Contents.shape =
      (operands.take signature.arity).map Contents.shape ++ [output.shape] := by
    conv_lhs => rw [eq_append_output hcount houtput]
    rw [List.map_append]
    rfl
  refine ⟨by rw [List.length_map, hcount], ?_, ?_, broadcast_eq_ok hjoined, ?_⟩
  · rw [hshapes, ranks_eq]
    exact List.rel_append hranks (.cons hrank .nil)
  · rw [hshapes, ranks_eq, List.zipWith_append hranks.length_eq, houters, hfound, ← houter]
    rfl
  · have hlength : found.2.length = signature.arity := by
      rw [hfound, List.length_zipWith, ← hranks.length_eq, Nat.min_self, hinputs]
    rw [houters, List.getElem?_append_right (by omega), hlength, Nat.sub_self]
    rfl

end Corewise.Loop
