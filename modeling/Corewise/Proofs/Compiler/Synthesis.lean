import Corewise.Proofs.Registry.Layout
/-!
Call signatures made up from element types are those that the compiler takes, up to the layouts of their
arrays: making them up and checking them agree on which operands are scalars, on the ranks of the others,
on the array for the output and on the number of operands.
-/

namespace Corewise

theorem CoreSignature.unboundOutputs_eq_nil {s : CoreSignature} :
    s.unboundOutputs = [] ↔ ∀ name ∈ s.output, ∃ core ∈ s.inputs, name ∈ core := by
  simp only [unboundOutputs, List.filter_eq_nil_iff, Bool.not_eq_true, Bool.not_eq_false',
    List.any_eq_true, List.contains_iff_mem]

theorem fitsCore_iff {rank : Nat} {type : OperandType} :
    FitsCore rank type ↔ ∃ dtype, type.anyLayout = kernelOperand rank dtype := by
  constructor
  case mp =>
    intro h
    obtain ⟨dtype, hdtype⟩ := h.element
    exact ⟨dtype, h.anyLayout_eq hdtype⟩
  case mpr =>
    rintro ⟨dtype, hsame⟩
    unfold kernelOperand at hsame
    split at hsame
    case isTrue hrank =>
      cases type <;> cases hsame
      exact hrank ▸ .scalar dtype
    case isFalse hpos =>
      cases type <;> cases hsame
      exact .array dtype _ hpos

theorem anyLayout_kernelOperand (rank : Nat) (dtype : DType) :
    (kernelOperand rank dtype).anyLayout = kernelOperand rank dtype := by
  unfold kernelOperand
  split <;> rfl

namespace Dispatch

/-- Element types of all operands, where those asked for may leave out the output. It then has the type of
the last input. -/
def withOutput (arity : Nat) (query : List DType) : List DType :=
  if query.length = arity then query ++ query.getLast?.toList else query

variable {arity : Nat} {signature : CoreSignature} {query : List DType}

theorem withOutput_of_length (hlen : query.length = arity + 1) : withOutput arity query = query :=
  if_neg (by omega)

theorem length_withOutput (hne : query ≠ []) (hlen : query.length = arity ∨ query.length = arity + 1) :
    (withOutput arity query).length = arity + 1 := by
  unfold withOutput
  split
  case isTrue hshort =>
    rw [List.getLast?_eq_some_getLast hne, Option.toList_some, List.length_append, hshort]
    rfl
  case isFalse hfull => exact hlen.resolve_left hfull

theorem withOutput_eq (hlen : query.length = arity ∨ query.length = arity + 1) :
    withOutput arity query =
      query.take arity ++ (query[arity]? <|> query.getLast?).toList := by
  rcases hlen with hlen | hlen
  case inl =>
    rw [withOutput, if_pos hlen, List.take_of_length_le (Nat.le_of_eq hlen),
      List.getElem?_eq_none (Nat.le_of_eq hlen)]
    rfl
  case inr =>
    rw [withOutput_of_length hlen, List.getElem?_eq_getElem (hlen ▸ Nat.lt_succ_self arity)]
    show query = query.take arity ++ [query[arity]]
    rw [List.take_append_getElem, List.take_of_length_le (Nat.le_of_eq hlen)]

theorem elementTypes_synthesize_withOutput
    (hlen : query.length = signature.arity ∨ query.length = signature.arity + 1) :
    elementTypes (synthesize signature query).args = .ok (withOutput signature.arity query) := by
  rw [elementTypes_synthesize (by omega), withOutput_eq hlen]

theorem inputType_eq (core : Core) (dtype : DType) :
    inputType core dtype = kernelOperand core.length dtype := by
  simp only [inputType, kernelOperand, List.length_eq_zero_iff]

/-- The output is never a scalar, so its operand is made up in the way of the inputs. -/
theorem kernelOperand_carrierRank (signature : CoreSignature) (dtype : DType) :
    kernelOperand signature.carrierRank dtype = .anyArray dtype signature.carrierRank :=
  if_neg (Nat.ne_of_gt signature.carrierRank_pos)

theorem zipWith_inputType {cores : List Core} (hlen : cores.length ≤ query.length) :
    List.zipWith inputType cores query =
      List.zipWith kernelOperand (cores.map List.length) (query.take cores.length) := by
  rw [List.zipWith_map_left, ← funext₂ inputType_eq]
  conv_lhs =>
    rw [← List.append_nil cores, ← List.take_append_drop cores.length query,
      List.zipWith_append (by rw [List.length_take, Nat.min_eq_left hlen]), List.zipWith_nil_left,
      List.append_nil]

theorem synthesize_eq (hlen : query.length = signature.arity ∨ query.length = signature.arity + 1) :
    synthesize signature query =
      .void (List.zipWith kernelOperand signature.kernelRanks (withOutput signature.arity query)) := by
  have hle : signature.arity ≤ query.length := by omega
  have hinputs : signature.inputRanks.length = (query.take signature.arity).length := by
    rw [List.length_take, Nat.min_eq_left hle]
    exact List.length_map _
  rw [withOutput_eq hlen, CoreSignature.kernelRanks, List.zipWith_append hinputs, synthesize,
    zipWith_inputType hle]
  congr 2
  cases query[signature.arity]? <|> query.getLast? with
  | none => rfl
  | some dtype => exact congrArg ([·]) (kernelOperand_carrierRank signature dtype).symm

theorem synthesize_withOutput (hne : query ≠ [])
    (hlen : query.length = signature.arity ∨ query.length = signature.arity + 1) :
    synthesize signature (withOutput signature.arity query) = synthesize signature query := by
  have hfull := length_withOutput hne hlen
  rw [synthesize_eq (.inr hfull), withOutput_of_length hfull, synthesize_eq hlen]

theorem anyLayout_synthesize
    (hlen : query.length = signature.arity ∨ query.length = signature.arity + 1) :
    (synthesize signature query).anyLayout = synthesize signature query := by
  rw [synthesize_eq hlen, CallSignature.anyLayout, CallSignature.void, List.map_zipWith]
  simp only [anyLayout_kernelOperand]

end Dispatch

namespace Compiler

theorem checked_iff_synthesized {signature : CoreSignature} {call : CallSignature} :
    Checked signature call ↔ signature.unboundOutputs = [] ∧
      ∃ key, elementTypes call.args = .ok key ∧
        call.anyLayout = Dispatch.synthesize signature key ∧
        call.args.length = signature.arity + 1 := by
  constructor
  case mp =>
    intro h
    obtain ⟨key, hkey⟩ := h.elementTypes
    have hlen : key.length = signature.arity + 1 :=
      (elementTypes_eq_ok.1 hkey).length_eq.symm.trans h.count
    refine ⟨h.bound, key, hkey, ?_, h.count⟩
    rw [h.anyLayout_eq hkey, Dispatch.synthesize_eq (.inr hlen), Dispatch.withOutput_of_length hlen]
  case mpr =>
    rintro ⟨hbound, key, hkey, hsame, hcount⟩
    have hlen : key.length = signature.arity + 1 :=
      (elementTypes_eq_ok.1 hkey).length_eq.symm.trans hcount
    rw [Dispatch.synthesize_eq (.inr hlen), Dispatch.withOutput_of_length hlen] at hsame
    refine ⟨congrArg CallSignature.returnType hsame, hcount, ?_, hbound⟩
    intro i rank type hrank htype
    have hargs : call.args.map OperandType.anyLayout =
        List.zipWith kernelOperand signature.kernelRanks key := congrArg CallSignature.args hsame
    have hi : (call.args.map OperandType.anyLayout)[i]? = some type.anyLayout := by
      rw [List.getElem?_map, htype]
      rfl
    rw [hargs] at hi
    obtain ⟨rank', dtype, hrank', -, hoperand⟩ := List.getElem?_zipWith_eq_some.1 hi
    cases hrank.symm.trans hrank'
    exact fitsCore_iff.2 ⟨dtype, hoperand.symm⟩

theorem checked_synthesize {signature : CoreSignature} {query : List DType}
    (hbound : signature.unboundOutputs = []) (hne : query ≠ [])
    (hlen : query.length = signature.arity ∨ query.length = signature.arity + 1) :
    Checked signature (Dispatch.synthesize signature query) := by
  have hkey := Dispatch.elementTypes_synthesize_withOutput hlen
  refine checked_iff_synthesized.2 ⟨hbound, _, hkey, ?_, ?_⟩
  · rw [Dispatch.anyLayout_synthesize hlen, Dispatch.synthesize_withOutput hne hlen]
  · rw [(elementTypes_eq_ok.1 hkey).length_eq, Dispatch.length_withOutput hne hlen]

/-- The compiler takes a call signature exactly if it is, but for the layouts of its arrays, what its own
element types stand for, given that the output dimensions are bound and that the options allow the kernel
at all. In particular it takes what any element types stand for, and these can be read off again. -/
theorem compiles_iff_synthesized (recipe : Recipe) (engine : Engine) :
    (∀ call, (∃ artifact engine', compile recipe call engine = (.ok artifact, engine')) ↔
      (∀ name ∈ recipe.signature.output, ∃ core ∈ recipe.signature.inputs, name ∈ core) ∧
      ¬ (recipe.kernel.isObject = true ∧ recipe.options.nativeOnly = true) ∧
      ∃ key, elementTypes call.args = .ok key ∧
        call.anyLayout = Dispatch.synthesize recipe.signature key ∧
        call.args.length = recipe.signature.arity + 1) ∧
    ∀ query ≠ [], query.length = recipe.signature.arity ∨
        query.length = recipe.signature.arity + 1 →
      ((∀ name ∈ recipe.signature.output, ∃ core ∈ recipe.signature.inputs, name ∈ core) →
        ¬ (recipe.kernel.isObject = true ∧ recipe.options.nativeOnly = true) →
        ∃ artifact engine', compile recipe (Dispatch.synthesize recipe.signature query) engine =
          (.ok artifact, engine')) ∧
      elementTypes (Dispatch.synthesize recipe.signature query).args =
        .ok (Dispatch.withOutput recipe.signature.arity query) := by
  simp only [← takes_iff_compile, takes_iff, ← CoreSignature.unboundOutputs_eq_nil]
  constructor
  case left =>
    intro call
    rw [checked_iff_synthesized, and_assoc]
    exact and_congr_right' and_comm
  case right =>
    intro query hne hlen
    exact ⟨fun hbound hallowed => ⟨checked_synthesize hbound hne hlen, hallowed⟩,
      Dispatch.elementTypes_synthesize_withOutput hlen⟩

/-- A row times a factor. -/
def scaling : Recipe :=
  ⟨⟨"scale", none, .native fun _ => .done, 0⟩, ⟨[["n"], []], ["n"]⟩, .default⟩

/-- Rows are taken in a layout of their own, and an array for the factor is not. Where the type of the
result is not given, it is that of the factor. -/
theorem compiles_iff_synthesized_scaling :
    (∃ artifact engine', compile scaling
      (.void [.array .float32 1 .f, .scalar .int64, .array .float64 1 .c]) .fresh =
        (.ok artifact, engine')) ∧
    (¬ ∃ artifact engine', compile scaling
      (.void [.array .float32 1 .f, .array .int64 1 .c, .array .float64 1 .c]) .fresh =
        (.ok artifact, engine')) ∧
    (∃ artifact engine', compile scaling
      (Dispatch.synthesize scaling.signature [.float32, .int64]) .fresh = (.ok artifact, engine')) ∧
    elementTypes (Dispatch.synthesize scaling.signature [.float32, .int64]).args =
      .ok [.float32, .int64, .int64] := by
  have hbound : ∀ name ∈ scaling.signature.output,
      ∃ core ∈ scaling.signature.inputs, name ∈ core := by decide
  obtain ⟨htakes, hmade⟩ := compiles_iff_synthesized scaling .fresh
  obtain ⟨hcompile, htypes⟩ := hmade [.float32, .int64] (by decide) (.inl rfl)
  refine ⟨(htakes _).2 ⟨hbound, by decide, [.float32, .int64, .float64], rfl, rfl, rfl⟩, ?_,
    hcompile hbound (by decide), htypes⟩
  rw [htakes]
  rintro ⟨-, -, key, hkey, hsame, -⟩
  cases hkey
  cases hsame

end Compiler

end Corewise
