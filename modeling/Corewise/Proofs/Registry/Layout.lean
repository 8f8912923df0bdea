import Corewise.LoopTable
import Corewise.Proofs.Registry.Scan
/-!
Call signatures that differ only in the layouts of their arrays have the same element types, and of those
that the compiler takes no others have. A registry tells entries apart by their signatures, so it holds
element types once exactly if it holds no signature in two layouts.
-/

namespace Corewise

def OperandType.anyLayout : OperandType → OperandType
  | .array dtype rank _ => .anyArray dtype rank
  | type => type

def CallSignature.anyLayout (s : CallSignature) : CallSignature :=
  { s with args := s.args.map OperandType.anyLayout }

theorem OperandType.element?_anyLayout (type : OperandType) :
    type.anyLayout.element? = type.element? := by
  cases type <;> rfl

theorem elementTypes_anyLayout {types : List OperandType} {key : List DType} :
    elementTypes (types.map OperandType.anyLayout) = .ok key ↔ elementTypes types = .ok key := by
  rw [elementTypes_eq_ok, elementTypes_eq_ok, List.forall₂_map_left_iff]
  simp only [OperandType.element?_anyLayout]

/-- What a kernel is compiled for where a core has this rank. -/
def kernelOperand (rank : Nat) (dtype : DType) : OperandType :=
  if rank = 0 then .scalar dtype else .anyArray dtype rank

theorem FitsCore.anyLayout_eq {rank : Nat} {type : OperandType} {dtype : DType}
    (h : FitsCore rank type) (hdtype : type.element? = some dtype) :
    type.anyLayout = kernelOperand rank dtype := by
  cases h with
  | scalar =>
    cases hdtype
    rfl
  | array _ layout pos =>
    cases hdtype
    exact (if_neg pos).symm

/-- The core signature fixes the rank of each operand, and the element types the rest of it. -/
theorem Compiler.Checked.anyLayout_eq {signature : CoreSignature} {call : CallSignature}
    {key : List DType} (h : Checked signature call)
    (hkey : Corewise.elementTypes call.args = .ok key) :
    call.anyLayout = .void (List.zipWith kernelOperand signature.kernelRanks key) := by
  have helements := elementTypes_eq_ok.1 hkey
  have hargs : call.args.map OperandType.anyLayout =
      List.zipWith kernelOperand signature.kernelRanks key := by
    apply List.ext_getElem?
    intro i
    rw [List.getElem?_map, List.getElem?_zipWith]
    rcases htype : call.args[i]? with _ | type
    · have hlen := List.getElem?_eq_none_iff.1 htype
      rw [helements.length_eq] at hlen
      rw [List.getElem?_eq_none hlen]
      cases signature.kernelRanks[i]? <;> rfl
    · obtain ⟨dtype, hdtype, helement⟩ := exists_getElem?_of_forall₂ helements htype
      obtain ⟨rank, hrank⟩ : ∃ rank, signature.kernelRanks[i]? = some rank := by
        have hlt := (List.getElem?_eq_some_iff.1 htype).1
        rw [h.count, ← signature.length_kernelRanks] at hlt
        exact ⟨_, List.getElem?_eq_getElem hlt⟩
      rw [hdtype, hrank]
      exact congrArg some ((h.fits i rank type hrank htype).anyLayout_eq helement)
  rw [CallSignature.anyLayout, hargs, h.void]
  rfl

namespace Specialization

variable {recipe : Recipe} {s t : Specialization}

theorem Valid.anyLayout_eq (h : s.Valid recipe) : s.signature.anyLayout =
    .void (List.zipWith kernelOperand recipe.signature.kernelRanks s.key) :=
  Compiler.Checked.anyLayout_eq (h.signature ▸ h.serves.checked) h.key

theorem Valid.key_eq_iff (hs : s.Valid recipe) (ht : t.Valid recipe) :
    s.key = t.key ↔ s.signature.anyLayout = t.signature.anyLayout := by
  constructor
  case mp =>
    intro hkey
    rw [hs.anyLayout_eq, ht.anyLayout_eq, hkey]
  case mpr =>
    intro hlayout
    have hargs : s.signature.args.map OperandType.anyLayout =
        t.signature.args.map OperandType.anyLayout := congrArg CallSignature.args hlayout
    have hkey := elementTypes_anyLayout.2 hs.key
    rw [hargs, elementTypes_anyLayout.2 ht.key] at hkey
    exact (Except.ok.inj hkey).symm

end Specialization

theorem DType.code_injective : Function.Injective DType.code := by
  intro a b h
  cases a <;> cases b <;> first | rfl | cases h

namespace Dispatch

theorem loopCode_inj {arity : Nat} {types types' : List DType} (hlen : types.length = types'.length)
    (h : loopCode arity types = loopCode arity types') : types = types' := by
  have htake : (types.take arity).length = (types'.take arity).length := by
    rw [List.length_take, List.length_take, hlen]
  rw [loopCode, loopCode, String.ofList_inj, List.append_assoc, List.append_assoc] at h
  -- The codes of the inputs are as many on both sides, so the arrows stand at the same place.
  obtain ⟨hinputs, houtputs⟩ := List.append_inj h (by rw [List.length_map, List.length_map, htake])
  have hinputs := DType.code_injective.list_map hinputs
  have houtputs := DType.code_injective.list_map (List.append_cancel_left houtputs)
  rw [← List.take_append_drop arity types, hinputs, houtputs, List.take_append_drop]

end Dispatch

namespace Registry

variable {r : Registry} {s : Specialization} {call : CallSignature} {engine : Engine}

theorem Sound.nodup_keys_iff (h : r.Sound) :
    (r.entries.map (·.key)).Nodup ↔ (r.signatures.map CallSignature.anyLayout).Nodup := by
  rw [signatures, List.map_map, List.Nodup, List.pairwise_map, List.Nodup, List.pairwise_map]
  apply List.Pairwise.iff_of_mem
  intro s t hs ht
  exact not_congr ((h.valid s hs).key_eq_iff (h.valid t ht))

theorem Sound.nodup_codes_iff (h : r.Sound) (name : String) (identity : Identity)
    (writable : List Nat) : (LoopTable.ofRegistry name r identity writable).codes.Nodup ↔
      (r.entries.map (·.key)).Nodup := by
  show (r.entries.map fun s => Dispatch.loopCode r.arity s.key).Nodup ↔ _
  rw [List.Nodup, List.pairwise_map, List.Nodup, List.pairwise_map]
  apply List.Pairwise.iff_of_mem
  intro s t hs ht
  have hlen : s.key.length = t.key.length :=
    (h.valid s hs).length_key.trans (h.valid t ht).length_key.symm
  exact not_congr ⟨Dispatch.loopCode_inj hlen, fun hkey => hkey ▸ rfl⟩

theorem Sound.insert_eq_iff (h : r.Sound) (hs : s ∈ r.entries) (engine : Engine) :
    r.insert call engine = (.ok s, r, engine) ↔ call = s.signature := by
  constructor
  case mp =>
    intro hinsert
    have hinsertion := h.insert call engine
    generalize r.insert call engine = result at hinsert hinsertion
    cases hinsertion with
    | present mem signature =>
      cases hinsert
      exact signature.symm
    | untyped => cases hinsert
    | refused => cases hinsert
    | compiled =>
      cases (Prod.mk.inj hinsert).1
      rfl
  case mpr =>
    rintro rfl
    exact h.insert_of_mem hs engine

/-- Asking for element types that are stored compiles again unless it is by the same signature, so there
are as many entries for them as layouts they were asked for in. -/
theorem Reachable.nodup_keys_iff_layouts (h : r.Reachable) :
    (∀ s ∈ r.entries, ∀ call, elementTypes call.args = .ok s.key → ∀ engine,
      (r.insert call engine = (.ok s, r, engine) ↔ call = s.signature) ∧
      (call ∉ r.signatures → ∀ artifact engine',
        Compiler.compile r.recipe call engine = (.ok artifact, engine') →
        r.insert call engine =
          (.ok ⟨call, s.key, artifact⟩, r.append ⟨call, s.key, artifact⟩, engine'))) ∧
    ((r.entries.map (·.key)).Nodup ↔ (r.signatures.map CallSignature.anyLayout).Nodup) ∧
    ∀ name identity writable, (LoopTable.ofRegistry name r identity writable).codes.Nodup ↔
      (r.entries.map (·.key)).Nodup := by
  have hr := h.sound
  refine ⟨?_, hr.nodup_keys_iff, hr.nodup_codes_iff⟩
  intro s hs call hkey engine
  constructor
  · exact hr.insert_eq_iff hs engine
  · intro habsent artifact engine' hcompile
    exact hr.insert_of_compile habsent hkey hcompile

/-- What is stored for any layout is compiled again for the columns-first one. -/
theorem Reachable.nodup_keys_iff_twoLayouts :
    (∃ s ∈ twoLayouts.entries, s.signature = floatRows .any ∧
      elementTypes (floatRows .f).args = .ok s.key ∧
      ∀ engine, twoLayouts.insert (floatRows .f) engine ≠ (.ok s, twoLayouts, engine)) ∧
    ¬ (twoLayouts.entries.map (·.key)).Nodup := by
  obtain ⟨hinsert, hkeys, -⟩ := Reachable.nodup_keys_iff_layouts reachable_twoLayouts
  constructor
  · obtain ⟨s, hs, hsignature⟩ : ∃ s ∈ twoLayouts.entries, s.signature = floatRows .any :=
      List.mem_map.1 (show floatRows .any ∈ twoLayouts.signatures by decide +kernel)
    have hkey : elementTypes (floatRows .f).args = .ok s.key := by
      have hkey := (reachable_twoLayouts.sound.valid s hs).key
      rw [hsignature] at hkey
      exact hkey
    refine ⟨s, hs, hsignature, hkey, fun engine heq => ?_⟩
    have hsame := (hinsert s hs _ hkey engine).1.1 heq
    rw [hsignature] at hsame
    exact absurd hsame (by decide)
  · rw [hkeys]
    decide +kernel

/-- The element types are stored, and yet asking for them compiles a second entry with the same key, so
that a table of the entries lists the same element types twice. -/
theorem insert_stored_key :
    elementTypes (floatRows .c).args = .ok [.float64, .float64] ∧
    oneLayout.entries.map (·.key) = [[.float64, .float64]] ∧
    (oneLayout.insert (floatRows .c) .fresh).2.2.compilations = 1 ∧
    (oneLayout.insert (floatRows .c) .fresh).2.1.entries.map (·.key) =
      [[.float64, .float64], [.float64, .float64]] ∧
    (LoopTable.ofRegistry "copy" (oneLayout.insert (floatRows .c) .fresh).2.1 .none []).codes =
      ["d->d", "d->d"] := by
  decide +kernel

end Registry

end Corewise
