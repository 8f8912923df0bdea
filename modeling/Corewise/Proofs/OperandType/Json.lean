import Corewise.OperandType.Json
import Corewise.Proofs.Json.Decode
/-!
Operand types and call signatures written as JSON values. Ranks that fit a word are read back, and nothing else
of a type is lost.
-/

namespace Corewise

namespace OperandType

/-- The rank of an array type fits a word. -/
def Sized : OperandType → Prop
  | .array _ rank _ => rank < wordLimit
  | _ => True

instance (t : OperandType) : Decidable t.Sized :=
  match t with
  | .array _ rank _ => Nat.decLt rank wordLimit
  | .none | .any | .object | .scalar _ => .isTrue trivial

theorem dtypeOf_name (dtype : DType) : dtypeOf (.text dtype.name) = .ok dtype := by
  cases dtype <;> rfl

theorem layoutOf_name (layout : Layout) : layoutOf (.text layout.name) = .ok layout := by
  cases layout <;> rfl

theorem ofContent_scalar (dtype : DType) :
    ofContent .scalar (.table [(.text "dtype", .text dtype.name)]) = .ok (.scalar dtype) := by
  cases dtype <;> rfl

theorem ofContent_array (dtype : DType) (rank : Nat) (layout : Layout) :
    ofContent .array (.table [(.text "dtype", .text dtype.name), (.text "ndim", .natural rank),
      (.text "layout", .text layout.name)]) = .ok (.array dtype rank layout) := by
  have hfields (s : DType × Nat × Layout) : Content.readTable arrayFields [] s
      [(.text "dtype", .text dtype.name), (.text "ndim", .natural rank),
        (.text "layout", .text layout.name)] = .ok (dtype, rank, layout) := by
    have hdtype := dtypeOf_name dtype
    have hlayout := layoutOf_name layout
    -- What the names say is settled, and the names themselves only get in the way.
    generalize Content.text dtype.name = c at hdtype ⊢
    generalize Content.text layout.name = c' at hlayout ⊢
    simp [Content.readTable, arrayFields, Content.fieldName, hdtype, hlayout, Content.word, bind,
      Except.bind, pure, Except.pure]
  unfold ofContent Content.record
  dsimp only
  rw [hfields]
  rfl

/-- A type is read back from what is written for it. -/
theorem Sized.ofJson?_toJson {t : OperandType} (h : t.Sized) : ofJson? t.toJson = some t := by
  cases t with
  | none => rfl
  | any => rfl
  | object => rfl
  | scalar dtype =>
    have hread : ofJson? (toJson (.scalar dtype)) =
      (ofContent .scalar (.table [(.text "dtype", .text dtype.name)])).toOption := rfl
    rw [hread, ofContent_scalar]
    rfl
  | array dtype rank layout =>
    have hrank : Json.content? (.natural rank) = some (.natural rank) :=
      congrArg some (if_pos h)
    have hread : ofJson? (toJson (.array dtype rank layout)) =
        (Json.content? (.natural rank)).bind fun c =>
          (ofContent .array (.table [(.text "dtype", .text dtype.name), (.text "ndim", c),
            (.text "layout", .text layout.name)])).toOption := rfl
    rw [hread, hrank, Option.bind_some, ofContent_array]
    rfl

theorem Sized.readable {t : OperandType} (h : t.Sized) (depth : Nat) :
    Json.Readable (depth + 1) t.toJson := by
  cases t with
  | none => exact .object (List.forall_mem_singleton.2 (.string depth _))
  | any => exact .object (List.forall_mem_singleton.2 (.string depth _))
  | object => exact .object (List.forall_mem_singleton.2 (.string depth _))
  | scalar dtype =>
    refine .object ?_
    simp only [List.forall_mem_cons]
    exact ⟨.string depth _, .string depth _, nofun⟩
  | array dtype rank layout =>
    refine .object ?_
    simp only [List.forall_mem_cons]
    exact ⟨.string depth _, .string depth _, .natural depth h, .string depth _, nofun⟩

end OperandType

namespace CallSignature

def Sized (s : CallSignature) : Prop := (∀ t ∈ s.args, t.Sized) ∧ s.returnType.Sized

instance (s : CallSignature) : Decidable s.Sized :=
  inferInstanceAs (Decidable ((∀ t ∈ s.args, t.Sized) ∧ s.returnType.Sized))

/-- A call signature is read back from what is written for it. -/
theorem Sized.ofJson?_toJson {s : CallSignature} (h : s.Sized) : ofJson? s.toJson = some s := by
  obtain ⟨args, returnType⟩ := s
  have hargs : Json.list? OperandType.ofJson? (.array (args.map OperandType.toJson)) = some args :=
    Json.list?_map fun t ht => (h.1 t ht).ofJson?_toJson
  have hreturn : OperandType.ofJson? returnType.toJson = some returnType := h.2.ofJson?_toJson
  have hread : ofJson? (toJson ⟨args, returnType⟩) =
      (Json.list? OperandType.ofJson? (.array (args.map OperandType.toJson))).bind fun args =>
        (OperandType.ofJson? returnType.toJson).bind fun returnType => some ⟨args, returnType⟩ := rfl
  rw [hread, hargs, Option.bind_some, hreturn]
  rfl

theorem Sized.readable {s : CallSignature} (h : s.Sized) (depth : Nat) :
    Json.Readable (depth + 3) s.toJson := by
  have hargs : ∀ v ∈ s.args.map OperandType.toJson, Json.Readable (depth + 1) v := by
    intro v hv
    obtain ⟨t, ht, rfl⟩ := List.mem_map.1 hv
    exact (h.1 t ht).readable depth
  refine .object ?_
  simp only [List.forall_mem_cons]
  exact ⟨.array hargs, h.2.readable (depth + 1), nofun⟩

end CallSignature

end Corewise
