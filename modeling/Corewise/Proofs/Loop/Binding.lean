import Corewise.Loop.Plan
import Corewise.Proofs.Effect
/-!
Binding names to sizes. A name that has a size keeps it, every name in the core of an input gets one, and
whatever is wrong with the operands of a plan is a conflict of their shapes.
-/

namespace Corewise.Loop

/-- A name has a size. -/
def Binds (sizes : CoreSizes) (name : String) : Prop := ∃ size, sizes.lookup name = some size

theorem Binds.append {sizes : CoreSizes} {name : String} (h : Binds sizes name) (more : CoreSizes) :
    Binds (sizes ++ more) name := by
  obtain ⟨size, hsize⟩ := h
  exact ⟨size, by rw [List.lookup_append, hsize, Option.some_or]⟩

theorem bindName_eq_ok {position : Nat} {sizes sizes' : CoreSizes} {dim : String × Nat}
    (h : bindName position sizes dim = .ok sizes') :
    Binds sizes' dim.1 ∧ ∀ name, Binds sizes name → Binds sizes' name := by
  obtain ⟨name, size⟩ := dim
  unfold bindName at h
  split at h
  case h_1 hnone =>
    cases h
    refine ⟨⟨size, ?_⟩, fun _ hname => hname.append _⟩
    rw [List.lookup_append, hnone, Option.none_or]
    exact List.lookup_cons_self
  case h_2 expected hsome =>
    split at h
    case isTrue =>
      cases h
      exact ⟨⟨expected, hsome⟩, fun _ => id⟩
    case isFalse => cases h

theorem foldlM_bindName_eq_ok {position : Nat} {dims : List (String × Nat)} {sizes sizes' : CoreSizes}
    (h : dims.foldlM (bindName position) sizes = .ok sizes') :
    (∀ dim ∈ dims, Binds sizes' dim.1) ∧ ∀ name, Binds sizes name → Binds sizes' name := by
  induction dims generalizing sizes with
  | nil =>
    cases h
    exact ⟨by simp, fun _ => id⟩
  | cons dim dims ih =>
    rw [List.foldlM_cons] at h
    obtain ⟨next, hnext, hrest⟩ := Effect.bind_eq_ok.1 h
    obtain ⟨hdim, hkept⟩ := bindName_eq_ok hnext
    obtain ⟨hdims, hrest⟩ := ih hrest
    refine ⟨List.forall_mem_cons.2 ⟨hrest _ hdim, hdims⟩, ?_⟩
    exact fun name hname => hrest name (hkept name hname)

theorem bindOperand_binds {found found' : CoreSizes × List (List Nat)} {shape : List Nat}
    {core : Core} {position : Nat}
    (h : bindOperand found ((shape, core), position) = .ok found') :
    (∀ name ∈ core, Binds found'.1 name) ∧ ∀ name, Binds found.1 name → Binds found'.1 name := by
  simp only [bindOperand, Effect.bind_eq_ok] at h
  obtain ⟨⟨outer, coreShape⟩, hsplit, sizes, hsizes, hfound⟩ := h
  cases hfound
  obtain ⟨hdims, hkept⟩ := foldlM_bindName_eq_ok hsizes
  refine ⟨?_, hkept⟩
  intro name hname
  have hlength : core.length ≤ coreShape.length := by
    unfold splitCore at hsplit
    split at hsplit
    case isTrue => cases hsplit
    case isFalse hlen =>
      rw [List.splitAt_eq] at hsplit
      cases hsplit
      rw [List.length_drop]
      omega
  rw [← List.map_fst_zip hlength] at hname
  obtain ⟨dim, hdim, rfl⟩ := List.mem_map.1 hname
  exact hdims dim hdim

theorem foldlM_bindOperand_binds {operands : List ((List Nat × Core) × Nat)}
    {found found' : CoreSizes × List (List Nat)}
    (h : operands.foldlM bindOperand found = .ok found') :
    (∀ o ∈ operands, ∀ name ∈ o.1.2, Binds found'.1 name) ∧
      ∀ name, Binds found.1 name → Binds found'.1 name := by
  induction operands generalizing found with
  | nil =>
    cases h
    exact ⟨by simp, fun _ => id⟩
  | cons o operands ih =>
    rw [List.foldlM_cons] at h
    obtain ⟨next, hnext, hrest⟩ := Effect.bind_eq_ok.1 h
    obtain ⟨hcore, hkept⟩ := bindOperand_binds hnext
    obtain ⟨hcores, hrest⟩ := ih hrest
    refine ⟨List.forall_mem_cons.2 ⟨fun name hname => hrest name (hcore name hname), hcores⟩, ?_⟩
    exact fun name hname => hrest name (hkept name hname)

/-- Every name in the core of an input has a size. -/
theorem bindInputs_binds {signature : CoreSignature} {shapes : List (List Nat)}
    {found : CoreSizes × List (List Nat)} (hlen : shapes.length = signature.arity)
    (h : bindInputs signature shapes = .ok found) {core : Core} (hcore : core ∈ signature.inputs)
    {name : String} (hname : name ∈ core) : Binds found.1 name := by
  obtain ⟨i, hi⟩ := List.getElem?_of_mem hcore
  have hlt : i < shapes.length := hlen ▸ (List.getElem?_eq_some_iff.1 hi).1
  have hmem : ((shapes[i], core), i) ∈ (shapes.zip signature.inputs).zipIdx := by
    rw [List.mem_zipIdx_iff_getElem?, List.getElem?_zip_eq_some]
    exact ⟨List.getElem?_eq_getElem hlt, hi⟩
  exact (foldlM_bindOperand_binds h).1 _ hmem name hname

/-! What can be wrong with operands. -/

/-- A result that is an error only because of shapes. -/
def ShapesOnly {α : Type} (r : Except Error α) : Prop :=
  ∀ e, r = .error e → ∃ conflict, e = .shapeConflict conflict

theorem ShapesOnly.ok {α : Type} (a : α) : ShapesOnly (.ok a) := by
  intro e h
  cases h

theorem ShapesOnly.conflict {α : Type} (c : ShapeConflict) :
    ShapesOnly (.error (.shapeConflict c) : Except Error α) := by
  rintro e ⟨⟩
  exact ⟨c, rfl⟩

theorem ShapesOnly.bind {α β : Type} {r : Except Error α} {f : α → Except Error β} (hr : ShapesOnly r)
    (hf : ∀ a, r = .ok a → ShapesOnly (f a)) : ShapesOnly (r >>= f) := by
  intro e h
  rcases Effect.bind_eq_error.1 h with h | ⟨a, ha, h⟩
  · exact hr e h
  · exact hf a ha e h

theorem ShapesOnly.foldlM {α β : Type} {f : β → α → Except Error β} (hf : ∀ b a, ShapesOnly (f b a))
    (l : List α) (b : β) : ShapesOnly (l.foldlM f b) := by
  induction l generalizing b with
  | nil => exact .ok b
  | cons a l ih =>
    rw [List.foldlM_cons]
    exact (hf b a).bind fun b' _ => ih b'

theorem ShapesOnly.mapM {α β : Type} {f : α → Except Error β} {l : List α}
    (hf : ∀ a ∈ l, ShapesOnly (f a)) : ShapesOnly (l.mapM f) := by
  induction l with
  | nil => exact .ok []
  | cons a l ih =>
    obtain ⟨ha, hrest⟩ := List.forall_mem_cons.1 hf
    rw [List.mapM_cons]
    refine ha.bind fun b _ => ?_
    exact (ih hrest).bind fun bs _ => .ok _

theorem bindName_shapesOnly (position : Nat) (sizes : CoreSizes) (dim : String × Nat) :
    ShapesOnly (bindName position sizes dim) := by
  unfold bindName
  split
  · exact .ok _
  · split
    · exact .ok _
    · exact .conflict _

theorem bindOperand_shapesOnly (found : CoreSizes × List (List Nat))
    (operand : (List Nat × Core) × Nat) : ShapesOnly (bindOperand found operand) := by
  have hsplit : ShapesOnly (splitCore operand.2 operand.1.1 operand.1.2) := by
    unfold splitCore
    split
    · exact .conflict _
    · exact .ok _
  refine hsplit.bind fun _ _ => ?_
  refine ShapesOnly.bind ?_ fun _ _ => .ok _
  exact .foldlM (bindName_shapesOnly _) _ _

theorem bindInputs_shapesOnly (signature : CoreSignature) (shapes : List (List Nat)) :
    ShapesOnly (bindInputs signature shapes) := .foldlM bindOperand_shapesOnly _ _

theorem broadcast_shapesOnly (shapes : List (List Nat)) : ShapesOnly (broadcast shapes) := by
  unfold broadcast
  split
  · exact .ok _
  · exact .conflict _

theorem plan_shapesOnly (signature : CoreSignature) (operands : List Contents) :
    ShapesOnly (plan signature operands) := by
  unfold plan
  dsimp only
  split
  case isTrue => exact .conflict _
  case isFalse =>
    refine (bindInputs_shapesOnly _ _).bind fun _ _ => ?_
    split
    case h_2 => exact .conflict _
    case h_1 =>
      refine (bindOperand_shapesOnly _ _).bind fun _ _ => ?_
      refine (broadcast_shapesOnly _).bind fun _ _ => ?_
      split
      · exact .ok _
      · exact .conflict _

/-- With all its dimensions in some input an output is missing nothing. -/
theorem outputShape_shapesOnly (function : String) {signature : CoreSignature}
    {shapes : List (List Nat)} (hlen : shapes.length = signature.arity)
    (hbound : signature.unboundOutputs = []) :
    ShapesOnly (outputShape function signature shapes) := by
  refine (bindInputs_shapesOnly _ _).bind fun found hfound => ?_
  refine (broadcast_shapesOnly _).bind fun outer _ => ?_
  have hnames : ∀ name ∈ signature.output, Binds found.1 name := by
    intro name hname
    have hfilter := List.filter_eq_nil_iff.1 hbound name hname
    simp only [Bool.not_eq_true, Bool.not_eq_false', List.any_eq_true] at hfilter
    obtain ⟨core, hcore, hmem⟩ := hfilter
    exact bindInputs_binds hlen hfound hcore (List.contains_iff_mem.1 hmem)
  refine ShapesOnly.bind (.mapM fun name hname => ?_) fun core _ => .ok _
  obtain ⟨size, hsize⟩ := hnames name hname
  rw [hsize]
  exact .ok size

end Corewise.Loop
