import Corewise.Proofs.Loop.Plan
/-!
Operands that a loop can be planned over. Binding the names of the cores one after the other comes to the
same as one assignment of sizes to all names, and broadcasting outer shapes that all stretch to that of the
output comes to the output's; so a plan says nothing but what the shapes of the operands say.
-/

namespace Corewise.Loop

/-- Names with their sizes, in the order in which they are first mentioned. -/
def CoreSizes.of (size : String → Nat) (names : List String) : CoreSizes :=
  names.eraseDups.map fun name => (name, size name)

namespace CoreSizes

variable {size size' : String → Nat} {names : List String} {name : String}

theorem lookup_of : (of size names).lookup name = if name ∈ names then some (size name) else none := by
  have hlookup (l : List String) : (l.map fun name => (name, size name)).lookup name =
      if name ∈ l then some (size name) else none := by
    induction l with
    | nil => rfl
    | cons other l ih =>
      by_cases heq : name = other
      · simp [heq]
      · have hne : (name == other) = false := beq_eq_false_iff_ne.2 heq
        simp [List.lookup_cons, hne, heq, ih]
  rw [of, hlookup]
  simp only [List.mem_eraseDups]

theorem of_congr (h : ∀ name ∈ names, size' name = size name) : of size' names = of size names := by
  apply List.map_congr_left
  intro name hname
  rw [h name (List.mem_eraseDups.1 hname)]

theorem of_append_of_mem (h : name ∈ names) : of size (names ++ [name]) = of size names := by
  simp [of, List.eraseDups_append, List.removeAll, h]

theorem of_append_of_not_mem (h : name ∉ names) :
    of size (names ++ [name]) = of size names ++ [(name, size name)] := by
  simp [of, List.eraseDups_append, List.removeAll, h, List.eraseDups_cons]

end CoreSizes

open CoreSizes

section Binding

variable {size : String → Nat} {names : List String} {position : Nat}

/-- A name that is bound must have the size found for it already, and any other gets that size. -/
theorem bindName_cases {dim : String × Nat} {sizes : CoreSizes}
    (h : bindName position (of size names) dim = .ok sizes) :
    ∃ size', (∀ name ∈ names, size' name = size name) ∧ size' dim.1 = dim.2 ∧
      sizes = of size' (names ++ [dim.1]) := by
  unfold bindName at h
  rw [lookup_of] at h
  by_cases hmem : dim.1 ∈ names
  case pos =>
    rw [if_pos hmem] at h
    dsimp only at h
    split at h
    case isTrue hsize =>
      cases h
      exact ⟨size, fun _ _ => rfl, hsize, (of_append_of_mem hmem).symm⟩
    case isFalse => cases h
  case neg =>
    rw [if_neg hmem] at h
    cases h
    have hkept : ∀ name ∈ names, Function.update size dim.1 dim.2 name = size name := by
      intro name hname
      apply Function.update_of_ne
      intro heq
      exact hmem (heq ▸ hname)
    refine ⟨Function.update size dim.1 dim.2, hkept, Function.update_self .., ?_⟩
    rw [of_append_of_not_mem hmem, of_congr hkept, Function.update_self]

theorem bindName_of_size {dim : String × Nat} (h : size dim.1 = dim.2) :
    bindName position (of size names) dim = .ok (of size (names ++ [dim.1])) := by
  unfold bindName
  rw [lookup_of]
  by_cases hmem : dim.1 ∈ names
  · rw [if_pos hmem, of_append_of_mem hmem]
    exact if_pos h
  · rw [if_neg hmem, of_append_of_not_mem hmem, h]

theorem foldlM_bindName_cases {dims : List (String × Nat)} {sizes : CoreSizes}
    (h : dims.foldlM (bindName position) (of size names) = .ok sizes) :
    ∃ size', (∀ name ∈ names, size' name = size name) ∧ (∀ dim ∈ dims, size' dim.1 = dim.2) ∧
      sizes = of size' (names ++ dims.map Prod.fst) := by
  induction dims generalizing size names with
  | nil =>
    cases h
    exact ⟨size, fun _ _ => rfl, by simp, by simp⟩
  | cons dim dims ih =>
    rw [List.foldlM_cons] at h
    obtain ⟨next, hnext, hrest⟩ := Effect.bind_eq_ok.1 h
    obtain ⟨size₁, hkept₁, hdim, rfl⟩ := bindName_cases hnext
    obtain ⟨size₂, hkept₂, hdims, rfl⟩ := ih hrest
    rw [List.forall_mem_append, List.forall_mem_singleton] at hkept₂
    refine ⟨size₂, ?_, List.forall_mem_cons.2 ⟨hkept₂.2.trans hdim, hdims⟩, by simp⟩
    intro name hname
    rw [hkept₂.1 name hname, hkept₁ name hname]

theorem foldlM_bindName_of_size {dims : List (String × Nat)} (h : ∀ dim ∈ dims, size dim.1 = dim.2) :
    dims.foldlM (bindName position) (of size names) = .ok (of size (names ++ dims.map Prod.fst)) := by
  induction dims generalizing names with
  | nil => simp [pure, Except.pure]
  | cons dim dims ih =>
    obtain ⟨hdim, hdims⟩ := List.forall_mem_cons.1 h
    rw [List.foldlM_cons, bindName_of_size hdim]
    refine (ih hdims).trans ?_
    simp

end Binding

/-- The last axes of an operand have the sizes of the names in its core. -/
def Sized (size : String → Nat) (operand : List Nat × Core) : Prop :=
  operand.2.length ≤ operand.1.length ∧ coreOf operand.1 operand.2.length = operand.2.map size

variable {size : String → Nat} {names : List String} {outers : List (List Nat)}

theorem sized_zip {core : Core} {shape : List Nat} (h : core.length = shape.length) :
    (∀ dim ∈ core.zip shape, size dim.1 = dim.2) ↔ shape = core.map size := by
  induction core generalizing shape with
  | nil =>
    cases shape with
    | nil => simp
    | cons => cases h
  | cons name core ih =>
    cases shape with
    | nil => cases h
    | cons d shape =>
      rw [List.zip_cons_cons, List.forall_mem_cons, ih (Nat.succ.inj h), List.map_cons, List.cons.injEq]
      exact and_congr_left fun _ => eq_comm

theorem splitCore_eq_ok {position : Nat} {shape : List Nat} {core : Core} {parts : List Nat × List Nat} :
    splitCore position shape core = .ok parts ↔ core.length ≤ shape.length ∧
      parts = (outerOf shape core.length, coreOf shape core.length) := by
  unfold splitCore
  split
  case isTrue hlt => exact ⟨nofun, fun h => absurd h.1 (Nat.not_le.2 hlt)⟩
  case isFalse hle =>
    rw [List.splitAt_eq, Except.ok.injEq]
    exact ⟨fun h => ⟨Nat.le_of_not_lt hle, h.symm⟩, fun h => h.2.symm⟩

theorem bindOperand_cases {operand : (List Nat × Core) × Nat} {found : CoreSizes × List (List Nat)}
    (h : bindOperand (of size names, outers) operand = .ok found) :
    ∃ size', (∀ name ∈ names, size' name = size name) ∧ Sized size' operand.1 ∧
      found = (of size' (names ++ operand.1.2), outers ++ [outerOf operand.1.1 operand.1.2.length]) := by
  obtain ⟨⟨shape, core⟩, position⟩ := operand
  simp only [bindOperand, Effect.bind_eq_ok, splitCore_eq_ok] at h
  obtain ⟨⟨outer, coreShape⟩, ⟨hle, hparts⟩, sizes, hsizes, hfound⟩ := h
  cases hparts
  cases hfound
  have hlength := (length_coreOf hle).symm
  obtain ⟨size', hkept, hdims, rfl⟩ := foldlM_bindName_cases hsizes
  rw [List.map_fst_zip (Nat.le_of_eq hlength)]
  exact ⟨size', hkept, ⟨hle, (sized_zip hlength).1 hdims⟩, rfl⟩

theorem bindOperand_of_sized {operand : (List Nat × Core) × Nat} (h : Sized size operand.1) :
    bindOperand (of size names, outers) operand =
      .ok (of size (names ++ operand.1.2), outers ++ [outerOf operand.1.1 operand.1.2.length]) := by
  obtain ⟨⟨shape, core⟩, position⟩ := operand
  obtain ⟨hle, hsize⟩ := h
  have hlength := (length_coreOf hle).symm
  have hsizes : bindCore position core (coreOf shape core.length) (of size names) =
      .ok (of size (names ++ core)) := by
    rw [bindCore, foldlM_bindName_of_size ((sized_zip hlength).2 hsize),
      List.map_fst_zip (Nat.le_of_eq hlength)]
  simp only [bindOperand, Effect.bind_eq_ok, splitCore_eq_ok]
  exact ⟨_, ⟨hle, rfl⟩, _, hsizes, rfl⟩

theorem foldlM_bindOperand_cases {operands : List ((List Nat × Core) × Nat)}
    {found : CoreSizes × List (List Nat)}
    (h : operands.foldlM bindOperand (of size names, outers) = .ok found) :
    ∃ size', (∀ name ∈ names, size' name = size name) ∧ (∀ o ∈ operands, Sized size' o.1) ∧
      found = (of size' (names ++ (operands.map (·.1.2)).flatten),
        outers ++ operands.map fun o => outerOf o.1.1 o.1.2.length) := by
  induction operands generalizing size names outers with
  | nil =>
    cases h
    exact ⟨size, fun _ _ => rfl, by simp, by simp⟩
  | cons o operands ih =>
    rw [List.foldlM_cons] at h
    obtain ⟨next, hnext, hrest⟩ := Effect.bind_eq_ok.1 h
    obtain ⟨size₁, hkept₁, hsized, rfl⟩ := bindOperand_cases hnext
    obtain ⟨size₂, hkept₂, hall, rfl⟩ := ih hrest
    rw [List.forall_mem_append] at hkept₂
    -- Names that were sized first keep their sizes, so the operands bound before still fit.
    have hsized₂ : Sized size₂ o.1 := by
      refine ⟨hsized.1, hsized.2.trans ?_⟩
      exact (List.map_congr_left hkept₂.2).symm
    refine ⟨size₂, ?_, List.forall_mem_cons.2 ⟨hsized₂, hall⟩, by simp⟩
    intro name hname
    rw [hkept₂.1 name hname, hkept₁ name hname]

theorem foldlM_bindOperand_of_sized {operands : List ((List Nat × Core) × Nat)}
    (h : ∀ o ∈ operands, Sized size o.1) :
    operands.foldlM bindOperand (of size names, outers) =
      .ok (of size (names ++ (operands.map (·.1.2)).flatten),
        outers ++ operands.map fun o => outerOf o.1.1 o.1.2.length) := by
  induction operands generalizing names outers with
  | nil => simp [pure, Except.pure]
  | cons o operands ih =>
    obtain ⟨ho, hrest⟩ := List.forall_mem_cons.1 h
    rw [List.foldlM_cons, bindOperand_of_sized ho]
    refine (ih hrest).trans ?_
    simp

/-- Binding operands in a row is sizing all of them at once. -/
theorem foldlM_bindOperand_iff {operands : List ((List Nat × Core) × Nat)}
    {found : CoreSizes × List (List Nat)} :
    operands.foldlM bindOperand ([], []) = .ok found ↔
      ∃ size, (∀ o ∈ operands, Sized size o.1) ∧
        found = (of size (operands.map (·.1.2)).flatten,
          operands.map fun o => outerOf o.1.1 o.1.2.length) := by
  constructor
  case mp =>
    intro h
    obtain ⟨size, -, hsized, hfound⟩ := @foldlM_bindOperand_cases (fun _ => 0) [] [] operands found h
    exact ⟨size, hsized, hfound⟩
  case mpr =>
    rintro ⟨size, hsized, rfl⟩
    exact @foldlM_bindOperand_of_sized size [] [] operands hsized

/-- Operands that a loop can run over when the dimensions have these sizes. Axes in front of the cores
stretch to those of the output, and none of the output's is stretched. -/
structure WellShaped (signature : CoreSignature) (operands : List Contents) (output : Buffer)
    (size : String → Nat) : Prop where
  count : operands.length = signature.arity + 1
  last : operands.getLast? = some (.array output)
  ranked : ∀ o ∈ operands.zip signature.cores, o.2.length ≤ o.1.shape.length
  sized : ∀ o ∈ operands.zip signature.cores, coreOf o.1.shape o.2.length = o.2.map size
  stretches : ∀ o ∈ operands.zip signature.cores,
    Shape.Stretches (outerOf o.1.shape o.2.length) (outerOf output.shape signature.outputRank)

section Plan

variable {signature : CoreSignature} {operands : List Contents} {output : Buffer}

theorem getLast?_operands (hcount : operands.length = signature.arity + 1) :
    operands.getLast? = operands[signature.arity]? := by
  rw [List.getLast?_eq_getElem?, hcount, Nat.add_sub_cancel]

/-- What is bound in the course of planning: the inputs, and then the output. -/
def bindings (signature : CoreSignature) (operands : List Contents) (output : Buffer) :
    List ((List Nat × Core) × Nat) :=
  (((operands.take signature.arity).map Contents.shape).zip signature.inputs).zipIdx ++
    [((output.shape, signature.output), signature.arity)]

theorem foldlM_bindings (found : CoreSizes × List (List Nat)) :
    (bindings signature operands output).foldlM bindOperand ([], []) = .ok found ↔
      ∃ inputs, bindInputs signature ((operands.take signature.arity).map Contents.shape) = .ok inputs ∧
        bindOperand inputs ((output.shape, signature.output), signature.arity) = .ok found := by
  rw [bindings, List.foldlM_append, Effect.bind_eq_ok]
  apply exists_congr
  intro inputs
  rw [List.foldlM_cons]
  apply and_congr_right
  intro _
  rw [Effect.bind_eq_ok]
  constructor
  · rintro ⟨_, hbound, hdone⟩
    cases hdone
    exact hbound
  · intro hbound
    exact ⟨found, hbound, rfl⟩

theorem map_fst_bindings (hcount : operands.length = signature.arity + 1)
    (houtput : operands[signature.arity]? = some (.array output)) :
    (bindings signature operands output).map Prod.fst =
      (operands.zip signature.cores).map fun o => (o.1.shape, o.2) := by
  have hlength : (operands.take signature.arity).length = signature.inputs.length := by
    rw [List.length_take, hcount]
    exact Nat.min_eq_left (Nat.le_succ _)
  conv_rhs => rw [eq_append_output hcount houtput]
  rw [CoreSignature.cores, List.zip_append hlength, List.map_append, bindings, List.map_append,
    List.zipIdx_map_fst, List.zip_map_left]
  rfl

/-- What binding comes to. -/
theorem foldlM_bindings_iff (hcount : operands.length = signature.arity + 1)
    (houtput : operands[signature.arity]? = some (.array output)) {found : CoreSizes × List (List Nat)} :
    (bindings signature operands output).foldlM bindOperand ([], []) = .ok found ↔
      ∃ size, (∀ o ∈ operands.zip signature.cores, Sized size (o.1.shape, o.2)) ∧
        found = (of size signature.cores.flatten,
          (operands.zip signature.cores).map fun o => outerOf o.1.shape o.2.length) := by
  have hfst := map_fst_bindings hcount houtput
  have hcores : (bindings signature operands output).map (·.1.2) = signature.cores := by
    have hsnd : (bindings signature operands output).map (·.1.2) =
        ((bindings signature operands output).map Prod.fst).map Prod.snd := by
      rw [List.map_map]
      rfl
    rw [hsnd, hfst, List.map_map]
    exact List.map_snd_zip (Nat.le_of_eq (signature.length_cores.trans hcount.symm))
  have houters : (bindings signature operands output).map (fun o => outerOf o.1.1 o.1.2.length) =
      (operands.zip signature.cores).map fun o => outerOf o.1.shape o.2.length := by
    have hsplit : (bindings signature operands output).map (fun o => outerOf o.1.1 o.1.2.length) =
        ((bindings signature operands output).map Prod.fst).map fun o => outerOf o.1 o.2.length := by
      rw [List.map_map]
      rfl
    rw [hsplit, hfst, List.map_map]
    rfl
  have hsized (size : String → Nat) : (∀ o ∈ bindings signature operands output, Sized size o.1) ↔
      ∀ o ∈ operands.zip signature.cores, Sized size (o.1.shape, o.2) := by
    rw [← List.forall_mem_map (f := Prod.fst) (P := Sized size), hfst, List.forall_mem_map]
  rw [foldlM_bindOperand_iff, hcores, houters]
  simp only [hsized]

theorem plan_of_bindings (hcount : operands.length = signature.arity + 1)
    (houtput : operands[signature.arity]? = some (.array output)) {sizes : CoreSizes}
    {outers : List (List Nat)}
    (hbound : (bindings signature operands output).foldlM bindOperand ([], []) = .ok (sizes, outers))
    (hjoined : broadcast outers = .ok (outerOf output.shape signature.outputRank)) :
    plan signature operands = .ok ⟨outerOf output.shape signature.outputRank, outers, sizes⟩ := by
  obtain ⟨inputs, hinputs, hbound⟩ := (foldlM_bindings _).1 hbound
  unfold plan
  dsimp only
  rw [if_neg (not_not.2 hcount)]
  refine Effect.bind_eq_ok.2 ⟨inputs, hinputs, ?_⟩
  rw [houtput]
  refine Effect.bind_eq_ok.2 ⟨_, hbound, ?_⟩
  refine Effect.bind_eq_ok.2 ⟨_, hjoined, ?_⟩
  exact if_pos rfl

theorem wellShaped_of_plan {p : Plan} (h : plan signature operands = .ok p) :
    ∃ output size, WellShaped signature operands output size ∧
      p = ⟨outerOf output.shape signature.outputRank,
        (operands.zip signature.cores).map fun o => outerOf o.1.shape o.2.length,
        of size signature.cores.flatten⟩ := by
  obtain ⟨inputs, output, hcount, houtput, hinputs, hbound, hjoined, houter⟩ := plan_cases h
  have hall := (foldlM_bindings _).2 ⟨inputs, hinputs, hbound⟩
  obtain ⟨size, hsized, hfound⟩ := (foldlM_bindings_iff hcount houtput).1 hall
  obtain ⟨hsizes, houters⟩ := Prod.mk.inj hfound
  refine ⟨output, size, ?shaped, ?made⟩
  case shaped =>
    constructor
    case count => exact hcount
    case last => rw [getLast?_operands hcount, houtput]
    case ranked => exact fun o ho => (hsized o ho).1
    case sized => exact fun o ho => (hsized o ho).2
    case stretches =>
      intro o ho
      rw [houter]
      apply broadcast_eq_ok hjoined
      rw [houters]
      exact List.mem_map_of_mem ho
  case made =>
    rw [← hsizes, ← houters, houter]

theorem WellShaped.plan {size : String → Nat} (h : WellShaped signature operands output size) :
    Loop.plan signature operands = .ok ⟨outerOf output.shape signature.outputRank,
      (operands.zip signature.cores).map fun o => outerOf o.1.shape o.2.length,
      of size signature.cores.flatten⟩ := by
  have houtput : operands[signature.arity]? = some (.array output) := by
    rw [← getLast?_operands h.count, h.last]
  have hbound := (foldlM_bindings_iff h.count houtput).2
    ⟨size, fun o ho => ⟨h.ranked o ho, h.sized o ho⟩, rfl⟩
  -- The output is among the operands, so what they all stretch to is their broadcast.
  have hlast : (Contents.array output, signature.output) ∈ operands.zip signature.cores := by
    apply List.mem_of_getElem? (i := signature.arity)
    rw [List.getElem?_zip_eq_some]
    exact ⟨houtput, List.getElem?_concat_length⟩
  have hjoined := Shape.broadcast_of_mem (List.mem_map_of_mem hlast)
    (List.forall_mem_map.2 h.stretches)
  apply plan_of_bindings h.count houtput hbound
  rw [broadcast, hjoined]
  rfl

/-- The output that inputs imply: in front of the sizes of its own names, what their outer shapes broadcast
to. -/
theorem outputShape_eq_ok {function : String} {shapes : List (List Nat)} {shape : List Nat}
    (h : outputShape function signature shapes = .ok shape) :
    ∃ size joined, (∀ o ∈ shapes.zip signature.inputs, Sized size o) ∧
      broadcast ((shapes.zip signature.inputs).map fun o => outerOf o.1 o.2.length) = .ok joined ∧
      shape = joined ++ signature.output.map size := by
  obtain ⟨found, hfound, h⟩ := Effect.bind_eq_ok.1 h
  obtain ⟨size, hsized, rfl⟩ := foldlM_bindOperand_iff.1 hfound
  obtain ⟨joined, hjoined, h⟩ := Effect.bind_eq_ok.1 h
  obtain ⟨core, hcore, h⟩ := Effect.bind_eq_ok.1 h
  cases h
  have hfst : (shapes.zip signature.inputs).zipIdx.map Prod.fst = shapes.zip signature.inputs :=
    List.zipIdx_map_fst 0 _
  have hcoreSizes : core = signature.output.map size := by
    rw [← List.forall₂_eq_eq_eq, List.forall₂_map_right_iff]
    refine (Effect.mapM_eq_ok.1 hcore).flip.imp ?_
    intro dim name hdim
    rw [lookup_of] at hdim
    split at hdim
    case h_1 found hfound =>
      cases hdim
      exact (Option.some.inj (Option.ite_none_right_eq_some.1 hfound).2).symm
    case h_2 => cases hdim
  refine ⟨size, joined, ?_, ?_, by rw [hcoreSizes]⟩
  · rw [← hfst, List.forall_mem_map]
    exact hsized
  · rw [← hfst, List.map_map]
    exact hjoined

/-- An output of the shape that the inputs imply goes with them. -/
theorem wellShaped_of_outputShape {function : String} {inputs : List Contents}
    (hcount : inputs.length = signature.arity)
    (h : outputShape function signature (inputs.map Contents.shape) = .ok output.shape) :
    ∃ size, WellShaped signature (inputs ++ [.array output]) output size ∧
      broadcast ((inputs.zip signature.inputs).map fun o => outerOf o.1.shape o.2.length) =
        .ok (outerOf output.shape signature.outputRank) := by
  obtain ⟨size, joined, hsized, hjoined, hshape⟩ := outputShape_eq_ok h
  rw [List.zip_map_left, List.map_map] at hjoined
  rw [List.zip_map_left, List.forall_mem_map] at hsized
  have hlength : output.shape.length - signature.output.length = joined.length := by
    rw [hshape, List.length_append, List.length_map, Nat.add_sub_cancel]
  have houter : outerOf output.shape signature.outputRank = joined := by
    rw [outerOf, CoreSignature.outputRank, hlength, hshape, List.take_left]
  have hcore : coreOf output.shape signature.output.length = signature.output.map size := by
    rw [coreOf, hlength, hshape, List.drop_left]
  have hranked : signature.output.length ≤ output.shape.length := by
    rw [hshape, List.length_append, List.length_map]
    exact Nat.le_add_left _ _
  have hzip : (inputs ++ [Contents.array output]).zip signature.cores =
      inputs.zip signature.inputs ++ [(.array output, signature.output)] := List.zip_append hcount
  refine ⟨size, ?shaped, houter ▸ hjoined⟩
  constructor
  case count => rw [List.length_append, hcount, List.length_singleton]
  case last => exact List.getLast?_concat
  case ranked =>
    rw [hzip, List.forall_mem_append, List.forall_mem_singleton]
    exact ⟨fun o ho => (hsized o ho).1, hranked⟩
  case sized =>
    rw [hzip, List.forall_mem_append, List.forall_mem_singleton]
    exact ⟨fun o ho => (hsized o ho).2, hcore⟩
  case stretches =>
    rw [hzip, List.forall_mem_append, List.forall_mem_singleton, houter]
    constructor
    · intro o ho
      exact broadcast_eq_ok hjoined _ (List.mem_map_of_mem ho)
    · exact houter ▸ Shape.stretches_refl _

/-- Exactly well-shaped operands have a plan. It loops over the outer shape of the output, and it has the
outer shapes of all operands, and the size of every dimension that is named. -/
theorem plan_eq_ok_iff {p : Plan} :
    plan signature operands = .ok p ↔ ∃ output size, WellShaped signature operands output size ∧
      p.outer = outerOf output.shape signature.outputRank ∧
      p.operandOuter = (operands.zip signature.cores).map (fun o => outerOf o.1.shape o.2.length) ∧
      p.coreSizes = .of size signature.cores.flatten := by
  constructor
  case mp =>
    intro h
    obtain ⟨output, size, hshaped, rfl⟩ := wellShaped_of_plan h
    exact ⟨output, size, hshaped, rfl, rfl, rfl⟩
  case mpr =>
    rintro ⟨output, size, hshaped, houter, houters, hsizes⟩
    rw [hshaped.plan, ← houter, ← houters, ← hsizes]

end Plan

end Corewise.Loop
