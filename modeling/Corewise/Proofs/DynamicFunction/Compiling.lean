import Corewise.Proofs.DynamicFunction.Failure
/-!
When calls compile. An open function makes one request to its compiler where neither a loop of its table
nor an entry of its registry will do, and none otherwise.
-/

namespace Corewise

namespace DynamicFunction

variable {f g : DynamicFunction} {engine : Engine} {m : Memory} {args operands : List Value}
  {out : Option Value} {loop : Specialization} {result : Except Error Value × Machine}

/-- Some loop of the table in use has these element types, or the casting rules let it take them. -/
def Accepts (f : DynamicFunction) (query : List DType) : Prop :=
  ∃ loop ∈ f.table.loops,
    (loop.types f.arity).isExact (query.take f.arity) (query.drop f.arity) = true ∨
      (loop.types f.arity).accepts (query.take f.arity) (query.drop f.arity) = true

theorem accepts_iff (hcount : f.arity ≤ operands.length) :
    f.Accepts (m.dtypes operands) ↔ (f.table.select? (m.dtypes operands)).isSome = true := by
  have hlen : f.arity ≤ (m.dtypes operands).length := by
    rwa [Memory.dtypes, List.length_map]
  have hnone : f.table.select? (m.dtypes operands) = none ↔ _ := Dispatch.select_eq_none_iff hlen
  rw [← not_iff_not, Bool.not_eq_true, Option.isSome_eq_false_iff, Option.isNone_iff_eq_none]
  refine Iff.trans ?_ hnone.symm
  constructor
  case mp =>
    intro h loop hloop
    exact ⟨fun hexact => h ⟨loop, hloop, .inl (LoopTypes.isExact_iff.2 hexact)⟩,
      fun hcompatible => h ⟨loop, hloop, .inr (LoopTypes.accepts_iff.2 hcompatible)⟩⟩
  case mpr =>
    rintro h ⟨loop, hloop, hexact | haccepts⟩
    · exact (h loop hloop).1 (LoopTypes.isExact_iff.1 hexact)
    · exact (h loop hloop).2 (LoopTypes.accepts_iff.1 haccepts)

/-- The call runs a loop of the function, and changes nothing of it but its trampolines. -/
structure Delegates (g : DynamicFunction) (engine : Engine) (m : Memory) (operands : List Value)
    (loop : Specialization) (result : Except Error Value × Machine) : Prop where
  selected : g.table.select? (m.dtypes operands) = some loop
  run : result = (Step.onTable (·.executeWith operands loop)).run ⟨g, engine, m⟩
  function : ∃ pass, result.2.function = { g with pass }
  engine : result.2.engine = engine

theorem delegates_of_select (hcount : operands.length = g.arity + 1)
    (hselect : g.table.select? (m.dtypes operands) = some loop) :
    Delegates g engine m operands loop
      ((Step.onTable (·.call operands none)).run ⟨g, engine, m⟩) := by
  have hall : operands ++ (none : Option Value).toList = operands := List.append_nil operands
  have hcall : (g.table.call operands none).run ⟨g.pass, m⟩ =
      (g.table.executeWith (operands ++ (none : Option Value).toList) loop).run ⟨g.pass, m⟩ := by
    apply LoopTable.call_of_select
    · rw [hall]
      exact fun hwrong => hwrong.2 hcount
    · rw [hall]
      exact hselect
  rw [hall] at hcall
  exact ⟨hselect, Step.onTable_congr hcall, ⟨_, rfl⟩, rfl⟩

/-- Operands of these types need no compiling any more. -/
theorem Delegates.selected_after (h : Delegates g engine m operands loop result) :
    result.2.function.table.select? (m.dtypes operands) = some loop := by
  obtain ⟨pass, hfunction⟩ := h.function
  rw [hfunction]
  exact h.selected

/-- After a look-up the renewed table has the entry that was found. -/
theorem Sound.delegates_of_resolved (h : f.Sound) (hopen : f.lifecycle.isFixed = false)
    (hcount : (args ++ out.toList).length = f.arity + 1)
    (hmatch : f.table.select? (m.dtypes (args ++ out.toList)) = none) {found : Resolution}
    {r : Registry} {engine' : Engine}
    (hresolve : f.registry.resolve f.name (m.dtypes (args ++ out.toList)) false true engine =
      (.ok found, r, engine')) (hfound : r.find? (m.dtypes (args ++ out.toList)) = some loop) :
    Delegates { f with registry := r }.renewTable engine' m (args ++ out.toList) loop
      ((call args out).run ⟨f, engine, m⟩) := by
  have hgrows := h.registry.resolve_grows f.name (m.dtypes (args ++ out.toList)) false true engine
  rw [hresolve] at hgrows
  have harity : f.arity = r.arity :=
    h.arity_eq.trans (congrArg (fun recipe : Recipe => recipe.signature.arity) hgrows.recipe.symm)
  rw [call_of_resolved hopen hcount hmatch hresolve]
  refine delegates_of_select (hcount.trans (congrArg (· + 1) harity)) ?_
  refine hgrows.sound.select_of_find? (.inr ?_) hfound
  rw [Memory.dtypes, List.length_map, hcount, harity]

/-- The entry for these element types. -/
def entryFor (f : DynamicFunction) (query : List DType) (artifact : Artifact) : Specialization :=
  ⟨Dispatch.synthesize f.registry.recipe.signature query, query, artifact⟩

/-- The function with one more entry, and a table that has it. -/
def grown (f : DynamicFunction) (s : Specialization) : DynamicFunction :=
  { f with registry := f.registry.append s }.renewTable

/-- How a call can go where no loop of the table will do. -/
inductive Missed (f : DynamicFunction) (engine : Engine) (m : Memory) (operands : List Value) :
    Except Error Value × Machine → Prop
  /-- The registry has an entry that came after the table was made. -/
  | stored {s : Specialization} {result : Except Error Value × Machine}
      (mem : s ∈ f.registry.entries) (key : s.key = m.dtypes operands)
      (delegates : Delegates f.renewTable engine m operands s result) :
      Missed f engine m operands result
  | refused {reason : Refusal} {engine' : Engine}
      (absent : ∀ s ∈ f.registry.entries, s.key ≠ m.dtypes operands)
      (compile : Compiler.compile f.registry.recipe
          (Dispatch.synthesize f.registry.recipe.signature (m.dtypes operands)) engine =
        (.error (.compilation f.registry.recipe.kernel.name
          (Dispatch.synthesize f.registry.recipe.signature (m.dtypes operands)) reason), engine'))
      (failures : engine' = { engine with failures := engine.failures + 1 }) :
      Missed f engine m operands
        (.error (.compilation f.registry.recipe.kernel.name
          (Dispatch.synthesize f.registry.recipe.signature (m.dtypes operands)) reason),
        ⟨f, engine', m⟩)
  | compiled {artifact : Artifact} {engine' : Engine} {result : Except Error Value × Machine}
      (absent : ∀ s ∈ f.registry.entries, s.key ≠ m.dtypes operands)
      (compile : Compiler.compile f.registry.recipe
          (Dispatch.synthesize f.registry.recipe.signature (m.dtypes operands)) engine =
        (.ok artifact, engine'))
      (compilations : engine' = { engine with compilations := engine.compilations + 1 })
      (delegates : Delegates (f.grown (f.entryFor (m.dtypes operands) artifact)) engine' m operands
        (f.entryFor (m.dtypes operands) artifact) result) :
      Missed f engine m operands result

theorem delegates_of_accepts (hopen : f.lifecycle.isFixed = false)
    (hcount : (args ++ out.toList).length = f.arity + 1)
    (haccepts : f.Accepts (m.dtypes (args ++ out.toList))) :
    ∃ loop, Delegates f engine m (args ++ out.toList) loop
      ((call args out).run ⟨f, engine, m⟩) := by
  rw [accepts_iff (by omega)] at haccepts
  obtain ⟨loop, hloop⟩ := Option.isSome_iff_exists.1 haccepts
  rw [call_of_match hopen hcount haccepts]
  exact ⟨loop, delegates_of_select hcount hloop⟩

theorem Sound.missed (h : f.Sound) (hopen : f.lifecycle.isFixed = false)
    (hcount : (args ++ out.toList).length = f.arity + 1)
    (hrejects : ¬ f.Accepts (m.dtypes (args ++ out.toList))) :
    Missed f engine m (args ++ out.toList) ((call args out).run ⟨f, engine, m⟩) := by
  have hmatch : f.table.select? (m.dtypes (args ++ out.toList)) = none := by
    rwa [accepts_iff (by omega), Bool.not_eq_true, Option.isSome_eq_false_iff,
      Option.isNone_iff_eq_none] at hrejects
  have hlen : (m.dtypes (args ++ out.toList)).length = f.registry.arity + 1 := by
    rw [Memory.dtypes, List.length_map, hcount, h.arity_eq]
  have hresolving := h.resolving engine m hcount
  generalize hresolve : f.registry.resolve f.name (m.dtypes (args ++ out.toList)) false true engine =
    resolved at hresolving
  cases hresolving with
  | found hfound =>
    obtain ⟨hmem, hkey⟩ := h.registry.of_find?_all hlen hfound
    exact .stored hmem hkey (h.delegates_of_resolved hopen hcount hmatch hresolve hfound)
  | refused hmissing hcompile =>
    obtain ⟨⟨reason, rfl⟩, hfailures⟩ := Compiler.compile_eq_error hcompile
    rw [call_of_refused hopen hcount hmatch hresolve]
    exact .refused ((h.registry.find?_all_eq_none hlen).1 hmissing) hcompile hfailures
  | @compiled s _ hmissing habsent hsignature hcompile hvalid hfound =>
    have hdelegates := h.delegates_of_resolved hopen hcount hmatch hresolve hfound
    obtain ⟨-, hkey⟩ := (h.registry.append hvalid habsent).of_find?_all hlen hfound
    obtain ⟨-, -, hcompilations⟩ := Compiler.compile_eq_ok hcompile
    obtain ⟨signature, key, artifact⟩ := s
    cases hsignature
    cases hkey
    exact .compiled ((h.registry.find?_all_eq_none hlen).1 hmissing) hcompile hcompilations
      hdelegates

/-- Whatever an open call has to do first, the table that it goes to in the end has a loop for it. -/
theorem Sound.call_ne_noMatch (h : f.Sound) (hopen : f.lifecycle.isFixed = false)
    (hm : m.WellFormed) (hheld : ∀ v ∈ args ++ out.toList, m.Holds v) (name : String)
    (types : List DType) :
    ((call args out).run ⟨f, engine, m⟩).1 ≠ .error (.noMatch name types) := by
  intro he
  have hfailure := h.call_error hm hheld (Prod.ext he rfl)
  cases hfailure with
  | table rejected =>
    cases rejected with
    | failure failure => cases failure
    | noMatch unmatched =>
      by_cases hcount : (args ++ out.toList).length = f.arity + 1
      case neg =>
        rw [call_of_count hopen hcount] at he
        cases he
      by_cases haccepts : f.Accepts (m.dtypes (args ++ out.toList))
      case pos =>
        obtain ⟨loop, hdelegates⟩ := delegates_of_accepts hopen hcount haccepts
        cases unmatched.symm.trans hdelegates.selected_after
      have hmissed : Missed f engine m (args ++ out.toList) ((call args out).run ⟨f, engine, m⟩) :=
        h.missed hopen hcount haccepts
      generalize (call args out).run ⟨f, engine, m⟩ = result at *
      cases hmissed with
      | stored _ _ delegates => cases unmatched.symm.trans delegates.selected_after
      | refused => cases he
      | compiled _ _ _ delegates => cases unmatched.symm.trans delegates.selected_after

end DynamicFunction

/-- A call of an open function compiles where neither its table nor its registry has what the element
types need, and then once. Its compiler has counted one compilation for each entry. -/
theorem Owned.call_compiles {f : DynamicFunction} {engine : Engine} (h : Owned f engine)
    (hdynamic : f.lifecycle.isDynamic = true) (hopen : f.lifecycle.isFrozen = false) (m : Memory)
    (args : List Value) (out : Option Value) :
    ((args ++ out.toList).length ≠ f.arity + 1 →
      (DynamicFunction.call args out).run ⟨f, engine, m⟩ =
        (.error (.arity f.name (f.arity + 1) (args ++ out.toList).length), ⟨f, engine, m⟩)) ∧
    ((args ++ out.toList).length = f.arity + 1 → f.Accepts (m.dtypes (args ++ out.toList)) →
      ∃ loop, DynamicFunction.Delegates f engine m (args ++ out.toList) loop
        ((DynamicFunction.call args out).run ⟨f, engine, m⟩)) ∧
    ((args ++ out.toList).length = f.arity + 1 → ¬ f.Accepts (m.dtypes (args ++ out.toList)) →
      DynamicFunction.Missed f engine m (args ++ out.toList)
        ((DynamicFunction.call args out).run ⟨f, engine, m⟩)) ∧
    (m.WellFormed → (∀ v ∈ args ++ out.toList, m.Holds v) → ∀ name types,
      ((DynamicFunction.call args out).run ⟨f, engine, m⟩).1 ≠ .error (.noMatch name types)) ∧
    engine.compilations = f.registry.entries.length ∧
    ((DynamicFunction.call args out).run ⟨f, engine, m⟩).2.engine.compilations =
      ((DynamicFunction.call args out).run ⟨f, engine, m⟩).2.function.registry.entries.length := by
  have hf := h.reachable.sound
  have hfixed : f.lifecycle.isFixed = false := by
    rw [Lifecycle.isFixed, hopen, hdynamic]
    rfl
  have hcounted := (DynamicFunction.call_advances args out ⟨f, engine, m⟩ hf).counted
  have hcompilations := h.compilations_eq
  refine ⟨DynamicFunction.call_of_count hfixed, DynamicFunction.delegates_of_accepts hfixed,
    hf.missed hfixed, fun hm hheld => hf.call_ne_noMatch hfixed hm hheld, hcompilations, ?_⟩
  dsimp only at hcounted
  omega

/-- A function without specializations compiles at its first call, even if the kernel then fails. -/
theorem Owned.call_compiles_failing :
    DynamicFunction.Missed failing .fresh (.holding [.zeros .int64 [1]]) [.scalar (.int64 1), .array 0]
      ((DynamicFunction.call [.scalar (.int64 1), .array 0] none).run
        ⟨failing, .fresh, .holding [.zeros .int64 [1]]⟩) ∧
    ((DynamicFunction.call [.scalar (.int64 1), .array 0] none).run
      ⟨failing, .fresh, .holding [.zeros .int64 [1]]⟩).2.engine.compilations = 1 := by
  have howned : Owned failing .fresh := .new ..
  have hcall := @Owned.call_compiles failing .fresh howned rfl rfl (.holding [.zeros .int64 [1]])
    [.scalar (.int64 1), .array 0] none
  refine ⟨hcall.2.2.1 rfl ?_, by decide +kernel⟩
  rintro ⟨loop, hloop, -⟩
  exact List.not_mem_nil hloop

end Corewise
