import Corewise.Proofs.DynamicFunction.Call
/-!
How calls of a function may fail. Where the operands fit together only the kernel can fail, and whatever
else stops a call has stopped it before the first iteration.
-/

namespace Corewise

namespace DynamicFunction

variable {f : DynamicFunction} {engine : Engine} {m : Memory} {args : List Value}
  {out : Option Value} {s : Machine} {e : Error}

/-- How a call may fail, with the memory before it and the machine that it leaves. -/
inductive CallFailure (recipe : Recipe) (operands : List Value) (m : Memory) (s : Machine) :
    Error → Prop
  | arity (wrong : operands.length ≠ s.function.arity + 1) : CallFailure recipe operands m s
      (.arity s.function.name (s.function.arity + 1) operands.length)
  | compilation (reason : Refusal) : CallFailure recipe operands m s
      (.compilation recipe.kernel.name
        (Dispatch.synthesize recipe.signature (m.dtypes operands)) reason)
  | table {e : Error} (rejected : s.function.table.Rejection recipe operands m s.memory e) :
      CallFailure recipe operands m s e

/-- Neither casts nor shapes of elements, nor outputs that cannot be made, are among the reasons. -/
theorem CallFailure.kind_mem {recipe : Recipe} {operands : List Value}
    (h : CallFailure recipe operands m s e) :
    e.kind ∈ ["Arity", "NoMatchingSpecialization", "Compilation", "ShapeMismatch", "Kernel"] := by
  cases h with
  | arity => simp [Error.kind]
  | compilation => simp [Error.kind]
  | table rejected =>
    cases rejected with
    | argumentRange => simp [Error.kind]
    | noMatch => simp [Error.kind]
    | failure failure => cases failure <;> simp [Error.kind]

theorem onTable_call_error (h : f.Sound) (hm : m.WellFormed)
    (hheld : ∀ v ∈ args ++ out.toList, m.Holds v)
    (he : (Step.onTable (·.call args out)).run ⟨f, engine, m⟩ = (.error e, s)) :
    CallFailure f.registry.recipe (args ++ out.toList) m s e := by
  obtain ⟨hresult, rfl⟩ := Prod.mk.injEq .. ▸ he
  exact .table (h.table.call_error (x := ⟨f.pass, m⟩) h.pass hm hheld (Prod.ext hresult rfl))

theorem Sound.call_error (h : f.Sound) (hm : m.WellFormed)
    (hheld : ∀ v ∈ args ++ out.toList, m.Holds v)
    (he : (call args out).run ⟨f, engine, m⟩ = (.error e, s)) :
    CallFailure f.registry.recipe (args ++ out.toList) m s e := by
  have hall : ∀ v ∈ (args ++ out.toList) ++ (none : Option Value).toList, m.Holds v := by
    rwa [Option.toList_none, List.append_nil]
  rw [← List.append_nil (args ++ out.toList)]
  by_cases hfixed : f.lifecycle.isFixed = true
  case pos =>
    rw [call_of_fixed hfixed] at he
    rw [List.append_nil]
    exact onTable_call_error h hm hheld he
  replace hfixed := Bool.eq_false_iff.2 hfixed
  by_cases hcount : (args ++ out.toList).length = f.arity + 1
  case neg =>
    rw [call_of_count hfixed hcount] at he
    cases he
    rw [List.append_nil]
    exact .arity hcount
  rcases hmatch : f.table.select? (m.dtypes (args ++ out.toList)) with _ | loop
  case some =>
    rw [call_of_match hfixed hcount (hmatch ▸ rfl)] at he
    exact onTable_call_error h hm hall he
  have hresolving := h.resolving engine m hcount
  generalize hresolve : f.registry.resolve f.name (m.dtypes (args ++ out.toList)) false true engine =
    result at hresolving
  cases hresolving with
  | found =>
    rw [call_of_resolved hfixed hcount hmatch hresolve] at he
    exact onTable_call_error (h.resolved hresolve) hm hall he
  | refused _ hcompile =>
    rw [call_of_refused hfixed hcount hmatch hresolve] at he
    cases he
    obtain ⟨⟨reason, rfl⟩, -⟩ := Compiler.compile_eq_error hcompile
    rw [List.append_nil]
    exact .compilation reason
  | compiled =>
    rw [call_of_resolved hfixed hcount hmatch hresolve] at he
    exact onTable_call_error (h.resolved hresolve) hm hall he

theorem Sound.lowerCall_error (h : f.Sound) (hm : m.WellFormed) (hheld : ∀ v ∈ args, m.Holds v)
    (he : (lowerCall args).run ⟨f, engine, m⟩ = (.error e, s)) :
    (e = .noMatch f.name (m.dtypes args) ∧ f.specialization? (m.dtypes args) = none) ∨
      LoopTable.Failure f.registry.recipe args m s.memory e := by
  unfold lowerCall at he
  rw [Effect.run_get_bind] at he
  dsimp only at he
  rcases hloop : f.specialization? (m.dtypes args) with _ | loop
  · rw [hloop] at he
    cases he
    exact .inl ⟨rfl, rfl⟩
  · rw [hloop] at he
    obtain ⟨hresult, rfl⟩ := Prod.mk.injEq .. ▸ he
    have hvalid := h.registry.valid loop (h.mem_of_specialization hloop)
    exact .inr (LoopTable.executeWith_error (x := ⟨f.pass, m⟩) h.table h.pass hvalid hm hheld
      (Prod.ext hresult rfl))

end DynamicFunction

/-- Once operands are planned only the kernel fails, in whichever order the iterations run and however
they take turns. A call may also be refused before that, for the number of its operands or their element
types, by the compiler, or because the operands do not fit together. -/
theorem Reachable.call_failures {f : DynamicFunction} (h : Reachable f) {m : Memory}
    (hm : m.WellFormed) :
    (∀ loop ∈ f.registry.entries, ∀ operands : List Value, (∀ v ∈ operands, m.Holds v) →
      ∀ plan, Loop.plan f.table.signature (m.contentsOf operands) = .ok plan →
      (∀ e x, (f.table.execute operands loop).run ⟨f.pass, m⟩ = (.error e, x) →
        ∃ text, e = .kernel text ∧ f.registry.recipe.kernel.body.Raised
          f.registry.recipe.options.parallel text m x.memory) ∧
      (∀ order : List Nat, (∀ flat ∈ order, flat < plan.iterations) →
        ∀ e m', (Loop.runOrder f.table.signature plan operands f.table.writable
          (f.table.trampolineFor operands loop ⟨f.pass, m⟩).1.call order).run m = (.error e, m') →
        ∃ text, e = .kernel text ∧ f.registry.recipe.kernel.body.RaisedIn text m') ∧
      ∀ m' tasks, Loop.Interleaves f.table.signature plan operands f.table.writable
          (f.table.trampolineFor operands loop ⟨f.pass, m⟩).1.call
          (m, (List.range plan.iterations).map .waiting) (m', tasks) →
        ∀ e, .failed e ∈ tasks → ∃ text noted held, e = .kernel text ∧
          m'.invocations = m.invocations ++ noted ∧ held ∈ noted ∧
          f.registry.recipe.kernel.body.Raises text held) ∧
    (∀ (engine : Engine) (args : List Value) (out : Option Value),
      (∀ v ∈ args ++ out.toList, m.Holds v) →
      ∀ e s, (DynamicFunction.call args out).run ⟨f, engine, m⟩ = (.error e, s) →
        DynamicFunction.CallFailure f.registry.recipe (args ++ out.toList) m s e ∧
        e.kind ∈ ["Arity", "NoMatchingSpecialization", "Compilation", "ShapeMismatch", "Kernel"]) ∧
    ∀ (engine : Engine) (args : List Value), (∀ v ∈ args, m.Holds v) →
      ∀ e s, (DynamicFunction.lowerCall args).run ⟨f, engine, m⟩ = (.error e, s) →
        (e = .noMatch f.name (m.dtypes args) ∧ f.specialization? (m.dtypes args) = none) ∨
          LoopTable.Failure f.registry.recipe args m s.memory e := by
  have hf := h.sound
  refine ⟨?_, ?_, ?_⟩
  case refine_1 =>
    intro loop hloop operands hheld plan hplan
    have hvalid := hf.registry.valid loop hloop
    refine ⟨fun e x he => ?_, fun order horder e m' he => ?_, fun m' tasks hreached e he => ?_⟩
    · exact LoopTable.execute_planned (x := ⟨f.pass, m⟩) hf.table hf.pass hvalid hm hheld hplan he
    · exact LoopTable.runOrder_planned (x := ⟨f.pass, m⟩) hf.table hf.pass hvalid hm hheld hplan horder he
    · exact LoopTable.interleaves_planned (x := ⟨f.pass, m⟩) hf.table hf.pass hvalid hm hheld hplan
        hreached he
  case refine_2 =>
    intro engine args out hheld e s he
    have hfailure := hf.call_error hm hheld he
    exact ⟨hfailure, hfailure.kind_mem⟩
  case refine_3 => exact fun engine args hheld e s he => hf.lowerCall_error hm hheld he

/-- A function whose kernel fails on every element. -/
def failing : DynamicFunction :=
  .new ⟨"check", 1⟩ ⟨⟨"check", none, .native fun _ => .fail "out of range", 0⟩, ⟨[[]], []⟩, .default⟩
    "()->()" .none false [] .dynamic

/-- The first call has to compile, and comes as far as the kernel. -/
theorem Reachable.call_failures_failing : ∃ s,
    (DynamicFunction.call [.scalar (.int64 1), .array 0] none).run
      ⟨failing, .fresh, .holding [.zeros .int64 [1]]⟩ = (.error (.kernel "out of range"), s) ∧
    failing.registry.recipe.kernel.body.RaisedIn "out of range" s.memory := by
  have hreached : Reachable failing := .new ..
  have hfails : ((DynamicFunction.call [.scalar (.int64 1), .array 0] none).run
      ⟨failing, .fresh, .holding [.zeros .int64 [1]]⟩).1 = .error (.kernel "out of range") := by
    decide +kernel
  have hheld : ∀ v ∈ [Value.scalar (.int64 1), .array 0] ++ (none : Option Value).toList,
      Memory.Holds (.holding [.zeros .int64 [1]]) v := by
    decide
  obtain ⟨hfailure, -⟩ := (@Reachable.call_failures failing hreached (.holding [.zeros .int64 [1]])
    (by decide)).2.1 .fresh [.scalar (.int64 1), .array 0] none hheld _ _ (Prod.ext hfails rfl)
  refine ⟨_, Prod.ext hfails rfl, ?_⟩
  cases hfailure with
  | table rejected =>
    cases rejected with
    | failure failure =>
      cases failure with
      | kernel raised => exact raised.last rfl

end Corewise
