import Corewise.Proofs.DynamicFunction.Compiling
import Corewise.Proofs.DynamicFunction.Frozen
/-!
Calls of functions that are static or frozen. They go to the table in use and change nothing but memory;
and a frozen function whose table has all its entries runs a typed call site just as it runs a call.
-/

namespace Corewise

namespace DynamicFunction

variable {f : DynamicFunction} {engine : Engine} {m : Memory} {args operands : List Value}
  {out : Option Value} {result : Except Error Value × Machine}

/-- A call that changed memory at most, and of the function its trampolines. -/
structure Undisturbed (f : DynamicFunction) (engine : Engine)
    (result : Except Error Value × Machine) : Prop where
  function : ∃ pass, result.2.function = { f with pass }
  engine : result.2.engine = engine

theorem onTable_undisturbed (body : LoopTable → Execute Value) :
    Undisturbed f engine ((Step.onTable body).run ⟨f, engine, m⟩) := ⟨⟨_, rfl⟩, rfl⟩

theorem call_undisturbed (hfixed : f.lifecycle.isFixed = true) :
    Undisturbed f engine ((call args out).run ⟨f, engine, m⟩) := by
  rw [call_of_fixed hfixed]
  exact onTable_undisturbed _

theorem lowerCall_of_none (h : f.specialization? (m.dtypes args) = none) :
    (lowerCall args).run ⟨f, engine, m⟩ =
      (.error (.noMatch f.name (m.dtypes args)), ⟨f, engine, m⟩) := by
  unfold lowerCall
  rw [Effect.run_get_bind]
  dsimp only
  rw [h]
  rfl

theorem lowerCall_of_some {loop : Specialization}
    (h : f.specialization? (m.dtypes args) = some loop) :
    (lowerCall args).run ⟨f, engine, m⟩ =
      (Step.onTable (·.executeWith args loop)).run ⟨f, engine, m⟩ := by
  unfold lowerCall
  rw [Effect.run_get_bind]
  dsimp only
  rw [h]

theorem lowerCall_undisturbed : Undisturbed f engine ((lowerCall args).run ⟨f, engine, m⟩) := by
  rcases hloop : f.specialization? (m.dtypes args) with _ | loop
  · rw [lowerCall_of_none hloop]
    exact ⟨⟨f.pass, rfl⟩, rfl⟩
  · rw [lowerCall_of_some hloop]
    exact onTable_undisturbed _

section Count

variable (hcount : (args ++ out.toList).length = f.arity ∨ (args ++ out.toList).length = f.arity + 1)
include hcount

theorem onTable_call_of_none (h : f.Sound)
    (hselect : f.table.select? (m.dtypes (args ++ out.toList)) = none) :
    (Step.onTable (·.call args out)).run ⟨f, engine, m⟩ =
      (.error (.noMatch f.name (m.dtypes (args ++ out.toList))), ⟨f, engine, m⟩) := by
  have hcall := LoopTable.call_of_none (t := f.table) (x := ⟨f.pass, m⟩)
    (fun hwrong => hcount.elim hwrong.1 hwrong.2) hselect
  rw [Step.onTable_run, hcall, h.name]

theorem onTable_call_of_some {loop : Specialization}
    (hselect : f.table.select? (m.dtypes (args ++ out.toList)) = some loop) :
    (Step.onTable (·.call args out)).run ⟨f, engine, m⟩ =
      (Step.onTable (·.executeWith (args ++ out.toList) loop)).run ⟨f, engine, m⟩ := by
  apply Step.onTable_congr
  exact LoopTable.call_of_select (x := ⟨f.pass, m⟩) (fun hwrong => hcount.elim hwrong.1 hwrong.2)
    hselect

/-- A fixed function has no match for a call exactly if no loop of its table accepts the operands. -/
theorem Sound.call_noMatch_iff (h : f.Sound) (hfixed : f.lifecycle.isFixed = true)
    (hm : m.WellFormed) (hheld : ∀ v ∈ args ++ out.toList, m.Holds v) :
    (∃ name types, ((call args out).run ⟨f, engine, m⟩).1 = .error (.noMatch name types)) ↔
      ¬ f.Accepts (m.dtypes (args ++ out.toList)) := by
  rw [call_of_fixed hfixed, accepts_iff (by omega)]
  rcases hselect : f.table.select? (m.dtypes (args ++ out.toList)) with _ | loop
  case none =>
    rw [onTable_call_of_none hcount h hselect]
    exact ⟨fun _ => nofun, fun _ => ⟨_, _, rfl⟩⟩
  case some =>
    rw [onTable_call_of_some hcount hselect]
    constructor
    · rintro ⟨name, types, he⟩
      have hfailure := LoopTable.executeWith_error (x := ⟨f.pass, m⟩) h.table h.pass
        (h.table.of_select hselect) hm hheld (Prod.ext he rfl)
      cases hfailure
    · intro hnone
      exact absurd rfl hnone

end Count

/-- Where the table has all entries, a frozen function looks one up as the table selects it. -/
theorem Sound.specialization?_eq (h : f.Sound) (hfrozen : f.lifecycle.isFrozen = true)
    (hall : f.table.loops = f.registry.entries) (query : List DType) :
    f.specialization? query = f.table.select? query := by
  have harity : f.table.arity = f.registry.arity := h.arity_eq
  rw [h.specialization?_of_frozen hfrozen, LoopTable.select?, hall, harity]

theorem Sound.lowerCall_eq_call (h : f.Sound) (hfrozen : f.lifecycle.isFrozen = true)
    (hall : f.table.loops = f.registry.entries)
    (hcount : args.length = f.arity ∨ args.length = f.arity + 1) :
    (lowerCall args).run ⟨f, engine, m⟩ = (call args none).run ⟨f, engine, m⟩ := by
  have hfixed : f.lifecycle.isFixed = true := by
    rw [Lifecycle.isFixed, hfrozen, Bool.true_or]
  have hnone : args ++ (none : Option Value).toList = args := List.append_nil args
  have hcount' : (args ++ (none : Option Value).toList).length = f.arity ∨
      (args ++ (none : Option Value).toList).length = f.arity + 1 := by rwa [hnone]
  have hsame := h.specialization?_eq hfrozen hall (m.dtypes args)
  rw [call_of_fixed hfixed]
  rcases hselect : f.table.select? (m.dtypes args) with _ | loop
  · rw [lowerCall_of_none (hsame.trans hselect), onTable_call_of_none hcount' h (by rwa [hnone]),
      hnone]
  · rw [lowerCall_of_some (hsame.trans hselect), onTable_call_of_some hcount' (by rwa [hnone]),
      hnone]

end DynamicFunction

/-- A call of a frozen or static function leaves the function and its compiler alone, and fails for want
of a match exactly if its table has none. A frozen function whose table has all entries runs typed call
sites as it runs calls, whatever schedule the memory has for iterations that run at the same time. -/
theorem Reachable.fixed_calls {f : DynamicFunction} (h : Reachable f)
    (hfixed : f.lifecycle.isFrozen = true ∨ f.lifecycle.isDynamic = false) {m : Memory}
    (hm : m.WellFormed) (engine : Engine) :
    (∀ args out,
      DynamicFunction.Undisturbed f engine ((DynamicFunction.call args out).run ⟨f, engine, m⟩) ∧
      DynamicFunction.Undisturbed f engine ((DynamicFunction.lowerCall args).run ⟨f, engine, m⟩)) ∧
    (∀ (args : List Value) (out : Option Value), (args ++ out.toList).length = f.arity ∨
        (args ++ out.toList).length = f.arity + 1 → (∀ v ∈ args ++ out.toList, m.Holds v) →
      ((∃ name types, ((DynamicFunction.call args out).run ⟨f, engine, m⟩).1 =
        .error (.noMatch name types)) ↔ ¬ f.Accepts (m.dtypes (args ++ out.toList)))) ∧
    (f.lifecycle.isFrozen = true → f.table.loops = f.registry.entries →
      ∀ args : List Value, args.length = f.arity ∨ args.length = f.arity + 1 →
        f.specialization? (m.dtypes args) = f.table.select? (m.dtypes args) ∧
        (DynamicFunction.lowerCall args).run ⟨f, engine, m⟩ =
          (DynamicFunction.call args none).run ⟨f, engine, m⟩) := by
  have hf := h.sound
  have hfixed : f.lifecycle.isFixed = true := by
    rw [Lifecycle.isFixed, Bool.or_eq_true, Bool.not_eq_true']
    exact hfixed
  refine ⟨?undisturbed, ?noMatch, ?agreement⟩
  case undisturbed =>
    intro args out
    exact ⟨DynamicFunction.call_undisturbed hfixed, DynamicFunction.lowerCall_undisturbed⟩
  case noMatch =>
    intro args out hcount hheld
    exact hf.call_noMatch_iff hcount hfixed hm hheld
  case agreement =>
    intro hfrozen hall args hcount
    exact ⟨hf.specialization?_eq hfrozen hall _, hf.lowerCall_eq_call hfrozen hall hcount⟩

/-- Integers are widened to the one entry there is, and the output is made on both ways; but no loop puts
integers out. -/
theorem Reachable.fixed_calls_frozenCopy :
    (DynamicFunction.lowerCall [.array 0]).run
        ⟨frozenCopy, .fresh, .holding [⟨.int64, [2], [.int64 7, .int64 8]⟩]⟩ =
      (DynamicFunction.call [.array 0] none).run
        ⟨frozenCopy, .fresh, .holding [⟨.int64, [2], [.int64 7, .int64 8]⟩]⟩ ∧
    ¬ frozenCopy.Accepts [.int64, .int64] := by
  have hfrozen : frozenCopy.lifecycle.isFrozen = true := by decide +kernel
  constructor
  · obtain ⟨-, -, hagree⟩ := Reachable.fixed_calls reachable_frozenCopy (.inl hfrozen)
      (m := .holding [⟨.int64, [2], [.int64 7, .int64 8]⟩]) (by decide) .fresh
    exact (hagree hfrozen rfl [.array 0] (by decide +kernel)).2
  · obtain ⟨-, hnoMatch, -⟩ := Reachable.fixed_calls reachable_frozenCopy (.inl hfrozen)
      (m := .holding [.zeros .int64 [2]]) (by decide) .fresh
    apply (hnoMatch [.array 0] (some (.array 0)) (by decide +kernel) (by decide)).1
    exact ⟨"copy", [.int64, .int64], by decide +kernel⟩

end Corewise
