import Corewise.Proofs.DynamicFunction
/-!
A call of a function, branch by branch. A fixed function goes straight to its table; an open one looks for a
loop first, and where there is none has its registry find or compile an entry and renews its table.
-/

namespace Corewise

namespace Step

variable {α : Type} {s : Machine}

theorem onTable_run (body : LoopTable → Execute α) (s : Machine) :
    (onTable body).run s =
      (fun ran : Except Error α × Execution => (ran.1,
        { s with function := { s.function with pass := ran.2.pass }, memory := ran.2.memory }))
        ((body s.function.table).run ⟨s.function.pass, s.memory⟩) := rfl

theorem onTable_congr {body body' : LoopTable → Execute α}
    (h : (body s.function.table).run ⟨s.function.pass, s.memory⟩ =
      (body' s.function.table).run ⟨s.function.pass, s.memory⟩) :
    (onTable body).run s = (onTable body').run s := by
  rw [onTable_run, onTable_run, h]

theorem onRegistry_of_eq {body : Registry → Engine → Except Error α × Registry × Engine}
    {result : Except Error α} {r : Registry} {engine : Engine}
    (h : body s.function.registry s.engine = (result, r, engine)) :
    (onRegistry body).run s =
      (result, { s with function := { s.function with registry := r }, engine }) := by
  show ((body s.function.registry s.engine).1,
    { s with
      function := { s.function with registry := (body s.function.registry s.engine).2.1 }
      engine := (body s.function.registry s.engine).2.2 }) = _
  rw [h]

end Step

namespace DynamicFunction

variable {f : DynamicFunction} {engine : Engine} {m : Memory} {args : List Value}
  {out : Option Value}

theorem call_of_fixed (h : f.lifecycle.isFixed = true) :
    (call args out).run ⟨f, engine, m⟩ =
      (Step.onTable (·.call args out)).run ⟨f, engine, m⟩ := by
  unfold call
  rw [Effect.run_get_bind]
  dsimp only
  rw [if_pos h]

section Open

variable (h : f.lifecycle.isFixed = false)
include h

theorem call_of_count (hcount : (args ++ out.toList).length ≠ f.arity + 1) :
    (call args out).run ⟨f, engine, m⟩ =
      (.error (.arity f.name (f.arity + 1) (args ++ out.toList).length), ⟨f, engine, m⟩) := by
  unfold call
  rw [Effect.run_get_bind]
  dsimp only
  rw [if_neg (Bool.eq_false_iff.1 h), if_pos hcount]
  rfl

variable (hcount : (args ++ out.toList).length = f.arity + 1)
include hcount

theorem call_of_match (hmatch : (f.table.select? (m.dtypes (args ++ out.toList))).isSome) :
    (call args out).run ⟨f, engine, m⟩ =
      (Step.onTable (·.call (args ++ out.toList) none)).run ⟨f, engine, m⟩ := by
  unfold call
  rw [Effect.run_get_bind]
  dsimp only
  rw [if_neg (Bool.eq_false_iff.1 h), if_neg (not_not.2 hcount),
    if_neg (by rw [Option.isNone_iff_eq_none]; exact Option.isSome_iff_ne_none.1 hmatch)]

theorem call_of_refused (hmatch : f.table.select? (m.dtypes (args ++ out.toList)) = none)
    {e : Error} {r : Registry} {engine' : Engine}
    (hresolve : f.registry.resolve f.name (m.dtypes (args ++ out.toList)) false true engine =
      (.error e, r, engine')) :
    (call args out).run ⟨f, engine, m⟩ = (.error e, ⟨{ f with registry := r }, engine', m⟩) := by
  unfold call
  rw [Effect.run_get_bind]
  dsimp only
  rw [if_neg (Bool.eq_false_iff.1 h), if_neg (not_not.2 hcount),
    if_pos (Option.isNone_iff_eq_none.2 hmatch)]
  exact Effect.run_bind_of_error (Step.onRegistry_of_eq hresolve)

theorem call_of_resolved (hmatch : f.table.select? (m.dtypes (args ++ out.toList)) = none)
    {found : Resolution} {r : Registry} {engine' : Engine}
    (hresolve : f.registry.resolve f.name (m.dtypes (args ++ out.toList)) false true engine =
      (.ok found, r, engine')) :
    (call args out).run ⟨f, engine, m⟩ =
      (Step.onTable (·.call (args ++ out.toList) none)).run
        ⟨{ f with registry := r }.renewTable, engine', m⟩ := by
  unfold call
  rw [Effect.run_get_bind]
  dsimp only
  rw [if_neg (Bool.eq_false_iff.1 h), if_neg (not_not.2 hcount),
    if_pos (Option.isNone_iff_eq_none.2 hmatch)]
  exact Effect.run_bind_of_ok (Step.onRegistry_of_eq hresolve)

end Open

theorem Sound.arity_eq (h : f.Sound) : f.arity = f.registry.arity :=
  congrArg CoreSignature.arity h.signature

/-- What looking up the element types of all operands comes to. -/
theorem Sound.resolving (h : f.Sound) (engine : Engine) (m : Memory)
    (hcount : (args ++ out.toList).length = f.arity + 1) :
    Registry.Resolving f.registry (m.dtypes (args ++ out.toList)) engine
      (f.registry.resolve f.name (m.dtypes (args ++ out.toList)) false true engine) := by
  refine h.registry.resolve (.inr ?_) f.name engine
  rw [Memory.dtypes, List.length_map, hcount, h.arity_eq]

theorem Sound.resolved (h : f.Sound) {query : List DType} {result : Except Error Resolution}
    {r : Registry} {engine' : Engine}
    (hresolve : f.registry.resolve f.name query false true engine = (result, r, engine')) :
    { f with registry := r }.renewTable.Sound := by
  have hgrows := h.registry.resolve_grows f.name query false true engine
  rw [hresolve] at hgrows
  exact (h.of_grows hgrows).renewTable

end DynamicFunction

end Corewise
