import Corewise.Proofs.DynamicFunction.Fixed
import Corewise.Proofs.DynamicFunction.History
/-!
What a call comes to. Either it is refused, and nothing that was in memory has changed; or it launches one
loop over its operands, with an output that it has made if none was passed, and what it leaves is what the
iterations leave.
-/

namespace Corewise

variable {m m' : Memory}

/-- All that was there still is, and there may be more arrays. -/
structure Memory.Extends (m m' : Memory) : Prop where
  length_le : m.buffers.length ≤ m'.buffers.length
  buffer : ∀ r < m.buffers.length, m'.buffer r = m.buffer r
  invocations : m'.invocations = m.invocations

theorem Memory.Extends.refl (m : Memory) : m.Extends m := ⟨Nat.le_refl _, fun _ _ => rfl, rfl⟩

theorem Memory.Extends.alloc (m : Memory) (b : Buffer) : m.Extends (m.alloc b).2 where
  length_le := length_alloc ▸ Nat.le_succ _
  buffer _ hr := buffer_alloc_of_lt hr
  invocations := rfl

theorem Memory.Extends.contents_eq (h : m.Extends m') {v : Value} (hv : m.Holds v) :
    m'.contents v = m.contents v := by
  cases v with
  | scalar s => rfl
  | array r => exact congrArg Contents.array (h.buffer r hv)

/-- The loop of a call, before its first iteration. -/
structure Launch where
  loop : Specialization
  /-- All operands, the output last. -/
  operands : List Value
  /-- The memory, with the output. -/
  memory : Memory
  plan : Loop.Plan

namespace Launch

variable {recipe : Recipe} {selected : Option Specialization} {args : List Value} {l : Launch}

/-- What leads from the elements to the kernel. -/
def trampoline (recipe : Recipe) (writable : List Bool) (l : Launch) : Lowering.Trampoline :=
  .of (Loop.elementSignature recipe.signature (l.memory.dtypes l.operands)) l.loop.artifact writable
    recipe.options.boundsCheck

/-- The iterations numbered in `order`, one after the other up to the first that fails. -/
def run (recipe : Recipe) (writable : List Bool) (l : Launch) (order : List Nat) :
    Except Error Unit × Memory :=
  (Loop.runOrder recipe.signature l.plan l.operands writable (l.trampoline recipe writable).call
    order).run l.memory

/-- All iterations, in a row or at the same time. -/
def runAll (recipe : Recipe) (writable : List Bool) (l : Launch) : Except Error Unit × Memory :=
  (Loop.runAll recipe.signature l.plan l.operands writable (l.trampoline recipe writable).call
    recipe.options.parallel).run l.memory

theorem runAll_of_sequential (writable : List Bool) (h : recipe.options.parallel = false) :
    l.runAll recipe writable = l.run recipe writable (List.range l.plan.iterations) := by
  rw [runAll, h, Loop.runAll_sequential]
  rfl

/-- However the iterations run, they have a trace that leads to what they leave. -/
theorem traced_runAll (recipe : Recipe) (writable : List Bool) (l : Launch) : ∃ tasks calls,
    Loop.Traced recipe.signature l.plan l.operands writable (l.trampoline recipe writable).call l.memory
      (List.range l.plan.iterations) ((l.runAll recipe writable).2, tasks) calls ∧
    Loop.Ended (l.runAll recipe writable).1 tasks ∧
    (recipe.options.parallel = false → (l.runAll recipe writable).1 = .ok () →
      calls.map Prod.fst = List.range l.plan.iterations) :=
  Loop.traced_runAll recipe.options.parallel l.memory

/-- What a call with these arguments launches when this loop has been selected for them. -/
structure Takes (recipe : Recipe) (selected : Option Specialization) (args : List Value) (m : Memory)
    (l : Launch) : Prop where
  selected : selected = some l.loop
  valid : l.loop.Valid recipe
  plan : Loop.plan recipe.signature (l.memory.contentsOf l.operands) = .ok l.plan
  operands : l.operands = args ∧ l.memory = m ∨ ∃ dtype shape,
    l.operands = args ++ [.array m.buffers.length] ∧ l.memory = (m.alloc (.zeros dtype shape)).2

theorem Takes.extends (h : l.Takes recipe selected args m) : m.Extends l.memory := by
  rcases h.operands with ⟨-, hmemory⟩ | ⟨dtype, shape, -, hmemory⟩
  · rw [hmemory]
    exact .refl m
  · rw [hmemory]
    exact .alloc m _

theorem Takes.ready (h : l.Takes recipe selected args m) (hm : m.WellFormed) (hheld : ∀ v ∈ args, m.Holds v) :
    Loop.Ready recipe.signature l.plan l.operands l.memory := by
  rcases h.operands with ⟨hoperands, hmemory⟩ | ⟨dtype, shape, hoperands, hmemory⟩
  · apply Loop.ready_of_plan h.plan
    · rwa [hmemory]
    · rwa [hmemory, hoperands]
  · apply Loop.ready_of_plan h.plan
    · rw [hmemory]
      exact hm.alloc (Buffer.wellFormed_zeros dtype shape)
    · rw [hmemory, hoperands]
      exact Memory.holds_alloc hheld

theorem Takes.converts (h : l.Takes recipe selected args m) (writable : List Bool) :
    (l.trampoline recipe writable).Converts recipe l.loop.key writable where
  serves := Lowering.Trampoline.serves_of h.valid.serves _ writable _
  writable := rfl
  key := by
    show elementTypes l.loop.artifact.signature.args = _
    rw [h.valid.signature]
    exact h.valid.key
  outer := by
    have hcount := (Loop.output_of_plan h.plan).1
    have hinner : (l.trampoline recipe writable).inner.args.length = recipe.signature.arity + 1 :=
      h.valid.serves.checked.count
    rw [hinner]
    simp [trampoline, Lowering.Trampoline.of, Loop.elementSignature, CallSignature.void,
      Memory.dtypes, hcount, CoreSignature.ranks, CoreSignature.length_cores]

end Launch

/-- How a call with these arguments comes out, with the memory that it leaves. -/
inductive Ran (recipe : Recipe) (writable : List Bool) (selected : Option Specialization)
    (args : List Value) (m : Memory) : Except Error Value → Memory → Prop
  | refused {e : Error} {m' : Memory} (cause : ∀ text, e ≠ .kernel text) (kept : m.Extends m') :
      Ran recipe writable selected args m (.error e) m'
  | launched {l : Launch} {result : Except Error Unit} {m' : Memory}
      (takes : l.Takes recipe selected args m)
      (run : l.runAll recipe writable = (result, m')) :
      Ran recipe writable selected args m
        (result.map fun _ => l.operands.getD recipe.signature.arity (.scalar default)) m'

variable {recipe : Recipe} {selected : Option Specialization} {args : List Value}

/-- Nothing that was there has been touched when the operands are refused in a memory that extends it. -/
theorem Ran.of_conflict (writable : List Bool) (h : m.Extends m') {conflict : ShapeConflict} :
    Ran recipe writable selected args m (.error (.shapeConflict conflict)) m' := by
  apply Ran.refused
  · intro text heq
    cases heq
  · exact h

/-- A call that succeeds has launched a loop, and all its iterations have succeeded. -/
theorem Ran.launched_of_ok {writable : List Bool} {v : Value}
    (h : Ran recipe writable selected args m (.ok v) m') :
    ∃ l : Launch, l.Takes recipe selected args m ∧ l.runAll recipe writable = (.ok (), m') := by
  generalize hresult : (Except.ok v : Except Error Value) = result at h
  cases h with
  | refused => cases hresult
  | @launched l result _ takes run =>
    cases result with
    | error e => cases hresult
    | ok _ => exact ⟨l, takes, run⟩

namespace LoopTable

variable {t : LoopTable} {loop : Specialization} {x : Execution} {r : Registry}

/-- What a table has to know of an entry to run it as one of the recipe. -/
structure Runs (recipe : Recipe) (r : Registry) (t : LoopTable) (loop : Specialization)
    (p : Lowering.Pass) : Prop where
  signature : t.signature = recipe.signature
  options : t.options = recipe.options
  pass : p.Recalls r t.writable t.options.boundsCheck
  first : r.find? loop.key = some loop
  valid : loop.Valid recipe

/-- The loop over all operands is refused for their shapes, or runs through a trampoline as it would be made
anew. -/
theorem Runs.execute (h : t.Runs recipe r loop x.pass) (operands : List Value) :
    (∃ conflict, Loop.plan recipe.signature (x.memory.contentsOf operands) =
        .error (.shapeConflict conflict) ∧
      (t.execute operands loop).run x = (.error (.shapeConflict conflict), x)) ∨
    ∃ plan pass, Loop.plan recipe.signature (x.memory.contentsOf operands) = .ok plan ∧
      (t.execute operands loop).run x =
        (((Launch.mk loop operands x.memory plan).runAll recipe t.writable).1,
          ⟨pass, ((Launch.mk loop operands x.memory plan).runAll recipe t.writable).2⟩) := by
  rcases hplan : Loop.plan recipe.signature (x.memory.contentsOf operands) with e | plan
  case error =>
    obtain ⟨conflict, rfl⟩ := Loop.plan_shapesOnly _ _ _ hplan
    rw [← h.signature] at hplan
    exact .inl ⟨conflict, rfl, execute_of_error hplan⟩
  case ok =>
    have hrecalled := h.pass.trampoline h.first
      (Loop.elementSignature t.signature (x.memory.dtypes operands))
    have hmade : (t.trampolineFor operands loop x).1 =
        (Launch.mk loop operands x.memory plan).trampoline recipe t.writable := by
      rw [trampolineFor, hrecalled.1, Launch.trampoline, h.signature, h.options]
    rw [← h.signature] at hplan
    refine .inr ⟨plan, (t.trampolineFor operands loop x).2, rfl, ?_⟩
    rw [execute_of_ok hplan, hmade, h.signature, h.options]
    rfl

theorem Runs.executeWith (h : t.Runs recipe r loop x.pass) (args : List Value) :
    Ran recipe t.writable (some loop) args x.memory ((t.executeWith args loop).run x).1
      ((t.executeWith args loop).run x).2.memory := by
  have harity : t.arity = recipe.signature.arity := congrArg CoreSignature.arity h.signature
  by_cases hcount : args.length = t.arity
  case neg =>
    rw [executeWith_of_ne hcount, Effect.run_bind_pure]
    rcases h.execute args with ⟨conflict, -, hrun⟩ | ⟨plan, pass, hplan, hrun⟩
    · rw [hrun]
      exact .of_conflict t.writable (.refl _)
    · rw [hrun, harity]
      exact .launched (l := ⟨loop, args, x.memory, plan⟩) ⟨rfl, h.valid, hplan, .inl ⟨rfl, rfl⟩⟩ rfl
  case pos =>
    obtain ⟨dtype, houtputs⟩ := outputs_of_valid h.signature h.valid
    rw [executeWith_of_eq hcount houtputs]
    rcases hshape : t.outputShape x.memory args with e | shape
    case error =>
      have hrun : (Execute.onMemory (t.allocate args dtype)).run x = (.error e, x) := by
        rw [onMemory_allocate_run, hshape]
      have hlength : (args.map x.memory.shape).length = recipe.signature.arity := by
        rw [List.length_map, hcount, harity]
      rw [outputShape, h.signature] at hshape
      obtain ⟨conflict, rfl⟩ :=
        Loop.outputShape_shapesOnly _ hlength h.valid.serves.checked.bound _ hshape
      rw [Effect.run_bind_of_error hrun]
      exact .of_conflict t.writable (.refl _)
    case ok =>
      have hrun : (Execute.onMemory (t.allocate args dtype)).run x =
          (.ok (.array x.memory.buffers.length),
            ⟨x.pass, (x.memory.alloc (.zeros dtype shape)).2⟩) := by
        rw [onMemory_allocate_run, hshape]
      rw [Effect.run_bind_of_ok hrun, Effect.run_bind_pure]
      have halloc := Memory.Extends.alloc x.memory (.zeros dtype shape)
      rcases Runs.execute (x := ⟨x.pass, (x.memory.alloc (.zeros dtype shape)).2⟩) h
        (args ++ [.array x.memory.buffers.length]) with
        ⟨conflict, -, hrun⟩ | ⟨plan, pass, hplan, hrun⟩
      · rw [hrun]
        exact .of_conflict t.writable halloc
      · rw [hrun, harity]
        exact .launched (l := ⟨loop, _, _, plan⟩) ⟨rfl, h.valid, hplan, .inr ⟨dtype, shape, rfl, rfl⟩⟩ rfl

/-- A call of a table is refused, or launches the loop that is selected. -/
theorem call_ran (hruns : ∀ query loop, t.select? query = some loop → t.Runs recipe r loop x.pass)
    (args : List Value) (out : Option Value) :
    Ran recipe t.writable (t.select? (x.memory.dtypes (args ++ out.toList))) (args ++ out.toList) x.memory
      ((t.call args out).run x).1 ((t.call args out).run x).2.memory := by
  by_cases hcount : (args ++ out.toList).length ≠ t.arity ∧ (args ++ out.toList).length ≠ t.arity + 1
  case pos =>
    rw [call_of_count hcount]
    exact .refused (fun text heq => nomatch heq) (.refl x.memory)
  rcases hselect : t.select? (x.memory.dtypes (args ++ out.toList)) with _ | loop
  case none =>
    rw [call_of_none hcount hselect]
    exact .refused (fun text heq => nomatch heq) (.refl x.memory)
  case some =>
    rw [call_of_select hcount hselect]
    exact (hruns _ loop hselect).executeWith _

end LoopTable

namespace DynamicFunction

variable {f : DynamicFunction} {engine : Engine} {out : Option Value}

theorem Coherent.writable_eq (h : f.Coherent) : f.table.writable =
    (List.range (f.registry.arity + 1)).map fun i => f.writableArgs.contains i := by
  rw [h.settings]
  rfl

theorem Coherent.runs (h : f.Coherent) {loop : Specialization}
    (hfirst : f.registry.find? loop.key = some loop) (hloop : loop ∈ f.registry.entries) :
    f.table.Runs f.registry.recipe f.registry loop f.pass :=
  ⟨h.sound.signature, h.sound.options, h.pass, hfirst, h.sound.registry.valid loop hloop⟩

theorem Coherent.runs_of_select (h : f.Coherent) {query : List DType} {loop : Specialization}
    (hselect : f.table.select? query = some loop) :
    f.table.Runs f.registry.recipe f.registry loop f.pass :=
  h.runs (h.find?_of_select hselect) (h.sound.stored (Dispatch.mem_of_select hselect))

theorem Coherent.runs_of_specialization (h : f.Coherent) {query : List DType} {loop : Specialization}
    (hloop : f.specialization? query = some loop) :
    f.table.Runs f.registry.recipe f.registry loop f.pass :=
  h.runs (h.sound.find?_of_specialization hloop) (h.sound.mem_of_specialization hloop)

theorem Coherent.onTable_ran (h : f.Coherent) (engine : Engine) (m : Memory) (args : List Value)
    (out : Option Value) :
    Ran f.registry.recipe f.table.writable (f.table.select? (m.dtypes (args ++ out.toList)))
      (args ++ out.toList) m ((Step.onTable (·.call args out)).run ⟨f, engine, m⟩).1
      ((Step.onTable (·.call args out)).run ⟨f, engine, m⟩).2.memory := by
  rw [Step.onTable_run]
  exact LoopTable.call_ran (x := ⟨f.pass, m⟩) (fun _ _ hselect => h.runs_of_select hselect) args out

/-- A call of the function is refused, or launches the loop that its table selects by then. -/
theorem Coherent.call_ran (h : f.Coherent) (engine : Engine) (m : Memory) (args : List Value)
    (out : Option Value) :
    Ran f.registry.recipe f.table.writable
      (((call args out).run ⟨f, engine, m⟩).2.function.table.select? (m.dtypes (args ++ out.toList)))
      (args ++ out.toList) m ((call args out).run ⟨f, engine, m⟩).1
      ((call args out).run ⟨f, engine, m⟩).2.memory := by
  have hnone : (args ++ out.toList) ++ (none : Option Value).toList = args ++ out.toList :=
    List.append_nil _
  by_cases hfixed : f.lifecycle.isFixed = true
  case pos =>
    rw [call_of_fixed hfixed]
    exact h.onTable_ran engine m args out
  replace hfixed := Bool.eq_false_iff.2 hfixed
  by_cases hcount : (args ++ out.toList).length = f.arity + 1
  case neg =>
    rw [call_of_count hfixed hcount]
    exact .refused (fun text heq => nomatch heq) (.refl m)
  rcases hmatch : f.table.select? (m.dtypes (args ++ out.toList)) with _ | loop
  case some =>
    rw [call_of_match hfixed hcount (hmatch ▸ rfl)]
    have hran := h.onTable_ran engine m (args ++ out.toList) none
    rwa [hnone] at hran
  have hgrows := h.sound.registry.resolve_grows f.name (m.dtypes (args ++ out.toList)) false true engine
  have hresolving := h.sound.resolving engine m hcount
  generalize hresolve : f.registry.resolve f.name (m.dtypes (args ++ out.toList)) false true engine =
    result at hresolving hgrows
  -- A table that is renewed belongs to the same recipe and writes to the same operands.
  have hrenewed {found : Resolution} {r : Registry} {engine' : Engine}
      (hresult : result = (.ok found, r, engine')) :
      Ran f.registry.recipe f.table.writable (((call args out).run
          ⟨f, engine, m⟩).2.function.table.select? (m.dtypes (args ++ out.toList)))
        (args ++ out.toList) m ((call args out).run ⟨f, engine, m⟩).1
        ((call args out).run ⟨f, engine, m⟩).2.memory := by
    subst hresult
    rw [call_of_resolved hfixed hcount hmatch hresolve]
    have hcoherent := (h.of_grows hgrows).renewTable
    have hran := hcoherent.onTable_ran engine' m (args ++ out.toList) none
    have hwritable : ({ f with registry := r }.renewTable).table.writable = f.table.writable := by
      rw [hcoherent.writable_eq, h.writable_eq]
      show (List.range (r.arity + 1)).map _ = _
      rw [hgrows.precedes.arity_eq]
      rfl
    rw [hnone, hwritable] at hran
    have hrecipe : ({ f with registry := r }.renewTable).registry.recipe = f.registry.recipe :=
      hgrows.recipe
    rwa [hrecipe] at hran
  cases hresolving with
  | found => exact hrenewed rfl
  | refused _ hcompile =>
    obtain ⟨⟨reason, rfl⟩, -⟩ := Compiler.compile_eq_error hcompile
    rw [call_of_refused hfixed hcount hmatch hresolve]
    exact .refused (fun text heq => nomatch heq) (.refl m)
  | compiled => exact hrenewed rfl

/-- A typed call site that is run is refused, or launches the loop that is looked up. -/
theorem Coherent.lowerCall_ran (h : f.Coherent) (engine : Engine) (m : Memory) (args : List Value) :
    Ran f.registry.recipe f.table.writable (f.specialization? (m.dtypes args)) args m
      ((lowerCall args).run ⟨f, engine, m⟩).1 ((lowerCall args).run ⟨f, engine, m⟩).2.memory := by
  rcases hloop : f.specialization? (m.dtypes args) with _ | loop
  case none =>
    rw [lowerCall_of_none hloop]
    exact .refused (fun text heq => nomatch heq) (.refl m)
  case some =>
    rw [lowerCall_of_some hloop, Step.onTable_run]
    exact LoopTable.Runs.executeWith (x := ⟨f.pass, m⟩) (h.runs_of_specialization hloop) args

end DynamicFunction

end Corewise
