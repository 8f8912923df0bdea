import Corewise.Proofs.DynamicFunction.Observation
import Corewise.Proofs.LoopTable.Twins
/-!
Functions of one native kernel that differ in their calling options alone. Whether kernels are boxed and
whether ranks are checked shows in nothing that is done with them.
-/

namespace Corewise

namespace DynamicFunction

/-- Nothing but calling options, and what depends on these, tells the functions apart. -/
structure Twins (f g : DynamicFunction) : Prop where
  left : f.Coherent
  right : g.Coherent
  name : g.name = f.name
  writableArgs : g.writableArgs = f.writableArgs
  mode : g.lifecycle.mode = f.lifecycle.mode
  frozen : g.lifecycle.isFrozen = f.lifecycle.isFrozen
  registry : f.registry.Twins g.registry
  faces : g.table.loops.map Specialization.face = f.table.loops.map Specialization.face

variable {f f' g g' : DynamicFunction} {query : List DType}

theorem Twins.table (h : f.Twins g) : f.table.Twins g.table where
  name := by rw [h.right.sound.name, h.left.sound.name, h.name]
  signature := by rw [h.right.sound.signature, h.left.sound.signature, h.registry.signature_eq]
  writable := by rw [h.right.writable_eq, h.left.writable_eq, h.registry.arity_eq, h.writableArgs]
  faces := h.faces

theorem Twins.isFixed_eq (h : f.Twins g) : g.lifecycle.isFixed = f.lifecycle.isFixed := by
  rw [Lifecycle.isFixed, Lifecycle.isFixed, Lifecycle.isDynamic, Lifecycle.isDynamic, h.frozen, h.mode]

theorem Twins.specialization_face (h : f.Twins g) (query : List DType) :
    (g.specialization? query).map Specialization.face =
      (f.specialization? query).map Specialization.face := by
  rcases hfrozen : f.lifecycle.isFrozen with _ | _
  case false =>
    rw [specialization?_of_open hfrozen, specialization?_of_open (h.frozen.trans hfrozen)]
    exact h.registry.find?_face query
  case true =>
    rw [h.left.sound.specialization?_of_frozen hfrozen,
      h.right.sound.specialization?_of_frozen (h.frozen.trans hfrozen)]
    exact h.registry.select_face query

/-- What the functions become stay twins where their entries, their tables and whether they are frozen
agree. -/
theorem Twins.of_descends (h : f.Twins g) (hf : f'.Coherent ∧ f.Descends f')
    (hg : g'.Coherent ∧ g.Descends g') (frozen : g'.lifecycle.isFrozen = f'.lifecycle.isFrozen)
    (registry : f'.registry.Twins g'.registry)
    (faces : g'.table.loops.map Specialization.face = f'.table.loops.map Specialization.face) :
    f'.Twins g' where
  left := hf.1
  right := hg.1
  name := by
    rw [DynamicFunction.name, DynamicFunction.name, hf.2.key, hg.2.key]
    exact h.name
  writableArgs := by rw [hf.2.writableArgs, hg.2.writableArgs, h.writableArgs]
  mode := by rw [hf.2.mode, hg.2.mode, h.mode]
  frozen := frozen
  registry := registry
  faces := faces

end DynamicFunction

/-- Machines with twin functions, in one memory that holds the operands. -/
structure Machine.Twins (operands : List Value) (s t : Machine) : Prop where
  function : s.function.Twins t.function
  compilations : t.engine.compilations = s.engine.compilations
  memory : t.memory = s.memory
  wellFormed : s.memory.WellFormed
  holds : ∀ v ∈ operands, s.memory.Holds v

namespace Machine

variable {operands : List Value} {s t : Machine}

theorem Twins.matching (h : s.Twins operands t) : s.Matches t where
  name := h.function.name
  arity := h.function.table.arity_eq
  fixed := h.function.isFixed_eq
  frozen := h.function.frozen
  codes := by
    have hcodes := congrArg (List.map fun face : CallSignature × List DType =>
      Dispatch.loopCode s.function.table.arity face.2) h.function.faces
    rw [List.map_map, List.map_map] at hcodes
    rw [LoopTable.codes, h.function.table.arity_eq]
    exact hcodes
  signatures := h.function.registry.signatures_eq
  compilations := h.compilations
  memory := h.memory
  selects query := by
    have hselect := congrArg Option.isNone (h.function.table.select_face query)
    rwa [Option.isNone_map, Option.isNone_map] at hselect
  finds query := by
    have hfound := congrArg Option.isNone (h.function.specialization_face query)
    rwa [Option.isNone_map, Option.isNone_map] at hfound

end Machine

namespace Step

variable {α : Type} {operands : List Value} {s t : Machine}

theorem onTable_twins (h : s.Twins operands t) {body body' : LoopTable → Execute α}
    (hs : s.Coheres ((onTable body).run s).2) (ht : t.Coheres ((onTable body').run t).2)
    (hgrows : Effect.Keeps Execution.Grows (body s.function.table))
    (hbody : Execution.Tied ((body s.function.table).run ⟨s.function.pass, s.memory⟩)
      ((body' t.function.table).run ⟨t.function.pass, s.memory⟩)) :
    ((onTable body').run t).1 = ((onTable body).run s).1 ∧
      ((onTable body).run s).2.Twins operands ((onTable body').run t).2 := by
  have hgrown : Execution.Grows ⟨s.function.pass, s.memory⟩ _ := hgrows _
  have hfunction := h.function.of_descends (hs h.function.left) (ht h.function.right)
    h.function.frozen h.function.registry h.function.faces
  rw [onTable_run] at hs hfunction ⊢
  rw [onTable_run, h.memory] at ht hfunction ⊢
  exact ⟨hbody.result, hfunction, h.compilations, hbody.memory, hgrown.wellFormed h.wellFormed,
    fun v hv => hgrown.holds (h.holds v hv)⟩

theorem onTable_call_twins {args : List Value} {out : Option Value} :
    Effect.Respects (Machine.Twins (args ++ out.toList)) (onTable (·.call args out)) := by
  intro s t h
  obtain ⟨forceObject, boundsCheck, hrecipe⟩ := h.function.registry.recipe
  have hruns (query : List DType) (loop : Specialization)
      (hselect : t.function.table.select? query = some loop) :
      t.function.table.Runs (s.function.registry.recipe.calledBy forceObject boundsCheck)
        t.function.registry loop t.function.pass := by
    rw [← hrecipe]
    exact h.function.right.runs_of_select hselect
  apply onTable_twins h (onTable_call_coheres args out s) (onTable_call_coheres args out t)
    (LoopTable.call_grows args out)
  exact h.function.table.call (fun _ _ => h.function.left.runs_of_select) hruns h.wellFormed h.holds

theorem onTable_executeWith_twins {operands : List Value} {loop loop' : Specialization}
    (h : s.Twins operands t)
    (hloop : s.function.specialization? (s.memory.dtypes operands) = some loop)
    (hloop' : t.function.specialization? (t.memory.dtypes operands) = some loop') :
    ((onTable (·.executeWith operands loop')).run t).1 =
        ((onTable (·.executeWith operands loop)).run s).1 ∧
      ((onTable (·.executeWith operands loop)).run s).2.Twins operands
        ((onTable (·.executeWith operands loop')).run t).2 := by
  obtain ⟨forceObject, boundsCheck, hrecipe⟩ := h.function.registry.recipe
  have hfound := h.function.specialization_face (t.memory.dtypes operands)
  rw [hloop', h.memory, hloop] at hfound
  have hruns' := h.function.right.runs_of_specialization hloop'
  rw [hrecipe] at hruns'
  apply onTable_twins h (onTable_executeWith_coheres hloop) (onTable_executeWith_coheres hloop')
    (LoopTable.executeWith_grows operands)
  exact h.function.table.executeWith (h.function.left.runs_of_specialization hloop) hruns'
    (Option.some.inj hfound) h.wellFormed h.holds

theorem onRegistry_twins {body : Registry → Engine → Except Error α × Registry × Engine}
    (hcoheres : Effect.Keeps Machine.Coheres (onRegistry body))
    (hbody : ∀ (r r' : Registry) (engine engine' : Engine), r.Twins r' →
      engine'.compilations = engine.compilations → Registry.Tied (body r engine) (body r' engine')) :
    Effect.Respects (Machine.Twins operands) (onRegistry body) := by
  intro s t h
  obtain ⟨hresult, hregistry, hcompilations⟩ :=
    hbody _ _ s.engine t.engine h.function.registry h.compilations
  have hfunction := h.function.of_descends (hcoheres s h.function.left) (hcoheres t h.function.right)
    h.function.frozen hregistry h.function.faces
  exact ⟨hresult, hfunction, hcompilations, h.memory, h.wellFormed, h.holds⟩

end Step

namespace DynamicFunction

variable {operands : List Value}

theorem add_twins (call : CallSignature) :
    Effect.Respects (Machine.Twins operands) (add call) := by
  -- Entries differ in their artifacts, but all that is given back of one is that it is there.
  have hadd (s : Machine) : (add call).run s = (Step.onRegistry fun registry engine =>
      ((registry.insert call engine).1.map fun _ => (), (registry.insert call engine).2)).run s :=
    Effect.run_bind_pure ()
  have hrespects : Effect.Respects (Machine.Twins operands) (Step.onRegistry fun registry engine =>
      ((registry.insert call engine).1.map fun _ => (), (registry.insert call engine).2)) :=
    Step.onRegistry_twins (fun s => hadd s ▸ add_coheres call s) fun _ _ _ _ h hengine =>
      h.insert hengine call
  intro s t h
  rw [hadd, hadd]
  exact hrespects s t h

theorem buildTable_twins : Effect.Respects (Machine.Twins operands) buildTable := by
  intro s t h
  have hfunction := h.function.of_descends (buildTable_coheres s h.function.left)
    (buildTable_coheres t h.function.right) h.function.frozen h.function.registry
    h.function.registry.faces
  exact ⟨rfl, hfunction, h.compilations, h.memory, h.wellFormed, h.holds⟩

theorem disableCompile_twins : Effect.Respects (Machine.Twins operands) disableCompile := by
  intro s t h
  have hs := disableCompile_coheres s h.function.left
  have ht := disableCompile_coheres t h.function.right
  have hentries : t.function.registry.entries = [] ↔ s.function.registry.entries = [] := by
    rw [← List.map_eq_nil_iff, h.function.registry.faces, List.map_eq_nil_iff]
  rw [disableCompile_run] at hs ht ⊢
  rw [disableCompile_run]
  by_cases hnil : s.function.registry.entries = []
  case pos =>
    rw [if_pos hnil, if_pos (hentries.2 hnil), h.function.name]
    exact ⟨rfl, h⟩
  case neg =>
    rw [if_neg hnil] at hs ⊢
    rw [if_neg (mt hentries.1 hnil)] at ht ⊢
    exact ⟨rfl, h.function.of_descends hs ht rfl h.function.registry h.function.faces,
      h.compilations, h.memory, h.wellFormed, h.holds⟩

end DynamicFunction

theorem Machine.simulation_twins (operands : List Value) : Simulation (Twins operands) operands where
  matching _ _ h := h.matching
  table _ _ hoperands := hoperands ▸ Step.onTable_call_twins
  specialized _ _ _ _ h hloop hloop' := Step.onTable_executeWith_twins h hloop hloop'
  add := DynamicFunction.add_twins
  build := DynamicFunction.buildTable_twins
  disable := DynamicFunction.disableCompile_twins
  resolve function query frozen mayCompile :=
    Step.onRegistry_twins (Step.onRegistry_coheres fun _ _ h => h.resolve_grows ..)
      fun _ _ _ _ h hengine => h.resolve hengine function query frozen mayCompile

namespace DynamicFunction

variable {f g : DynamicFunction} {engine engine' : Engine}

/-- No run on arrays that are there tells twin functions apart. -/
theorem Twins.observations_eq (h : f.Twins g) (hengine : engine'.compilations = engine.compilations)
    {run : List (Operation × Memory)}
    (hrun : ∀ use ∈ run, use.2.WellFormed ∧ ∀ v ∈ use.1.operands, use.2.Holds v) :
    g.observations engine' run = f.observations engine run := by
  induction run generalizing f g engine engine' with
  | nil => rfl
  | cons use rest ih =>
    obtain ⟨operation, m⟩ := use
    obtain ⟨⟨hm, hheld⟩, hrest⟩ := List.forall_mem_cons.1 hrun
    obtain ⟨hanswer, hafter⟩ := (Machine.simulation_twins operation.operands).respond ⟨f, engine, m⟩
      ⟨g, engine', m⟩ ⟨h, hengine, rfl, hm, hheld⟩
    rw [observations, observations, hanswer, hafter.matching.observed_eq,
      ih hafter.function hafter.compilations hrest]

theorem twins_new {key key' : FunctionKey} (hname : key'.name = key.name) {recipe : Recipe}
    {body : NativeBody} (hnative : recipe.kernel.body = .native body) (text : String)
    (identity : Identity) (cache : Bool) (writable : List Nat) (mode : Dispatch.Mode)
    (forceObject boundsCheck : Bool) :
    (new key recipe text identity cache writable mode).Twins
      (new key' (recipe.calledBy forceObject boundsCheck) text identity cache writable mode) where
  left := coherent_new ..
  right := coherent_new ..
  name := hname
  writableArgs := rfl
  mode := rfl
  frozen := rfl
  registry := ⟨Registry.sound_empty _, Registry.sound_empty _, rfl, ⟨forceObject, boundsCheck, rfl⟩,
    body, hnative⟩
  faces := rfl

/-- Functions of one native kernel that are made alike but for the options to box its operands and to check
their ranks show the same in every run of operations on arrays that are there: the same results and errors,
the same memory, the same loops and specializations, and as many compilations. They do so on every schedule
of iterations that run at the same time. -/
theorem observations_calledBy {key key' : FunctionKey} (hname : key'.name = key.name) {recipe : Recipe}
    {body : NativeBody} (hnative : recipe.kernel.body = .native body) (text : String)
    (identity : Identity) (cache : Bool) (writable : List Nat) (mode : Dispatch.Mode)
    (forceObject boundsCheck : Bool) (engine : Engine) {run : List (Operation × Memory)}
    (hrun : ∀ use ∈ run, use.2.WellFormed ∧ ∀ v ∈ use.1.operands, use.2.Holds v) :
    (new key' (recipe.calledBy forceObject boundsCheck) text identity cache writable
        mode).observations engine run =
      (new key recipe text identity cache writable mode).observations engine run :=
  (twins_new hname hnative text identity cache writable mode forceObject boundsCheck).observations_eq rfl
    hrun

/-- A recipe whose kernel copies the first element of each row. -/
def firstOfRow : Recipe := ⟨⟨"first", none, Loop.copyFirst, 0⟩, ⟨[["n"]], []⟩, .default⟩

/-- A row of two is stretched over an output of three elements; then the function is frozen and run from a
typed call site that leaves the output out. -/
def stretchedRow : List (Operation × Memory) :=
  [(.call [.array 0] (some (.array 1)),
      .holding [⟨.int32, [1, 2], [.int32 7, .int32 8]⟩, .zeros .int32 [3]]),
    (.disableCompile, .empty),
    (.lowerCall [.array 0], .holding [⟨.int16, [2, 1], [.int16 7, .int16 8]⟩])]

/-- Boxed and checked, copies come out as they do plainly. -/
theorem observations_calledBy_firstOfRow :
    (new ⟨"first", 2⟩ (firstOfRow.calledBy true true) "(n)->()" .none false []
        .dynamic).observations .fresh stretchedRow =
      (new ⟨"first", 1⟩ firstOfRow "(n)->()" .none false [] .dynamic).observations .fresh
        stretchedRow ∧
    ((new ⟨"first", 1⟩ firstOfRow "(n)->()" .none false [] .dynamic).observations .fresh
      stretchedRow).map (fun shown => shown.memory.buffer 1) =
        [⟨.int32, [3], [.int32 7, .int32 7, .int32 7]⟩, default,
          ⟨.int32, [2], [.int32 7, .int32 8]⟩] := by
  have hrun : ∀ use ∈ stretchedRow, use.2.WellFormed ∧ ∀ v ∈ use.1.operands, use.2.Holds v := by
    decide
  have hname : (FunctionKey.mk "first" 2).name = (FunctionKey.mk "first" 1).name := rfl
  have hnative : firstOfRow.kernel.body = .native fun _ =>
    .read 0 0 fun s => .write 1 0 (s.getD default) fun _ => .done := rfl
  constructor
  · exact observations_calledBy hname hnative _ _ _ _ _ true true .fresh hrun
  · decide +kernel

end DynamicFunction

end Corewise
