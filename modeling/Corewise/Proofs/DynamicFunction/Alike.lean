import Corewise.Proofs.DynamicFunction.History
import Corewise.Proofs.DynamicFunction.Observation
/-!
Functions that cannot be told apart. They have the same entries and list the same of them, while keys,
descriptions and kept trampolines may differ; whatever is done with both alike has the same outcome, and
leaves them alike.
-/

namespace Corewise

/-- The recipe with another description of its kernel. -/
def Recipe.describedBy (recipe : Recipe) (doc : Option String) : Recipe :=
  { recipe with kernel := { recipe.kernel with doc } }

/-- Neither descriptions nor failures show in what is compiled. -/
theorem Compiler.compile_describedBy (recipe : Recipe) (doc : Option String) (call : CallSignature)
    {engine engine' : Engine} (h : engine'.compilations = engine.compilations) :
    (compile (recipe.describedBy doc) call engine').1 = (compile recipe call engine).1 ∧
      (compile (recipe.describedBy doc) call engine').2.compilations =
        (compile recipe call engine).2.compilations := by
  have hentry : entry (recipe.describedBy doc) call = entry recipe call := rfl
  unfold compile
  rw [hentry]
  cases entry recipe call with
  | error reason => exact ⟨rfl, h⟩
  | ok body =>
    dsimp only
    rw [h]
    exact ⟨rfl, rfl⟩

namespace Registry

/-- The same entries, made by one recipe but for descriptions. -/
structure Alike (r r' : Registry) : Prop where
  left : r.Sound
  right : r'.Sound
  entries : r'.entries = r.entries
  recipe : ∃ doc, r'.recipe = r.recipe.describedBy doc

/-- One answer, from registries that are alike still and compilers that have counted as much. -/
structure Agree {α : Type} (x y : Except Error α × Registry × Engine) : Prop where
  result : y.1 = x.1
  registry : x.2.1.Alike y.2.1
  compilations : y.2.2.compilations = x.2.2.compilations

variable {r r' : Registry} {engine engine' : Engine} {query : List DType}

theorem Alike.signature_eq (h : r.Alike r') : r'.recipe.signature = r.recipe.signature := by
  obtain ⟨doc, hrecipe⟩ := h.recipe
  rw [hrecipe]
  rfl

theorem Alike.arity_eq (h : r.Alike r') : r'.arity = r.arity :=
  congrArg CoreSignature.arity h.signature_eq

theorem Alike.find?_eq (h : r.Alike r') : r'.find? query = r.find? query := by
  rw [h.left.find?_eq, h.right.find?_eq, h.entries, h.arity_eq]

theorem Alike.findCompatible?_eq (h : r.Alike r') :
    r'.findCompatible? query = r.findCompatible? query := by
  rw [h.left.findCompatible?_eq, h.right.findCompatible?_eq, h.entries, h.arity_eq]

theorem Alike.insert (h : r.Alike r') (hengine : engine'.compilations = engine.compilations)
    (call : CallSignature) : Agree (r.insert call engine) (r'.insert call engine') := by
  have hgrows := (h.left.insert call engine).grows h.left
  have hgrows' := (h.right.insert call engine').grows h.right
  obtain ⟨doc, hrecipe⟩ := h.recipe
  have hfind : (r'.bySignature.find? call).bind (r'.entries[·]?) =
      (r.bySignature.find? call).bind (r.entries[·]?) := by
    rw [h.left.bySignature.find? call, h.right.bySignature.find? call, h.entries]
  -- Both stay sound and keep their recipes, whatever is inserted.
  suffices hsame : (r'.insert call engine').1 = (r.insert call engine).1 ∧
      (r'.insert call engine').2.1.entries = (r.insert call engine).2.1.entries ∧
      (r'.insert call engine').2.2.compilations = (r.insert call engine).2.2.compilations by
    obtain ⟨hresult, hentries, hcompilations⟩ := hsame
    refine ⟨hresult, ⟨hgrows.sound, hgrows'.sound, hentries, doc, ?_⟩, hcompilations⟩
    rw [hgrows'.recipe, hgrows.recipe, hrecipe]
  clear hgrows hgrows'
  obtain ⟨hcompile, hcount⟩ := Compiler.compile_describedBy r.recipe doc call hengine
  rw [← hrecipe] at hcompile hcount
  unfold Registry.insert
  rw [hfind]
  split
  case h_1 => exact ⟨rfl, h.entries, hengine⟩
  case h_2 =>
    split
    case h_1 => exact ⟨rfl, h.entries, hengine⟩
    case h_2 key _ =>
      rcases hleft : Compiler.compile r.recipe call engine with ⟨result, counted⟩
      rcases hright : Compiler.compile r'.recipe call engine' with ⟨result', counted'⟩
      rw [hleft, hright] at hcompile hcount
      obtain rfl : result' = result := hcompile
      cases result' with
      | error e => exact ⟨rfl, h.entries, hcount⟩
      | ok artifact =>
        let entry : Specialization := ⟨call, key, artifact⟩
        have hentries : (r'.append entry).entries = (r.append entry).entries :=
          congrArg (· ++ [entry]) h.entries
        exact ⟨rfl, hentries, hcount⟩

theorem Alike.resolve (h : r.Alike r') (hengine : engine'.compilations = engine.compilations)
    (function : String) (query : List DType) (frozen mayCompile : Bool) :
    Agree (r.resolve function query frozen mayCompile engine)
      (r'.resolve function query frozen mayCompile engine') := by
  unfold Registry.resolve resolveFrozen
  rw [h.find?_eq, h.findCompatible?_eq, h.signature_eq]
  split
  case isTrue => exact ⟨rfl, h, hengine⟩
  case isFalse =>
    split
    case h_1 => exact ⟨rfl, h, hengine⟩
    case h_2 =>
      split
      case isTrue =>
        obtain ⟨hresult, hregistry, hcompilations⟩ :=
          h.insert hengine (Dispatch.synthesize r.recipe.signature query)
        generalize r.insert (Dispatch.synthesize r.recipe.signature query) engine = x at *
        generalize r'.insert (Dispatch.synthesize r.recipe.signature query) engine' = y at *
        obtain ⟨result, left, counted⟩ := x
        obtain ⟨result', right, counted'⟩ := y
        obtain rfl : result' = result := hresult
        cases result' with
        | error e => exact ⟨rfl, hregistry, hcompilations⟩
        | ok entry =>
          dsimp only
          rw [show right.find? query = left.find? query from hregistry.find?_eq]
          split
          · exact ⟨rfl, hregistry, hcompilations⟩
          · exact ⟨rfl, hregistry, hcompilations⟩
      case isFalse =>
        split
        · exact ⟨rfl, h, hengine⟩
        · exact ⟨rfl, h, hengine⟩

end Registry

namespace DynamicFunction

/-- Nothing but keys, descriptions, kept trampolines and the counts of what failed tells the functions
apart. -/
structure Alike (f g : DynamicFunction) : Prop where
  left : f.Coherent
  right : g.Coherent
  name : g.name = f.name
  identity : g.identity = f.identity
  writableArgs : g.writableArgs = f.writableArgs
  mode : g.lifecycle.mode = f.lifecycle.mode
  frozen : g.lifecycle.isFrozen = f.lifecycle.isFrozen
  registry : f.registry.Alike g.registry
  loops : g.table.loops = f.table.loops

variable {f f' g g' : DynamicFunction} {query : List DType}

theorem Alike.table_eq (h : f.Alike g) : g.table = f.table := by
  obtain ⟨doc, hrecipe⟩ := h.registry.recipe
  calc g.table
    _ = { LoopTable.ofRegistry g.name g.registry g.identity g.writableArgs with
          loops := g.table.loops } := h.right.settings
    _ = { LoopTable.ofRegistry f.name f.registry f.identity f.writableArgs with
          loops := f.table.loops } := by
      rw [LoopTable.ofRegistry, LoopTable.ofRegistry, Registry.arity, Registry.arity, hrecipe, h.name,
        h.identity, h.writableArgs, h.loops]
      rfl
    _ = f.table := h.left.settings.symm

theorem Alike.isFixed_eq (h : f.Alike g) : g.lifecycle.isFixed = f.lifecycle.isFixed := by
  rw [Lifecycle.isFixed, Lifecycle.isFixed, Lifecycle.isDynamic, Lifecycle.isDynamic, h.frozen, h.mode]

theorem Alike.arity_eq (h : f.Alike g) : g.arity = f.arity := congrArg LoopTable.arity h.table_eq

theorem Alike.specialization?_eq (h : f.Alike g) : g.specialization? query = f.specialization? query := by
  rw [specialization?, specialization?, h.frozen, h.registry.findCompatible?_eq, h.registry.find?_eq]

/-- What the functions become stays alike where their entries, their tables and whether they are frozen
do. -/
theorem Alike.of_descends (h : f.Alike g) (hf : f'.Coherent ∧ f.Descends f')
    (hg : g'.Coherent ∧ g.Descends g') (frozen : g'.lifecycle.isFrozen = f'.lifecycle.isFrozen)
    (registry : f'.registry.Alike g'.registry) (loops : g'.table.loops = f'.table.loops) :
    f'.Alike g' where
  left := hf.1
  right := hg.1
  name := by
    rw [DynamicFunction.name, DynamicFunction.name, hf.2.key, hg.2.key]
    exact h.name
  identity := by rw [hf.2.identity, hg.2.identity, h.identity]
  writableArgs := by rw [hf.2.writableArgs, hg.2.writableArgs, h.writableArgs]
  mode := by rw [hf.2.mode, hg.2.mode, h.mode]
  frozen := frozen
  registry := registry
  loops := loops

end DynamicFunction

/-- Machines on which every step has the same outcome. -/
structure Machine.Alike (s t : Machine) : Prop where
  function : s.function.Alike t.function
  compilations : t.engine.compilations = s.engine.compilations
  memory : t.memory = s.memory

namespace Step

variable {α : Type} {s t : Machine}

theorem onTable_alike (h : s.Alike t) {body : LoopTable → Execute α}
    (hs : s.Coheres ((onTable body).run s).2) (ht : t.Coheres ((onTable body).run t).2)
    (hbody : Effect.Respects (Execution.Alike s.function.registry s.function.table)
      (body s.function.table)) :
    ((onTable body).run t).1 = ((onTable body).run s).1 ∧
      ((onTable body).run s).2.Alike ((onTable body).run t).2 := by
  have hright : t.function.pass.Recalls s.function.registry s.function.table.writable
      s.function.table.options.boundsCheck := by
    rw [← h.function.table_eq]
    apply h.function.right.pass.of_find?
    intro query loop hloop
    rwa [h.function.registry.find?_eq] at hloop
  have hexecution : Execution.Alike s.function.registry s.function.table
      ⟨s.function.pass, s.memory⟩ ⟨t.function.pass, t.memory⟩ :=
    ⟨h.memory, h.function.left.pass, hright⟩
  have hbodies : body t.function.table = body s.function.table := congrArg body h.function.table_eq
  obtain ⟨hresult, hmemory⟩ :
      ((body t.function.table).run ⟨t.function.pass, t.memory⟩).1 =
        ((body s.function.table).run ⟨s.function.pass, s.memory⟩).1 ∧
      ((body t.function.table).run ⟨t.function.pass, t.memory⟩).2.memory =
        ((body s.function.table).run ⟨s.function.pass, s.memory⟩).2.memory := by
    rw [hbodies]
    obtain ⟨hresult, hafter⟩ := hbody _ _ hexecution
    exact ⟨hresult, hafter.memory⟩
  have hfunction := h.function.of_descends (hs h.function.left) (ht h.function.right)
    h.function.frozen h.function.registry h.function.loops
  exact ⟨hresult, hfunction, h.compilations, hmemory⟩

theorem onTable_call_respects (args : List Value) (out : Option Value) :
    Effect.Respects Machine.Alike (onTable (·.call args out)) := by
  intro s t h
  apply onTable_alike h (onTable_call_coheres args out s) (onTable_call_coheres args out t)
  exact LoopTable.call_respects (fun _ _ hselect => h.function.left.find?_of_select hselect) args out

theorem onRegistry_respects {body : Registry → Engine → Except Error α × Registry × Engine}
    (hcoheres : Effect.Keeps Machine.Coheres (onRegistry body))
    (hbody : ∀ (r r' : Registry) (engine engine' : Engine), r.Alike r' →
      engine'.compilations = engine.compilations → Registry.Agree (body r engine) (body r' engine')) :
    Effect.Respects Machine.Alike (onRegistry body) := by
  intro s t h
  obtain ⟨hresult, hregistry, hcompilations⟩ :=
    hbody _ _ s.engine t.engine h.function.registry h.compilations
  have hfunction := h.function.of_descends (hcoheres s h.function.left) (hcoheres t h.function.right)
    h.function.frozen hregistry h.function.loops
  exact ⟨hresult, hfunction, hcompilations, h.memory⟩

theorem resolve_respects (function : String) (query : List DType) (frozen mayCompile : Bool) :
    Effect.Respects Machine.Alike (onRegistry fun registry engine =>
      registry.resolve function query frozen mayCompile engine) :=
  onRegistry_respects (onRegistry_coheres fun _ _ h => h.resolve_grows ..)
    fun _ _ _ _ h hengine => h.resolve hengine function query frozen mayCompile

end Step

namespace DynamicFunction

theorem add_respects (call : CallSignature) : Effect.Respects Machine.Alike (add call) := by
  have hinsert : Effect.Respects Machine.Alike (Step.onRegistry fun registry engine =>
      registry.insert call engine) :=
    Step.onRegistry_respects (Step.onRegistry_coheres fun r engine h => (h.insert call engine).grows h)
      fun _ _ _ _ h hengine => h.insert hengine call
  exact hinsert.bind fun _ => .pure _

theorem buildTable_respects : Effect.Respects Machine.Alike buildTable := by
  intro s t h
  have hfunction := h.function.of_descends (buildTable_coheres s h.function.left)
    (buildTable_coheres t h.function.right) h.function.frozen h.function.registry
    h.function.registry.entries
  exact ⟨rfl, hfunction, h.compilations, h.memory⟩

theorem disableCompile_respects : Effect.Respects Machine.Alike disableCompile := by
  intro s t h
  have hs := disableCompile_coheres s h.function.left
  have ht := disableCompile_coheres t h.function.right
  rw [disableCompile_run] at hs ht ⊢
  rw [disableCompile_run, h.function.registry.entries, h.function.name]
  rw [h.function.registry.entries] at ht
  split
  case isTrue => exact ⟨rfl, h⟩
  case isFalse hne =>
    rw [if_neg hne] at hs ht
    exact ⟨rfl, h.function.of_descends hs ht rfl h.function.registry h.function.loops,
      h.compilations, h.memory⟩

end DynamicFunction

namespace Machine

theorem Alike.matching {s t : Machine} (h : s.Alike t) : s.Matches t where
  name := h.function.name
  arity := h.function.arity_eq
  fixed := h.function.isFixed_eq
  frozen := h.function.frozen
  codes := congrArg LoopTable.codes h.function.table_eq
  signatures := congrArg (List.map Specialization.signature) h.function.registry.entries
  compilations := h.compilations
  memory := h.memory
  selects query := by rw [h.function.table_eq]
  finds query := by rw [h.function.specialization?_eq]

theorem simulation_alike (operands : List Value) : Simulation Alike operands where
  matching _ _ h := h.matching
  table args out _ := Step.onTable_call_respects args out
  specialized s t loop loop' h hloop hloop' := by
    have hsame : t.function.specialization? (t.memory.dtypes operands) =
      s.function.specialization? (t.memory.dtypes operands) := h.function.specialization?_eq
    rw [hloop', h.memory, hloop] at hsame
    cases hsame
    apply Step.onTable_alike h (Step.onTable_executeWith_coheres hloop)
      (Step.onTable_executeWith_coheres hloop')
    exact LoopTable.executeWith_respects (h.function.left.sound.find?_of_specialization hloop) operands
  add := DynamicFunction.add_respects
  build := DynamicFunction.buildTable_respects
  disable := DynamicFunction.disableCompile_respects
  resolve := Step.resolve_respects

end Machine

namespace DynamicFunction

variable {f g : DynamicFunction} {engine engine' : Engine}

/-- No run tells alike functions apart. -/
theorem Alike.observations_eq (h : f.Alike g) (hengine : engine'.compilations = engine.compilations)
    (run : List (Operation × Memory)) : g.observations engine' run = f.observations engine run := by
  induction run generalizing f g engine engine' with
  | nil => rfl
  | cons use rest ih =>
    obtain ⟨operation, m⟩ := use
    obtain ⟨hanswer, hafter⟩ := (Machine.simulation_alike operation.operands).respond ⟨f, engine, m⟩
      ⟨g, engine', m⟩ ⟨h, hengine, rfl⟩
    rw [observations, observations, hanswer, hafter.matching.observed_eq,
      ih hafter.function hafter.compilations]

end DynamicFunction

end Corewise
