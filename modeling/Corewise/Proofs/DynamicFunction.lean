import Corewise.DynamicFunction
import Corewise.Proofs.LoopTable
import Corewise.Proofs.Registry.Compatible
/-!
Functions that only their own operations have touched. Every entry of their registries is what the
compiler made by the recipe, their tables hold some of these entries, and the compiler has counted each
entry once.
-/

namespace Corewise

/-- What can be asked of a function. -/
inductive Operation where
  | call (args : List Value) (out : Option Value)
  /-- A call of the table in use, past the function. -/
  | callTable (args : List Value) (out : Option Value)
  | typeCall (types : List OperandType) (keywords : List (String × OperandType))
  | lowerCall (args : List Value)
  | add (signature : CallSignature)
  | buildTable
  | disableCompile

def Operation.step : Operation → Step Unit
  | .call args out => DynamicFunction.call args out >>= fun _ => pure ()
  | .callTable args out => Step.onTable (·.call args out) >>= fun _ => pure ()
  | .typeCall types keywords => DynamicFunction.typeCall types keywords >>= fun _ => pure ()
  | .lowerCall args => DynamicFunction.lowerCall args >>= fun _ => pure ()
  | .add signature => DynamicFunction.add signature
  | .buildTable => DynamicFunction.buildTable
  | .disableCompile => DynamicFunction.disableCompile

/-- A function after any operations, whatever compiler and memory each of them was given. -/
inductive Reachable : DynamicFunction → Prop
  | new (key : FunctionKey) (recipe : Recipe) (text : String) (identity : Identity) (cache : Bool)
      (writable : List Nat) (mode : Dispatch.Mode) :
      Reachable (.new key recipe text identity cache writable mode)
  | step {f : DynamicFunction} (h : Reachable f) (operation : Operation) (engine : Engine)
      (m : Memory) : Reachable (operation.step.run ⟨f, engine, m⟩).2.function

/-- A function after any operations, with a compiler that nothing else has used. -/
inductive Owned : DynamicFunction → Engine → Prop
  | new (key : FunctionKey) (recipe : Recipe) (text : String) (identity : Identity) (cache : Bool)
      (writable : List Nat) (mode : Dispatch.Mode) :
      Owned (.new key recipe text identity cache writable mode) .fresh
  | step {f : DynamicFunction} {engine : Engine} (h : Owned f engine) (operation : Operation)
      (m : Memory) : Owned (operation.step.run ⟨f, engine, m⟩).2.function
        (operation.step.run ⟨f, engine, m⟩).2.engine

theorem Owned.reachable {f : DynamicFunction} {engine : Engine} (h : Owned f engine) :
    Reachable f := by
  induction h with
  | new => exact .new ..
  | step _ operation m ih => exact ih.step operation _ m

namespace DynamicFunction

/-- What the operations of a function keep. -/
structure Sound (f : DynamicFunction) : Prop where
  registry : f.registry.Sound
  name : f.table.name = f.name
  signature : f.table.signature = f.registry.recipe.signature
  options : f.table.options = f.registry.recipe.options
  stored : f.table.loops ⊆ f.registry.entries
  pass : f.pass.Serves f.registry.recipe

theorem Sound.table {f : DynamicFunction} (h : f.Sound) : f.table.Sound f.registry.recipe :=
  ⟨h.signature, h.options, fun loop hloop => h.registry.valid loop (h.stored hloop)⟩

theorem sound_new (key : FunctionKey) (recipe : Recipe) (text : String) (identity : Identity)
    (cache : Bool) (writable : List Nat) (mode : Dispatch.Mode) :
    (new key recipe text identity cache writable mode).Sound where
  registry := Registry.sound_empty recipe
  name := rfl
  signature := rfl
  options := rfl
  stored := List.Subset.refl _
  pass := Lowering.Pass.serves_empty recipe key.name

theorem Sound.renewTable {f : DynamicFunction} (h : f.Sound) : f.renewTable.Sound where
  registry := h.registry
  name := rfl
  signature := rfl
  options := rfl
  stored := List.Subset.refl _
  pass := Lowering.Pass.serves_empty f.registry.recipe f.name

theorem Sound.of_grows {f : DynamicFunction} (h : f.Sound) {r : Registry} {engine engine' : Engine}
    (hgrows : f.registry.Grows engine r engine') : { f with registry := r }.Sound where
  registry := hgrows.sound
  name := h.name
  signature := h.signature.trans (congrArg Recipe.signature hgrows.recipe.symm)
  options := h.options.trans (congrArg Recipe.options hgrows.recipe.symm)
  stored := List.Subset.trans h.stored hgrows.entries.subset
  pass := hgrows.recipe ▸ h.pass

theorem specialization?_of_open {f : DynamicFunction} (hopen : f.lifecycle.isFrozen = false)
    (query : List DType) : f.specialization? query = f.registry.find? query := by
  rw [specialization?, hopen]
  rfl

theorem Sound.specialization?_of_frozen {f : DynamicFunction} (h : f.Sound)
    (hfrozen : f.lifecycle.isFrozen = true) (query : List DType) :
    f.specialization? query = Dispatch.select (Specialization.types f.registry.arity)
      f.registry.entries f.registry.arity query := by
  rw [specialization?, if_pos hfrozen, h.registry.findCompatible?_eq, Option.map_map]
  exact Option.map_id'

/-- What is looked up is the first entry with its key. -/
theorem Sound.find?_of_specialization {f : DynamicFunction} (h : f.Sound) {query : List DType}
    {loop : Specialization} (hloop : f.specialization? query = some loop) :
    f.registry.find? loop.key = some loop := by
  rcases hfrozen : f.lifecycle.isFrozen with _ | _
  case false =>
    rw [specialization?_of_open hfrozen] at hloop
    exact h.registry.find?_key_of_find? hloop
  case true =>
    rw [h.specialization?_of_frozen hfrozen] at hloop
    exact h.registry.find?_of_select_prefix (List.prefix_refl _) hloop

theorem Sound.mem_of_specialization {f : DynamicFunction} (h : f.Sound) {query : List DType}
    {loop : Specialization} (hloop : f.specialization? query = some loop) :
    loop ∈ f.registry.entries := by
  have hfound := h.find?_of_specialization hloop
  rw [h.registry.find?_eq] at hfound
  exact List.mem_of_find?_eq_some hfound

end DynamicFunction

namespace Machine

/-- A step that keeps a function sound, and after which the compiler has made and counted each new entry. -/
structure Advance (s s' : Machine) : Prop where
  sound : s'.function.Sound
  grows : s.function.registry.Grows s.engine s'.function.registry s'.engine

theorem Advance.counted {s s' : Machine} (h : s.Advance s') :
    s'.engine.compilations + s.function.registry.entries.length =
      s.engine.compilations + s'.function.registry.entries.length := h.grows.counted

def Advances (s s' : Machine) : Prop := s.function.Sound → s.Advance s'

instance : Std.Refl Advances := ⟨fun _ h => ⟨h, h.registry.grows_refl _⟩⟩

instance : Trans Advances Advances Advances where
  trans h h' hs := by
    obtain ⟨hsound, hgrows⟩ := h hs
    obtain ⟨hsound', hgrows'⟩ := h' hsound
    exact ⟨hsound', hgrows.trans hgrows'⟩

end Machine

namespace Step

variable {α : Type} {s : Machine}

/-- Calls through a table make trampolines of the recipe, and nothing else. -/
theorem onTable_advances {body : LoopTable → Execute α}
    (h : s.function.Sound → Effect.Keeps (Execution.Keeps s.function.registry.recipe)
      (body s.function.table)) : s.Advances ((onTable body).run s).2 := by
  intro hs
  refine ⟨?_, hs.registry.grows_refl _⟩
  exact { hs with pass := h hs ⟨s.function.pass, s.memory⟩ hs.pass }

theorem onRegistry_advances {body : Registry → Engine → Except Error α × Registry × Engine}
    (h : ∀ (r : Registry) engine, r.Sound → r.Grows engine (body r engine).2.1 (body r engine).2.2) :
    Effect.Keeps Machine.Advances (onRegistry body) := by
  intro s hs
  have hgrows := h s.function.registry s.engine hs.registry
  exact ⟨hs.of_grows hgrows, hgrows⟩

theorem modifyFunction_advances {f : DynamicFunction → DynamicFunction}
    (hsound : ∀ g : DynamicFunction, g.Sound → (f g).Sound)
    (hregistry : ∀ g, (f g).registry = g.registry) :
    Effect.Keeps Machine.Advances (modifyFunction f) := by
  intro s hs
  refine ⟨hsound _ hs, ?_⟩
  show s.function.registry.Grows s.engine (f s.function).registry s.engine
  rw [hregistry]
  exact hs.registry.grows_refl _

end Step

namespace DynamicFunction

theorem add_advances (call : CallSignature) : Effect.Keeps Machine.Advances (add call) := by
  refine Effect.Keeps.bind ?_ fun _ => Effect.Keeps.pure _
  exact Step.onRegistry_advances fun r engine h => (h.insert call engine).grows h

theorem buildTable_advances : Effect.Keeps Machine.Advances buildTable :=
  Step.modifyFunction_advances (fun _ h => h.renewTable) fun _ => rfl

theorem disableCompile_advances : Effect.Keeps Machine.Advances disableCompile := by
  refine Effect.Keeps.get fun s => ?_
  dsimp only
  split
  case h_1 lifecycle _ =>
    refine Step.modifyFunction_advances (fun _ h => ?_) fun _ => rfl
    exact ⟨h.registry, h.name, h.signature, h.options, h.stored, h.pass⟩
  case h_2 => exact Effect.Keeps.throw _

theorem resolve_advances (function : String) (query : List DType) (frozen mayCompile : Bool) :
    Effect.Keeps Machine.Advances (Step.onRegistry fun registry engine =>
      registry.resolve function query frozen mayCompile engine) :=
  Step.onRegistry_advances fun _ _ h => h.resolve_grows ..

theorem onTable_call_advances (args : List Value) (out : Option Value) :
    Effect.Keeps Machine.Advances (Step.onTable (·.call args out)) :=
  fun _ => Step.onTable_advances fun h => h.table.call_keeps args out

/-- A call keeps what its table, renewing that and the look-ups from its state keep. -/
theorem call_keeps {R : Machine → Machine → Prop} [Std.Refl R] [Trans R R R] (args : List Value)
    (out : Option Value) (s : Machine)
    (htable : ∀ args out, Effect.Keeps R (Step.onTable (·.call args out)))
    (hbuild : Effect.Keeps R buildTable)
    (hresolve : ∀ query, Effect.Keeps R (Step.onRegistry fun registry engine =>
      registry.resolve s.function.name query false true engine)) :
    R s ((call args out).run s).2 := by
  unfold call
  rw [Effect.run_get_bind]
  dsimp only
  split
  case isTrue => exact htable args out s
  case isFalse =>
    have htable := htable (args ++ out.toList) none
    have hresolved : Effect.Keeps R
        (if (s.function.table.select? (s.memory.dtypes (args ++ out.toList))).isNone then
          Step.onRegistry (fun registry engine => registry.resolve s.function.name
            (s.memory.dtypes (args ++ out.toList)) false true engine) >>= fun _ =>
            buildTable >>= fun _ => Step.onTable (·.call (args ++ out.toList) none)
        else Step.onTable (·.call (args ++ out.toList) none) : Step Value) := by
      split
      case isTrue => exact (hresolve _).bind fun _ => hbuild.bind fun _ => htable
      case isFalse => exact htable
    split
    case isTrue => exact (Effect.Keeps.throw _).bind (fun _ => hresolved) s
    case isFalse => exact hresolved s

theorem call_advances (args : List Value) (out : Option Value) :
    Effect.Keeps Machine.Advances (call args out) := fun s =>
  call_keeps args out s onTable_call_advances buildTable_advances fun _ => resolve_advances _ _ _ _

/-- Typing a call site keeps what renewing the table and the look-ups from its state keep. -/
theorem typeCall_keeps {R : Machine → Machine → Prop} [Std.Refl R] [Trans R R R]
    (types : List OperandType) (keywords : List (String × OperandType)) (s : Machine)
    (hbuild : Effect.Keeps R buildTable)
    (hresolve : ∀ query, Effect.Keeps R (Step.onRegistry fun registry engine =>
      registry.resolve s.function.name query s.function.lifecycle.isFrozen
        (!s.function.lifecycle.isFrozen) engine)) :
    R s ((typeCall types keywords).run s).2 := by
  have hrest : Effect.Keeps R
      (Step.ofExcept (Dispatch.siteTypes s.function.arity types) >>= fun query =>
        if (s.function.specialization? query).isNone then
          Step.onRegistry (fun registry engine => registry.resolve s.function.name query
            s.function.lifecycle.isFrozen (!s.function.lifecycle.isFrozen) engine) >>= fun r =>
            if r.kind = .compiled then buildTable >>= fun _ => pure (.void types)
            else pure (.void types)
        else pure (.void types) : Step CallSignature) := by
    refine Effect.Keeps.bind (fun s => Std.Refl.refl s) fun query => ?_
    split
    case isTrue =>
      refine (hresolve query).bind fun r => ?_
      split
      case isTrue => exact hbuild.bind fun _ => Effect.Keeps.pure _
      case isFalse => exact Effect.Keeps.pure _
    case isFalse => exact Effect.Keeps.pure _
  unfold typeCall
  rw [Effect.run_get_bind]
  dsimp only
  split
  case h_1 => exact ((Effect.Keeps.throw _).bind fun _ => hrest) s
  case h_2 => exact ((Effect.Keeps.pure ()).bind fun _ => hrest) s

/-- A typed call site keeps what running the specialization that it finds keeps. -/
theorem lowerCall_keeps {R : Machine → Machine → Prop} [Std.Refl R] (args : List Value) (s : Machine)
    (hrun : ∀ loop, s.function.specialization? (s.memory.dtypes args) = some loop →
      R s ((Step.onTable (·.executeWith args loop)).run s).2) :
    R s ((lowerCall args).run s).2 := by
  unfold lowerCall
  rw [Effect.run_get_bind]
  dsimp only
  split
  case h_1 => exact Std.Refl.refl s
  case h_2 loop hloop => exact hrun loop hloop

end DynamicFunction

/-- An operation keeps what calling a table, running a specialization that was looked up, and each change of
the function or its registry keep. -/
theorem Operation.step_keeps {R : Machine → Machine → Prop} [Std.Refl R] [Trans R R R]
    (operation : Operation)
    (htable : ∀ args out, Effect.Keeps R (Step.onTable (·.call args out)))
    (hrun : ∀ args loop (s : Machine),
      s.function.specialization? (s.memory.dtypes args) = some loop →
      R s ((Step.onTable (·.executeWith args loop)).run s).2)
    (hadd : ∀ call, Effect.Keeps R (DynamicFunction.add call))
    (hbuild : Effect.Keeps R DynamicFunction.buildTable)
    (hdisable : Effect.Keeps R DynamicFunction.disableCompile)
    (hresolve : ∀ function query frozen mayCompile, Effect.Keeps R (Step.onRegistry
      fun registry engine => registry.resolve function query frozen mayCompile engine)) :
    Effect.Keeps R operation.step := by
  cases operation with
  | call args out =>
    have hcall : Effect.Keeps R (DynamicFunction.call args out) := fun s =>
      DynamicFunction.call_keeps args out s htable hbuild fun _ => hresolve _ _ _ _
    exact hcall.bind fun _ => Effect.Keeps.pure _
  | callTable args out => exact (htable args out).bind fun _ => Effect.Keeps.pure _
  | typeCall types keywords =>
    have htyped : Effect.Keeps R (DynamicFunction.typeCall types keywords) := fun s =>
      DynamicFunction.typeCall_keeps types keywords s hbuild fun _ => hresolve _ _ _ _
    exact htyped.bind fun _ => Effect.Keeps.pure _
  | lowerCall args =>
    have hlowered : Effect.Keeps R (DynamicFunction.lowerCall args) := fun s =>
      DynamicFunction.lowerCall_keeps args s fun loop => hrun args loop s
    exact hlowered.bind fun _ => Effect.Keeps.pure _
  | add call => exact hadd call
  | buildTable => exact hbuild
  | disableCompile => exact hdisable

/-- Every operation keeps a function sound, and its compiler's count. -/
theorem Operation.step_advances (operation : Operation) :
    Effect.Keeps Machine.Advances operation.step := by
  refine operation.step_keeps DynamicFunction.onTable_call_advances ?_ DynamicFunction.add_advances
    DynamicFunction.buildTable_advances DynamicFunction.disableCompile_advances
    DynamicFunction.resolve_advances
  intro args loop s hloop
  apply Step.onTable_advances
  intro h
  exact LoopTable.executeWith_keeps (h.registry.valid loop (h.mem_of_specialization hloop))

theorem Reachable.sound {f : DynamicFunction} (h : Reachable f) : f.Sound := by
  induction h with
  | new => exact DynamicFunction.sound_new ..
  | step _ operation engine m ih => exact (operation.step_advances ⟨_, engine, m⟩ ih).sound

/-- The compiler has counted as many compilations as there are entries. -/
theorem Owned.compilations_eq {f : DynamicFunction} {engine : Engine} (h : Owned f engine) :
    engine.compilations = f.registry.entries.length := by
  induction h with
  | new => rfl
  | @step f engine h operation m ih =>
    have hcounted := (operation.step_advances ⟨f, engine, m⟩ h.reachable.sound).counted
    dsimp only at hcounted ⊢
    omega

end Corewise
