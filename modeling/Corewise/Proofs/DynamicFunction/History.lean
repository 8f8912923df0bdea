import Corewise.Proofs.DynamicFunction.Frozen
import Corewise.Proofs.LoopTable.Recall
/-!
What operations leave of a function. What it was made from stays, its entries stay in front of all that
come later, and its table lists the first of them in the settings of the function.
-/

namespace Corewise

namespace DynamicFunction

/-- What operations keep: entries are as they were compiled, the table lists the first of them with the
settings that a new table would have, and trampolines are kept as they would be made anew. -/
structure Coherent (f : DynamicFunction) : Prop where
  sound : f.Sound
  settings : f.table = { LoopTable.ofRegistry f.name f.registry f.identity f.writableArgs with
    loops := f.table.loops }
  listed : f.table.loops <+: f.registry.entries
  pass : f.pass.Recalls f.registry f.table.writable f.table.options.boundsCheck
  made : ∀ s ∈ f.registry.entries, ∃ compilations, s.MadeAfter f.registry.recipe compilations
  stocked : f.lifecycle.isFrozen = true → f.registry.entries ≠ []

/-- What the function `f` may have become. -/
structure Descends (f g : DynamicFunction) : Prop where
  key : g.key = f.key
  signatureText : g.signatureText = f.signatureText
  identity : g.identity = f.identity
  cache : g.cache = f.cache
  writableArgs : g.writableArgs = f.writableArgs
  mode : g.lifecycle.mode = f.lifecycle.mode
  frozen : f.lifecycle.isFrozen = true → g.lifecycle.isFrozen = true
  registry : f.registry.Precedes g.registry

theorem Descends.refl (f : DynamicFunction) : f.Descends f :=
  ⟨rfl, rfl, rfl, rfl, rfl, rfl, id, .refl _⟩

theorem Descends.trans {f g k : DynamicFunction} (h : f.Descends g) (h' : g.Descends k) :
    f.Descends k where
  key := h'.key.trans h.key
  signatureText := h'.signatureText.trans h.signatureText
  identity := h'.identity.trans h.identity
  cache := h'.cache.trans h.cache
  writableArgs := h'.writableArgs.trans h.writableArgs
  mode := h'.mode.trans h.mode
  frozen hf := h'.frozen (h.frozen hf)
  registry := h.registry.trans h'.registry

theorem coherent_new (key : FunctionKey) (recipe : Recipe) (text : String) (identity : Identity)
    (cache : Bool) (writable : List Nat) (mode : Dispatch.Mode) :
    (new key recipe text identity cache writable mode).Coherent where
  sound := sound_new ..
  settings := rfl
  listed := List.prefix_refl _
  pass := Lowering.Pass.recalls_empty _
  made _ hs := absurd hs List.not_mem_nil
  stocked := nofun

theorem Coherent.renewTable {f : DynamicFunction} (h : f.Coherent) : f.renewTable.Coherent where
  sound := h.sound.renewTable
  settings := rfl
  listed := List.prefix_refl _
  pass := Lowering.Pass.recalls_empty _
  made := h.made
  stocked := h.stocked

/-- More entries behind those that were there leave the table as it is. -/
theorem Coherent.of_grows {f : DynamicFunction} (h : f.Coherent) {r : Registry}
    {engine engine' : Engine} (hgrows : f.registry.Grows engine r engine') :
    { f with registry := r }.Coherent where
  sound := h.sound.of_grows hgrows
  settings := by
    have hsettings := h.settings
    rw [LoopTable.ofRegistry, Registry.arity, ← hgrows.recipe] at hsettings
    exact hsettings
  listed := h.listed.trans hgrows.entries
  pass := h.pass.of_find? fun _ _ hfound =>
    h.sound.registry.find?_of_precedes hgrows.sound hgrows.precedes hfound
  made s hs := by
    show ∃ compilations, s.MadeAfter r.recipe compilations
    rw [hgrows.recipe]
    rcases hgrows.mem_cases hs with hs | hs
    · exact h.made s hs
    · exact hs
  stocked hf hnil := h.stocked hf (List.prefix_nil.1 (hnil ▸ hgrows.entries))

theorem Coherent.arity_eq {f : DynamicFunction} (h : f.Coherent) :
    f.table.arity = f.registry.arity := h.sound.arity_eq

/-- The table runs the first entry with a key. -/
theorem Coherent.find?_of_select {f : DynamicFunction} (h : f.Coherent) {query : List DType}
    {loop : Specialization} (hselect : f.table.select? query = some loop) :
    f.registry.find? loop.key = some loop := by
  rw [LoopTable.select?, h.arity_eq] at hselect
  exact h.sound.registry.find?_of_select_prefix h.listed hselect

end DynamicFunction

namespace Machine

/-- A step that leaves a function coherent, and comes of what it was. -/
def Coheres (s s' : Machine) : Prop :=
  s.function.Coherent → s'.function.Coherent ∧ s.function.Descends s'.function

instance : Std.Refl Coheres := ⟨fun _ h => ⟨h, .refl _⟩⟩

instance : Trans Coheres Coheres Coheres where
  trans h h' hs := by
    obtain ⟨hcoherent, hdescends⟩ := h hs
    obtain ⟨hcoherent', hdescends'⟩ := h' hcoherent
    exact ⟨hcoherent', hdescends.trans hdescends'⟩

end Machine

namespace Step

variable {α : Type} {s : Machine}

theorem onTable_coheres {body : LoopTable → Execute α}
    (hserves : s.function.Sound → Effect.Keeps (Execution.Keeps s.function.registry.recipe)
      (body s.function.table))
    (hrecalls : s.function.Coherent → Effect.Respects
      (Execution.Alike s.function.registry s.function.table) (body s.function.table)) :
    s.Coheres ((onTable body).run s).2 := by
  intro h
  have hsound := (onTable_advances hserves h.sound).sound
  obtain ⟨-, hafter⟩ := hrecalls h ⟨s.function.pass, s.memory⟩ _ ⟨rfl, h.pass, h.pass⟩
  exact ⟨⟨hsound, h.settings, h.listed, hafter.left, h.made, h.stocked⟩,
    rfl, rfl, rfl, rfl, rfl, rfl, id, .refl _⟩

theorem onTable_call_coheres (args : List Value) (out : Option Value) :
    Effect.Keeps Machine.Coheres (onTable (·.call args out)) := fun _ =>
  onTable_coheres (fun h => h.table.call_keeps args out) fun h =>
    LoopTable.call_respects (fun _ _ hselect => h.find?_of_select hselect) args out

theorem onTable_executeWith_coheres {args : List Value} {query : List DType} {loop : Specialization}
    (hloop : s.function.specialization? query = some loop) :
    s.Coheres ((onTable (·.executeWith args loop)).run s).2 := by
  apply onTable_coheres
  · intro h
    exact LoopTable.executeWith_keeps (h.registry.valid loop (h.mem_of_specialization hloop))
  · intro h
    exact LoopTable.executeWith_respects (h.sound.find?_of_specialization hloop) args

theorem onRegistry_coheres {body : Registry → Engine → Except Error α × Registry × Engine}
    (h : ∀ (r : Registry) engine, r.Sound → r.Grows engine (body r engine).2.1 (body r engine).2.2) :
    Effect.Keeps Machine.Coheres (onRegistry body) := by
  intro s hs
  have hgrows := h s.function.registry s.engine hs.sound.registry
  exact ⟨hs.of_grows hgrows, rfl, rfl, rfl, rfl, rfl, rfl, id, hgrows.precedes⟩

end Step

namespace DynamicFunction

theorem add_coheres (call : CallSignature) : Effect.Keeps Machine.Coheres (add call) := by
  have hinsert : Effect.Keeps Machine.Coheres (Step.onRegistry fun registry engine =>
      registry.insert call engine) :=
    Step.onRegistry_coheres fun r engine h => (h.insert call engine).grows h
  exact hinsert.bind fun _ => Effect.Keeps.pure _

theorem buildTable_coheres : Effect.Keeps Machine.Coheres buildTable :=
  fun _ h => ⟨h.renewTable, rfl, rfl, rfl, rfl, rfl, rfl, id, .refl _⟩

theorem resolve_coheres (function : String) (query : List DType) (frozen mayCompile : Bool) :
    Effect.Keeps Machine.Coheres (Step.onRegistry fun registry engine =>
      registry.resolve function query frozen mayCompile engine) :=
  Step.onRegistry_coheres fun _ _ h => h.resolve_grows ..

theorem typeCall_coheres (types : List OperandType) (keywords : List (String × OperandType)) :
    Effect.Keeps Machine.Coheres (typeCall types keywords) := fun s =>
  typeCall_keeps types keywords s buildTable_coheres fun _ => resolve_coheres _ _ _ _

theorem lowerCall_coheres (args : List Value) : Effect.Keeps Machine.Coheres (lowerCall args) :=
  fun s => lowerCall_keeps args s fun _ hloop => Step.onTable_executeWith_coheres hloop

theorem disableCompile_run (s : Machine) : disableCompile.run s =
    if s.function.registry.entries = [] then (.error (.nothingToFreeze s.function.name), s)
    else (.ok (), { s with function := { s.function with lifecycle :=
      { s.function.lifecycle with phase := .frozen s.function.registry.entries.length } } }) := by
  unfold disableCompile Lifecycle.freeze
  rw [Effect.run_get_bind]
  dsimp only
  by_cases hnil : s.function.registry.entries = []
  · rw [if_pos hnil, if_pos (List.length_eq_zero_iff.2 hnil)]
    rfl
  · rw [if_neg hnil, if_neg (mt List.length_eq_zero_iff.1 hnil)]
    rfl

theorem disableCompile_coheres : Effect.Keeps Machine.Coheres disableCompile := by
  intro s h
  rw [disableCompile_run]
  split
  case isTrue => exact ⟨h, .refl _⟩
  case isFalse hne =>
    have hsound : Sound { s.function with lifecycle :=
        { s.function.lifecycle with phase := .frozen s.function.registry.entries.length } } :=
      ⟨h.sound.registry, h.sound.name, h.sound.signature, h.sound.options, h.sound.stored, h.sound.pass⟩
    exact ⟨⟨hsound, h.settings, h.listed, h.pass, h.made, fun _ => hne⟩,
      rfl, rfl, rfl, rfl, rfl, rfl, fun _ => rfl, .refl _⟩

end DynamicFunction

theorem Operation.step_coheres (operation : Operation) :
    Effect.Keeps Machine.Coheres operation.step :=
  operation.step_keeps Step.onTable_call_coheres
    (fun _ _ _ hloop => Step.onTable_executeWith_coheres hloop) DynamicFunction.add_coheres
    DynamicFunction.buildTable_coheres DynamicFunction.disableCompile_coheres
    DynamicFunction.resolve_coheres

theorem Reachable.coherent {f : DynamicFunction} (h : Reachable f) : f.Coherent := by
  induction h with
  | new => exact DynamicFunction.coherent_new ..
  | step _ operation engine m ih => exact (operation.step_coheres ⟨_, engine, m⟩ ih).1

/-- A function after any operations comes of what it was before them. -/
theorem Reachable.descends_after {f : DynamicFunction} (h : Reachable f) (uses : List Use) :
    f.Descends (f.after uses) := by
  induction uses generalizing f with
  | nil => exact .refl f
  | cons use uses ih =>
    obtain ⟨-, hstep⟩ :=
      use.operation.step_coheres ⟨f, use.engine, use.memory⟩ h.coherent
    exact hstep.trans (ih (h.step use.operation use.engine use.memory))

end Corewise
