import Corewise.Proofs.DynamicFunction.Call
import Corewise.Proofs.Loop.Reference
import Corewise.Proofs.Registry.Scan
/-!
Functions after they were frozen. They stay frozen, and calls compile nothing any more; but whoever adds a
call signature by hand still has it compiled.
-/

namespace Corewise

namespace Machine

/-- A step after which what was frozen is frozen, with the registry and the compiler as they were. -/
def Still (s s' : Machine) : Prop :=
  s.function.lifecycle.isFrozen = true → s'.function.lifecycle.isFrozen = true ∧
    s'.function.registry = s.function.registry ∧ s'.engine = s.engine

instance : Std.Refl Still := ⟨fun _ h => ⟨h, rfl, rfl⟩⟩

instance : Trans Still Still Still where
  trans h h' hs := by
    obtain ⟨hfrozen, hregistry, hengine⟩ := h hs
    obtain ⟨hfrozen', hregistry', hengine'⟩ := h' hfrozen
    exact ⟨hfrozen', hregistry'.trans hregistry, hengine'.trans hengine⟩

end Machine

theorem Lifecycle.isFrozen_of_freeze {l l' : Lifecycle} {n : Nat} (h : l.freeze n = some l') :
    l'.isFrozen = true := by
  unfold freeze at h
  split at h
  · cases h
  · cases h
    rfl

theorem Step.onTable_still {α : Type} (body : LoopTable → Execute α) :
    Effect.Keeps Machine.Still (Step.onTable body) := fun _ hs => ⟨hs, rfl, rfl⟩

namespace DynamicFunction

theorem buildTable_still : Effect.Keeps Machine.Still buildTable := fun _ hs => ⟨hs, rfl, rfl⟩

theorem disableCompile_still : Effect.Keeps Machine.Still disableCompile := by
  apply Effect.Keeps.get
  intro s
  dsimp only
  split
  case h_1 hfreeze =>
    intro t ht
    exact ⟨Lifecycle.isFrozen_of_freeze hfreeze, rfl, rfl⟩
  case h_2 => exact Effect.Keeps.throw _

theorem call_still (args : List Value) (out : Option Value) :
    Effect.Keeps Machine.Still (call args out) := by
  intro s hs
  have hfixed : s.function.lifecycle.isFixed = true := by
    rw [Lifecycle.isFixed, hs, Bool.true_or]
  rw [call_of_fixed hfixed]
  exact Step.onTable_still _ s hs

theorem lowerCall_still (args : List Value) : Effect.Keeps Machine.Still (lowerCall args) :=
  fun s => lowerCall_keeps args s fun _ _ => Step.onTable_still _ s

theorem resolve_still (function : String) (query : List DType) (mayCompile : Bool) :
    Effect.Keeps Machine.Still (Step.onRegistry fun registry engine =>
      registry.resolve function query true mayCompile engine) := fun _ hs => ⟨hs, rfl, rfl⟩

theorem typeCall_still (types : List OperandType) (keywords : List (String × OperandType)) :
    Effect.Keeps Machine.Still (typeCall types keywords) := by
  intro s hs
  have hresolve (query : List DType) : Effect.Keeps Machine.Still
      (Step.onRegistry fun registry engine => registry.resolve s.function.name query
        s.function.lifecycle.isFrozen (!s.function.lifecycle.isFrozen) engine) := by
    rw [hs]
    exact resolve_still _ _ _
  exact typeCall_keeps types keywords s buildTable_still hresolve hs

end DynamicFunction

theorem Operation.step_still {operation : Operation} (h : ∀ call, operation ≠ .add call) :
    Effect.Keeps Machine.Still operation.step := by
  cases operation with
  | call args out => exact (DynamicFunction.call_still args out).bind fun _ => Effect.Keeps.pure _
  | callTable args out => exact (Step.onTable_still _).bind fun _ => Effect.Keeps.pure _
  | typeCall types keywords =>
    exact (DynamicFunction.typeCall_still types keywords).bind fun _ => Effect.Keeps.pure _
  | lowerCall args => exact (DynamicFunction.lowerCall_still args).bind fun _ => Effect.Keeps.pure _
  | add call => exact absurd rfl (h call)
  | buildTable => exact DynamicFunction.buildTable_still
  | disableCompile => exact DynamicFunction.disableCompile_still

/-- An operation on a function, with the compiler and the memory that it is given. -/
structure Use where
  operation : Operation
  engine : Engine
  memory : Memory

def Use.outcome (use : Use) (f : DynamicFunction) : Machine :=
  (use.operation.step.run ⟨f, use.engine, use.memory⟩).2

namespace DynamicFunction

def after (f : DynamicFunction) : List Use → DynamicFunction
  | [] => f
  | use :: uses => (use.outcome f).function.after uses

/-- Successful compilations on the way. -/
def compilations (f : DynamicFunction) : List Use → Nat
  | [] => 0
  | use :: uses => ((use.outcome f).engine.compilations - use.engine.compilations) +
      (use.outcome f).function.compilations uses

end DynamicFunction

theorem Reachable.after {f : DynamicFunction} (h : Reachable f) (uses : List Use) :
    Reachable (f.after uses) := by
  induction uses generalizing f with
  | nil => exact h
  | cons use uses ih => exact ih (h.step use.operation use.engine use.memory)

theorem DynamicFunction.add_outcome (call : CallSignature) (engine : Engine) (m : Memory)
    (f : DynamicFunction) : Use.outcome ⟨.add call, engine, m⟩ f =
      ⟨{ f with registry := (f.registry.insert call engine).2.1 },
        (f.registry.insert call engine).2.2, m⟩ := by
  unfold Use.outcome
  show ((Step.onRegistry (fun registry engine => registry.insert call engine) >>= fun _ =>
    pure ()).run ⟨f, engine, m⟩).2 = _
  rcases hinsert : f.registry.insert call engine with ⟨e | s, r, engine'⟩
  · rw [Effect.run_bind_of_error (Step.onRegistry_of_eq hinsert)]
  · rw [Effect.run_bind_of_ok (Step.onRegistry_of_eq hinsert)]
    rfl

/-- What a use does to a frozen function. -/
inductive DynamicFunction.FrozenUse (f : DynamicFunction) (use : Use) : Machine → Prop
  | idle {s : Machine} (frozen : s.function.lifecycle.isFrozen = true)
      (registry : s.function.registry = f.registry)
      (compilations : s.engine.compilations = use.engine.compilations)
      (adds : ∀ call, use.operation = .add call → f.registry.Declines call) : FrozenUse f use s
  | added {s : Machine} {entry : Specialization}
      (frozen : s.function.lifecycle.isFrozen = true)
      (operation : use.operation = .add entry.signature)
      (absent : entry.signature ∉ f.registry.signatures)
      (takes : Compiler.Takes f.registry.recipe entry.signature)
      (registry : s.function.registry = f.registry.append entry)
      (compilations : s.engine.compilations = use.engine.compilations + 1) : FrozenUse f use s

theorem DynamicFunction.Sound.frozenUse {f : DynamicFunction} (h : f.Sound)
    (hfrozen : f.lifecycle.isFrozen = true) (use : Use) : f.FrozenUse use (use.outcome f) := by
  -- Adding is the one operation that does not look at the lifecycle.
  by_cases hadd : ∃ call, use.operation = .add call
  case neg =>
    obtain ⟨hstill, hregistry, hengine⟩ := Operation.step_still
      (fun call hcall => hadd ⟨call, hcall⟩) ⟨f, use.engine, use.memory⟩ hfrozen
    exact .idle hstill hregistry (congrArg Engine.compilations hengine) fun call hcall =>
      absurd ⟨call, hcall⟩ hadd
  case pos =>
    obtain ⟨operation, engine, m⟩ := use
    obtain ⟨call, rfl⟩ := hadd
    rw [DynamicFunction.add_outcome]
    by_cases hdeclines : f.registry.Declines call
    case pos =>
      obtain ⟨hregistry, hcompilations⟩ := h.registry.insert_of_declines hdeclines engine
      refine .idle hfrozen hregistry hcompilations fun call' hcall => ?_
      cases hcall
      exact hdeclines
    case neg =>
      obtain ⟨habsent, htakes⟩ := not_or.1 hdeclines
      replace htakes := not_not.1 htakes
      obtain ⟨entry, rfl, hregistry, hcompilations⟩ :=
        h.registry.insert_of_takes habsent htakes engine
      exact .added hfrozen rfl habsent htakes hregistry hcompilations

theorem DynamicFunction.FrozenUse.recipe {f : DynamicFunction} {use : Use} {s : Machine}
    (h : f.FrozenUse use s) : s.function.registry.recipe = f.registry.recipe := by
  cases h with
  | idle _ registry => rw [registry]
  | added _ _ _ _ registry =>
    rw [registry]
    rfl

theorem DynamicFunction.FrozenUse.mem_signatures {f : DynamicFunction} {use : Use} {s : Machine}
    (h : f.FrozenUse use s) (call : CallSignature) :
    call ∈ s.function.registry.signatures ↔ call ∈ f.registry.signatures ∨
      use.operation = .add call ∧ Compiler.Takes f.registry.recipe call := by
  cases h with
  | idle _ registry _ adds =>
    rw [registry]
    constructor
    · exact .inl
    · rintro (hstored | ⟨hadd, htakes⟩)
      · exact hstored
      · exact (adds call hadd).resolve_right (not_not.2 htakes)
  | @added entry _ operation _ takes registry =>
    rw [registry, operation]
    show call ∈ (f.registry.entries ++ [entry]).map (·.signature) ↔ _
    rw [List.map_append, List.mem_append, List.map_singleton, List.mem_singleton]
    apply or_congr Iff.rfl
    constructor
    · rintro rfl
      exact ⟨rfl, takes⟩
    · rintro ⟨hadd, -⟩
      cases hadd
      rfl

/-- A frozen function stays frozen, and its entries stay as they are unless the compiler takes a call
signature that is added by hand. Each of these is stored behind the others, and compiled once. -/
theorem Reachable.after_frozen {f : DynamicFunction} (h : Reachable f)
    (hfrozen : f.lifecycle.isFrozen = true) (uses : List Use) :
    (f.after uses).lifecycle.isFrozen = true ∧
    f.registry.entries <+: (f.after uses).registry.entries ∧
    (f.after uses).registry.entries.length = f.registry.entries.length + f.compilations uses ∧
    (∀ call, call ∈ (f.after uses).registry.signatures ↔ call ∈ f.registry.signatures ∨
      (∃ use ∈ uses, use.operation = .add call) ∧ Compiler.Takes f.registry.recipe call) ∧
    ((f.compilations uses = 0 ∧ (f.after uses).registry.entries = f.registry.entries) ↔
      ∀ use ∈ uses, ∀ call, use.operation = .add call →
        call ∈ f.registry.signatures ∨ ¬ Compiler.Takes f.registry.recipe call) := by
  induction uses generalizing f with
  | nil =>
    refine ⟨hfrozen, List.prefix_refl _, rfl, fun call => ?_, ?_⟩
    · simp [DynamicFunction.after]
    · simp [DynamicFunction.after, DynamicFunction.compilations]
  | cons use uses ih =>
    have hstep := h.sound.frozenUse hfrozen use
    have hreachable : Reachable (use.outcome f).function :=
      h.step use.operation use.engine use.memory
    rw [DynamicFunction.after, DynamicFunction.compilations]
    generalize use.outcome f = s at hstep hreachable ⊢
    -- What is stored in the end follows from what is stored now, however this use went.
    have hsignatures (call : CallSignature)
        (hrest : call ∈ (s.function.after uses).registry.signatures ↔
          call ∈ s.function.registry.signatures ∨ (∃ use ∈ uses, use.operation = .add call) ∧
            Compiler.Takes s.function.registry.recipe call) :
        call ∈ (s.function.after uses).registry.signatures ↔ call ∈ f.registry.signatures ∨
          (∃ use' ∈ use :: uses, use'.operation = .add call) ∧
            Compiler.Takes f.registry.recipe call := by
      rw [hrest, hstep.mem_signatures, hstep.recipe, List.exists_mem_cons_iff, or_and_right,
        or_assoc]
    cases hstep with
    | idle frozen registry compilations adds =>
      obtain ⟨hafter, hprefix, hlength, hstored, hiff⟩ := ih hreachable frozen
      refine ⟨hafter, ?_, ?_, fun call => hsignatures call (hstored call), ?_⟩
      · rwa [registry] at hprefix
      · rw [hlength, registry, compilations, Nat.sub_self, Nat.zero_add]
      · rw [registry] at hiff
        rw [compilations, Nat.sub_self, Nat.zero_add, hiff, List.forall_mem_cons]
        exact ⟨fun hrest => ⟨adds, hrest⟩, And.right⟩
    | @added entry frozen operation absent takes registry compilations =>
      obtain ⟨hafter, hprefix, hlength, hstored, -⟩ := ih hreachable frozen
      have hentries : s.function.registry.entries = f.registry.entries ++ [entry] := by
        rw [registry]
        rfl
      rw [hentries] at hprefix hlength
      rw [List.length_append, List.length_singleton] at hlength
      refine ⟨hafter, (List.prefix_append _ _).trans hprefix, by omega,
        fun call => hsignatures call (hstored call), ?_⟩
      constructor
      · rintro ⟨hnone, -⟩
        omega
      · intro hadds
        exact ((hadds use List.mem_cons_self _ operation).elim absent (· takes)).elim

/-- A function for `(n)->(n)` that was frozen with one entry, for 64-bit floats. -/
def frozenCopy : DynamicFunction :=
  (DynamicFunction.new ⟨"copy", 1⟩ ⟨⟨"copy", none, Loop.copyFirst, 0⟩, ⟨[["n"]], ["n"]⟩, .default⟩
    "(n)->(n)" .none false [] .dynamic).after
    [⟨.add (Registry.floatRows .any), .fresh, .empty⟩, ⟨.buildTable, .fresh, .empty⟩,
      ⟨.disableCompile, .fresh, .empty⟩]

theorem reachable_frozenCopy : Reachable frozenCopy := (Reachable.new ..).after _

/-- Adding what is stored, or what the compiler does not take, compiles nothing, and neither does typing a
call with other element types. -/
theorem Reachable.after_frozen_idle :
    frozenCopy.lifecycle.isFrozen = true ∧
    frozenCopy.compilations [⟨.add (Registry.floatRows .any), .fresh, .empty⟩,
      ⟨.typeCall [.anyArray .float32 1] [], .fresh, .empty⟩, ⟨.disableCompile, .fresh, .empty⟩,
      ⟨.add ⟨[], .none⟩, .fresh, .empty⟩] = 0 := by
  have hfrozen : frozenCopy.lifecycle.isFrozen = true := by decide +kernel
  obtain ⟨-, -, -, -, hiff⟩ := Reachable.after_frozen reachable_frozenCopy hfrozen _
  refine ⟨hfrozen, (hiff.2 ?_).1⟩
  intro use huse call hadd
  simp only [List.mem_cons, List.not_mem_nil, or_false] at huse
  obtain rfl | rfl | rfl | rfl := huse
  · cases hadd
    exact .inl (by decide +kernel)
  · cases hadd
  · cases hadd
  · cases hadd
    exact .inr fun htakes => nomatch htakes.checked.count

/-- A signature for other element types. -/
def narrowRows : CallSignature := .void [.anyArray .float32 1, .anyArray .float32 1]

/-- Freezing does not keep a new call signature from being compiled and stored. -/
theorem add_frozenCopy :
    frozenCopy.lifecycle.isFrozen = true ∧
    frozenCopy.registry.signatures = [Registry.floatRows .any] ∧
    frozenCopy.compilations [⟨.add narrowRows, .fresh, .empty⟩] = 1 ∧
    (frozenCopy.after [⟨.add narrowRows, .fresh, .empty⟩]).registry.signatures =
      [Registry.floatRows .any, narrowRows] := by
  decide +kernel

end Corewise
