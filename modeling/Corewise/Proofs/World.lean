import Corewise.Proofs.World.Moves
/-!
Worlds after any requests. Each function in them has a key of its own and can be made again from its
snapshot: its text still parses to what it was made from, and the kernel of its name is still the one that
was registered with it.
-/

namespace Corewise

namespace World

/-- A world after any requests. -/
inductive Reachable : World → Prop
  | empty : Reachable .empty
  | newEngine {w : World} (h : Reachable w) : Reachable w.newEngine.2
  /-- Something else makes use of a compiler. -/
  | setEngine {w : World} (h : Reachable w) (r : EngineRef) (e : Engine) : Reachable (w.setEngine r e)
  | remember {w : World} (h : Reachable w) (m : Memory) : Reachable { w with memory := m }
  /-- Something else makes use of the contexts. -/
  | hook {w : World} (h : Reachable w) (typing : TypingContext FunctionKey)
      (target : TargetContext FunctionKey) : Reachable { w with typing, target }
  | register {w : World} (h : Reachable w) {kernel : Kernel} {library : KernelLibrary}
      (registered : w.library.register kernel = .ok library) : Reachable { w with library }
  | build {w w' : World} (h : Reachable w) {blueprint : Blueprint} {engine : EngineRef}
      {key : FunctionKey} (powered : engine < w.engines.length)
      (built : w.build blueprint engine = .ok (key, w')) : Reachable w'
  | clone {w : World} (h : Reachable w) (key : FunctionKey) : Reachable (w.clone key)
  | drop {w : World} (h : Reachable w) (key : FunctionKey) : Reachable (w.drop key)
  | step {w : World} (h : Reachable w) (key : FunctionKey) (operation : Operation) :
      Reachable (w.step key operation.step).2
  | resolveType {w : World} (h : Reachable w) (key : FunctionKey) (types : List OperandType)
      (keywords : List (String × OperandType)) : Reachable (w.resolveType key types keywords).2
  | lowerCall {w : World} (h : Reachable w) (key : FunctionKey) (args : List Value) :
      Reachable (w.lowerCall key args).2
  | rebuild {w : World} (h : Reachable w) (snapshot : Snapshot) (library : KernelLibrary)
      {engine : EngineRef} (powered : engine < w.engines.length) :
      Reachable (w.rebuild snapshot library engine).2

variable {w : World} {key : FunctionKey} {live : LiveFunction}

theorem Reachable.sound (h : w.Reachable) : w.Sound := by
  induction h with
  | empty => exact sound_empty
  | newEngine _ ih => exact ih.aside (aside_newEngine _)
  | setEngine _ r e ih => exact ih.aside (aside_setEngine _ r e)
  | remember _ m ih => exact ih.aside (aside_remember _ m)
  | hook _ typing target ih => exact ih.frame rfl (Nat.le_refl _) (Nat.le_refl _) (.refl _)
  | register _ registered ih =>
    exact ih.frame rfl (Nat.le_refl _) (Nat.le_refl _) (KernelLibrary.register_eq_ok registered).1
  | build _ powered built ih => exact ih.build powered built
  | clone _ key ih => exact ih.moves (.clone ih key)
  | drop _ key ih => exact ih.moves (.drop ih key)
  | step _ key operation ih => exact ih.moves (.step ih operation.step_coheres key)
  | resolveType _ key types keywords ih => exact ih.moves (.resolveType ih key types keywords)
  | lowerCall _ key args ih => exact ih.moves (.lowerCall ih key args)
  | rebuild _ snapshot library powered ih => exact ih.rebuild snapshot library powered

theorem engine_setEngine_self {r : EngineRef} (hr : r < w.engines.length) (e : Engine) :
    (w.setEngine r e).engine r = e := by
  rw [engine, setEngine, List.getD_eq_getElem?_getD, List.getElem?_set_self hr]
  rfl

theorem engine_setEngine_of_ne {r r' : EngineRef} (hne : r ≠ r') (e : Engine) :
    (w.setEngine r e).engine r' = w.engine r' := by
  rw [engine, setEngine, List.getD_eq_getElem?_getD, List.getElem?_set_ne hne,
    ← List.getD_eq_getElem?_getD]
  rfl

theorem engine_newEngine : w.newEngine.2.engine w.newEngine.1 = .fresh := by
  show (w.engines ++ [Engine.fresh]).getD w.engines.length .fresh = .fresh
  rw [List.getD_eq_getElem?_getD, List.getElem?_concat_length]
  rfl

theorem engine_newEngine_of_lt {r : EngineRef} (hr : r < w.engines.length) :
    w.newEngine.2.engine r = w.engine r := by
  show (w.engines ++ [Engine.fresh]).getD r .fresh = w.engines.getD r .fresh
  rw [List.getD_eq_getElem?_getD, List.getElem?_append_left hr, ← List.getD_eq_getElem?_getD]

/-- A step changes its function and the compiler of that, and no other. -/
theorem Sound.step_run {α : Type} {body : Step α} (h : w.Sound) (hlive : live ∈ w.functions)
    {result : Except Error α} {s : Machine}
    (hrun : body.run ⟨live.function, w.engine live.engine, w.memory⟩ = (result, s)) :
    ∃ w', w.step live.function.key body = (result, w') ∧
      { live with function := s.function } ∈ w'.functions ∧ w'.engine live.engine = s.engine ∧
      (∀ other ∈ w.functions, other.function.key ≠ live.function.key → other ∈ w'.functions) ∧
      ∀ r, live.engine ≠ r → w'.engine r = w.engine r := by
  rw [step_of_find? (h.find?_of_mem hlive), hrun]
  refine ⟨_, rfl, ?stepped, ?counted, ?others, ?compilers⟩
  case stepped => exact List.mem_map.2 ⟨live, hlive, if_pos rfl⟩
  case counted =>
    exact engine_setEngine_self (w := w.replace live.function.key { live with function := s.function })
      (h.powered live hlive) s.engine
  case others => exact fun other hother hne => List.mem_map.2 ⟨other, hother, if_neg hne⟩
  case compilers =>
    intro r hne
    exact engine_setEngine_of_ne (w := w.replace live.function.key { live with function := s.function })
      hne s.engine

/-- Beside a registered function one more can be made of its blueprint. -/
theorem build_blueprint {f : DynamicFunction} (h : f.Registered w.library) {kernel : Kernel}
    (hclone : kernel.Clones f.registry.recipe.kernel) (engine : EngineRef) :
    ∃ w', w.build (f.snapshot.blueprint kernel) engine = .ok (⟨kernel.name, w.nextSerial⟩, w') ∧
      w'.engines = w.engines ∧ w'.functions =
        w.functions ++ [⟨f.emptied ⟨kernel.name, w.nextSerial⟩ kernel.doc, engine, 1⟩] := by
  obtain ⟨existing, hexisting, hsame⟩ := h.kernel
  have hname : kernel.name = f.name := hclone.name_eq.trans h.named.symm
  have hregistered : w.library.register kernel = .ok w.library :=
    KernelLibrary.register_of_sameBody (hname ▸ hexisting) (hclone.sameBody_eq existing ▸ hsame)
  have hbuilt : w.build (f.snapshot.blueprint kernel) engine = .ok (⟨kernel.name, w.nextSerial⟩, _) :=
    build_of_registered h.parsed hregistered
  exact ⟨_, hbuilt, rfl, congrArg (w.functions ++ [⟨·, engine, 1⟩]) (f.blueprint_function hclone _)⟩

/-- Making a function again gives a world with both. -/
theorem Sound.rebuild_run (h : w.Sound) (hlive : live ∈ w.functions) {library : KernelLibrary}
    {kernel : Kernel} (hkernel : library.find? live.function.name = some kernel)
    (hclone : kernel.Clones live.function.registry.recipe.kernel) :
    ∃ key w' g, w.newEngine.2.rebuild live.function.snapshot library w.newEngine.1 = (.ok key, w') ∧
      g.key = key ∧ live.function.Restores g ∧ ⟨g, w.newEngine.1, 1⟩ ∈ w'.functions ∧
      w'.engine w.newEngine.1 = ⟨live.function.registry.entries.length, 0⟩ ∧
      live ∈ w'.functions ∧ w'.engine live.engine = w.engine live.engine := by
  have hregistered := h.registered live hlive
  have hpowered := h.powered live hlive
  have hname : kernel.name = live.function.name := hclone.name_eq.trans hregistered.named.symm
  obtain ⟨w', hbuilt, hengines, hfunctions⟩ :=
    build_blueprint (w := w.newEngine.2) hregistered hclone w.newEngine.1
  have hsound : w'.Sound := (h.aside w.aside_newEngine).build w.newEngine_lt hbuilt
  have hkept : live ∈ w'.functions := hfunctions ▸ List.mem_append_left _ hlive
  have hstart : ⟨live.function.emptied ⟨kernel.name, w.nextSerial⟩ kernel.doc, w.newEngine.1, 1⟩ ∈
      w'.functions :=
    hfunctions ▸ List.mem_append_right _ (List.mem_singleton_self _)
  -- The serial number is new, so the step leaves the old function alone.
  have hne : live.function.key ≠ ⟨kernel.name, w.nextSerial⟩ := h.key_ne_next hlive kernel.name
  have hfresh : w'.engine w.newEngine.1 = .fresh := by
    rw [engine, hengines]
    exact engine_newEngine
  have hengine : w'.engine live.engine = w.engine live.engine := by
    rw [engine, hengines]
    exact engine_newEngine_of_lt hpowered
  obtain ⟨g, hrun, hkey, hrestores⟩ := hregistered.coherent.restores
    ⟨kernel.name, w.nextSerial⟩ hname kernel.doc w'.memory
  rw [← hfresh] at hrun
  obtain ⟨w'', hstep, hmade, hcounted, hothers, hcompilers⟩ := hsound.step_run hstart hrun
  exact ⟨_, w'', g, rebuild_of_ok hkernel hbuilt hstep, hkey, hrestores, hmade, hcounted,
    hothers live hkept hne, (hcompilers _ hpowered.ne').trans hengine⟩

/-- A function is made again from its snapshot wherever its kernel is at hand. The new function has the same
snapshot, and its compiler has made the entries in their order and nothing else. Where the compiler of the
old one is its own, and the table has all entries, no run of operations tells the two apart, whatever
schedules their iterations have. -/
theorem Reachable.rebuild_snapshot (h : w.Reachable) (hlive : live ∈ w.functions)
    {library : KernelLibrary} {kernel : Kernel}
    (hkernel : library.find? live.function.name = some kernel)
    (hclone : kernel.Clones live.function.registry.recipe.kernel) :
    ∃ key w' made, w.newEngine.2.rebuild live.function.snapshot library w.newEngine.1 = (.ok key, w') ∧
      w'.find? key = some made ∧
      made.function.snapshot = live.function.snapshot ∧
      w'.engine made.engine = ⟨live.function.registry.entries.length, 0⟩ ∧
      made.function.registry.Numbered ∧
      w'.find? live.function.key = some live ∧
      w'.engine live.engine = w.engine live.engine ∧
      (Owned live.function (w.engine live.engine) →
        live.function.table.loops = live.function.registry.entries →
        ∀ run, made.function.observations (w'.engine made.engine) run =
          live.function.observations (w'.engine live.engine) run) := by
  obtain ⟨key, w', g, hrebuilt, rfl, hrestores, hmade, hcounted, hkept, hengine⟩ :=
    h.sound.rebuild_run hlive hkernel hclone
  have hsound : w'.Sound := by
    have hrebuild := h.newEngine.sound.rebuild live.function.snapshot library w.newEngine_lt
    rwa [hrebuilt] at hrebuild
  refine ⟨_, w', _, hrebuilt, hsound.find?_of_mem hmade, hrestores.snapshot, hcounted,
    hrestores.numbered, hsound.find?_of_mem hkept, hengine, ?_⟩
  intro howned hlisted run
  have halike := hrestores.alike (h.sound.registered live hlive).coherent howned.numbered hlisted
  apply halike.observations_eq
  rw [hcounted, hengine, howned.compilations_eq]

/-- A function for `(n)->(n)` with its compiler, frozen with one entry. -/
def copyMachine : Machine :=
  [Operation.add (Registry.floatRows .any), .buildTable, .disableCompile].foldl
    (fun s operation => (operation.step.run ⟨s.function, s.engine, .empty⟩).2)
    ⟨.new ⟨"copy", 1⟩ ⟨⟨"copy", none, Loop.copyFirst, 0⟩, ⟨[["n"]], ["n"]⟩, .default⟩ "(n)->(n)" .none
      false [] .dynamic, .fresh, .empty⟩

theorem owned_copyMachine : Owned copyMachine.function copyMachine.engine :=
  .step (.step (.step (.new ..) _ _) _ _) _ _

/-- The world in which it is made. -/
def startWorld : World :=
  { empty.newEngine.2 with
    library := ⟨[⟨"copy", none, Loop.copyFirst, 0⟩]⟩
    functions := [⟨.new ⟨"copy", 1⟩ ⟨⟨"copy", none, Loop.copyFirst, 0⟩, ⟨[["n"]], ["n"]⟩, .default⟩
      "(n)->(n)" .none false [] .dynamic, 0, 1⟩]
    nextSerial := 2 }.installHooks ⟨"copy", 1⟩ 1

theorem build_startWorld : empty.newEngine.2.build ⟨⟨"copy", none, Loop.copyFirst, 0⟩, "(n)->(n)",
    .dynamic, .none, false, .default, []⟩ 0 = .ok (⟨"copy", 1⟩, startWorld) := by
  rfl

def copyWorld : World :=
  [Operation.add (Registry.floatRows .any), .buildTable, .disableCompile].foldl
    (fun w operation => (w.step ⟨"copy", 1⟩ operation.step).2) startWorld

theorem reachable_copyWorld : copyWorld.Reachable :=
  .step (.step (.step (.build (.newEngine .empty) Nat.one_pos build_startWorld) _ _) _ _) _ _

theorem copyWorld_functions : copyWorld.functions = [⟨copyMachine.function, 0, 1⟩] := rfl

/-- The library at hand may describe the kernel in other words. -/
theorem Reachable.rebuild_snapshot_copyWorld : ∃ key w' made,
    copyWorld.newEngine.2.rebuild copyMachine.function.snapshot
      ⟨[⟨"copy", some "copies its input", Loop.copyFirst, 0⟩]⟩ copyWorld.newEngine.1 = (.ok key, w') ∧
    w'.find? key = some made ∧ w'.engine made.engine = ⟨1, 0⟩ ∧
    ∀ run, made.function.observations (w'.engine made.engine) run =
      copyMachine.function.observations copyMachine.engine run := by
  have hlive : ⟨copyMachine.function, 0, 1⟩ ∈ copyWorld.functions := by
    rw [copyWorld_functions]
    exact List.mem_singleton_self _
  have hengine : copyWorld.engine 0 = copyMachine.engine := rfl
  obtain ⟨key, w', made, hrebuilt, hmade, -, hcounted, -, -, hkept, hsame⟩ :=
    Reachable.rebuild_snapshot reachable_copyWorld hlive
      (show (⟨[⟨"copy", some "copies its input", Loop.copyFirst, 0⟩]⟩ : KernelLibrary).find? _ = some _
        from rfl) rfl
  refine ⟨key, w', made, hrebuilt, hmade, hcounted, fun run => ?_⟩
  rw [← hengine, ← hkept]
  exact hsame (hengine ▸ owned_copyMachine) rfl run

end World

end Corewise
