import Corewise.Proofs.World
/-!
Requests to a world and runs of them, whether they come off or not. A request comes to a few kinds of
changes, so what every change keeps holds after any run.
-/

namespace Corewise

namespace World

variable {w w' : World} {b : Blueprint} {engine : EngineRef} {key : FunctionKey}

def register (w : World) (kernel : Kernel) : Except Error Unit × World :=
  match w.library.register kernel with
  | .error e => (.error e, w)
  | .ok library => (.ok (), { w with library })

theorem register_of_ok {kernel : Kernel} {library : KernelLibrary}
    (h : w.library.register kernel = .ok library) :
    w.register kernel = (.ok (), { w with library }) := by
  rw [register, h]

theorem register_of_error {kernel : Kernel} {e : Error}
    (h : w.library.register kernel = .error e) : w.register kernel = (.error e, w) := by
  rw [register, h]

/-- Changes one after the other. What was changed before a failure stays changed. -/
abbrev Change (α : Type) := ExceptT Error (StateM World) α

namespace Change

def register (kernel : Kernel) : Change Unit := ExceptT.mk fun w => w.register kernel

/-- Makes a function, one table of the world after the other. -/
def build (b : Blueprint) (engine : EngineRef) : Change FunctionKey :=
  match CoreSignature.parse b.signature with
  | .error e => throw (.signature e)
  | .ok signature => do
    register b.kernel
    let key ← modifyGet fun w => w.newKey b.kernel.name
    modify fun w => { w with functions := w.functions ++ [⟨b.function signature key, engine, 1⟩] }
    modify fun w => { w with typing := w.typing.insert key key }
    (Lowering.CallShape.forms signature.arity).forM fun shape =>
      modify fun w => { w with target := w.target.insert key shape key }
    return key

/-- Nothing is changed before the last thing that may fail. -/
theorem build_run (w : World) (b : Blueprint) (engine : EngineRef) : (build b engine).run w =
    match w.build b engine with
    | .error e => (.error e, w)
    | .ok (key, w') => (.ok key, w') := by
  unfold build
  rcases hparsed : CoreSignature.parse b.signature with e | signature
  case error =>
    rw [build_of_signature hparsed]
    rfl
  case ok =>
    dsimp only
    have hrun : (register b.kernel).run w = w.register b.kernel := rfl
    rcases hregistered : w.library.register b.kernel with e | library
    case error =>
      rw [register_of_error hregistered] at hrun
      rw [build_of_conflict hparsed hregistered, Effect.run_bind_of_error hrun]
    case ok =>
      rw [register_of_ok hregistered] at hrun
      rw [build_of_registered hparsed hregistered, Effect.run_bind_of_ok hrun]
      rfl

end Change

/-- What is asked of a world. -/
inductive Request where
  | newEngine
  /-- Something else makes use of a compiler. -/
  | setEngine (r : EngineRef) (e : Engine)
  | remember (memory : Memory)
  /-- Something else takes a serial number. -/
  | newKey (name : String)
  | register (kernel : Kernel)
  | build (b : Blueprint) (r : EngineRef)
  /-- Takes the kernel from the library of the world, unless another one is at hand. -/
  | rebuild (snapshot : Snapshot) (library : Option KernelLibrary) (r : EngineRef)
  | clone (key : FunctionKey)
  | drop (key : FunctionKey)
  | operate (key : FunctionKey) (operation : Operation)
  | resolveType (key : FunctionKey) (types : List OperandType)
      (keywords : List (String × OperandType))
  | lowerCall (key : FunctionKey) (args : List Value)

/-- The compiler of this number, or a new one where there is none. -/
def provide (w : World) (r : EngineRef) : EngineRef × World :=
  if r < w.engines.length then (r, w) else w.newEngine

/-- Does what is asked. The result is the key of the function that has been made, if one has. -/
def serve (w : World) : Request → Except Error (Option FunctionKey) × World
  | .newEngine => (.ok none, w.newEngine.2)
  | .setEngine r e => (.ok none, w.setEngine r e)
  | .remember memory => (.ok none, { w with memory })
  | .newKey name => (.ok none, (w.newKey name).2)
  | .register kernel => (w.register kernel).map (·.map fun _ => none) id
  | .build b r => ((Change.build b (w.provide r).1).run (w.provide r).2).map (·.map some) id
  | .rebuild snapshot library r =>
    ((w.provide r).2.rebuild snapshot (library.getD w.library) (w.provide r).1).map (·.map some) id
  | .clone key => (.ok none, w.clone key)
  | .drop key => (.ok none, w.drop key)
  | .operate key operation => (w.step key operation.step).map (·.map fun _ => none) id
  | .resolveType key types keywords =>
    (w.resolveType key types keywords).map (·.map fun _ => none) id
  | .lowerCall key args => (w.lowerCall key args).map (·.map fun _ => none) id

theorem serve_build_of_ok {r : EngineRef}
    (h : (w.provide r).2.build b (w.provide r).1 = .ok (key, w')) :
    w.serve (.build b r) = (.ok (some key), w') := by
  have hserve : w.serve (.build b r) =
      ((Change.build b (w.provide r).1).run (w.provide r).2).map (·.map some) id := rfl
  rwa [Change.build_run, h] at hserve

theorem serve_build_of_error {r : EngineRef} {e : Error}
    (h : (w.provide r).2.build b (w.provide r).1 = .error e) :
    w.serve (.build b r) = (.error e, (w.provide r).2) := by
  have hserve : w.serve (.build b r) =
      ((Change.build b (w.provide r).1).run (w.provide r).2).map (·.map some) id := rfl
  rwa [Change.build_run, h] at hserve

def after (w : World) (requests : List Request) : World :=
  requests.foldl (fun w r => (w.serve r).2) w

/-- Kernels that come with a request. -/
def Request.kernels : Request → List Kernel
  | .register kernel => [kernel]
  | .build b _ => [b.kernel]
  | .rebuild _ (some library) _ => library.kernels
  | _ => []

theorem aside_provide (w : World) (r : EngineRef) : w.Aside (w.provide r).2 := by
  unfold provide
  split
  · exact .refl w
  · exact w.aside_newEngine

theorem Sound.provide (h : w.Sound) (r : EngineRef) : (w.provide r).2.Sound :=
  h.aside (w.aside_provide r)

theorem provide_lt (w : World) (r : EngineRef) :
    (w.provide r).1 < (w.provide r).2.engines.length := by
  unfold provide
  split
  case isTrue hlt => exact hlt
  case isFalse => exact w.newEngine_lt

variable {K : Kernel → Prop}

theorem Moves.changeRegister {kernel : Kernel} (given : K kernel) (w : World) :
    Moves K w (w.register kernel).2 := by
  rcases hregistered : w.library.register kernel with e | library
  case error =>
    rw [register_of_error hregistered]
    exact .refl w
  case ok =>
    rw [register_of_ok hregistered]
    exact .register given hregistered

theorem Moves.changeBuild (given : K b.kernel) (powered : engine < w.engines.length) :
    Moves K w ((Change.build b engine).run w).2 := by
  rw [Change.build_run]
  rcases hbuilt : w.build b engine with e | ⟨key, w'⟩
  case error => exact .refl w
  case ok => exact .build given powered hbuilt

/-- What every kernel of a world satisfies. -/
structure Stocks (K : Kernel → Prop) (w : World) : Prop where
  library : ∀ kernel ∈ w.library.kernels, K kernel
  functions : ∀ live ∈ w.functions, K live.function.registry.recipe.kernel

theorem stocks_empty (K : Kernel → Prop) : Stocks K .empty :=
  ⟨fun _ h => absurd h List.not_mem_nil, fun _ h => absurd h List.not_mem_nil⟩

theorem Moves.stocks (h : Moves K w w') (hw : Stocks K w) : Stocks K w' := by
  induction h with
  | aside h => exact ⟨h.library ▸ hw.library, h.functions ▸ hw.functions⟩
  | register given registered =>
    refine ⟨fun k hk => ?_, hw.functions⟩
    rcases KernelLibrary.mem_of_register registered hk with hk | rfl
    · exact hw.library k hk
    · exact given
  | build given _ built =>
    obtain ⟨signature, library, -, hlibrary, rfl, rfl⟩ := build_eq_added built
    constructor
    case library =>
      intro k hk
      rcases KernelLibrary.mem_of_register hlibrary hk with hk | rfl
      · exact hw.library k hk
      · exact given
    case functions =>
      rw [functions_added, List.forall_mem_append, List.forall_mem_singleton]
      exact ⟨hw.functions, given⟩
  | become found _ _ _ descends =>
    refine ⟨hw.library, fun live hlive => ?_⟩
    rcases mem_replace hlive with rfl | hlive
    · rw [descends.registry.recipe]
      exact hw.functions _ (mem_of_find? found).1
    · exact hw.functions live hlive
  | forget key => exact ⟨hw.library, fun live hlive => hw.functions live (List.mem_of_mem_filter hlive)⟩
  | trans _ _ ih ih' => exact ih' (ih hw)

theorem serve_moves (hw : w.Sound) (hlibrary : ∀ kernel ∈ w.library.kernels, K kernel)
    {r : Request} (given : ∀ kernel ∈ r.kernels, K kernel) : Moves K w (w.serve r).2 := by
  cases r with
  | newEngine => exact .aside w.aside_newEngine
  | setEngine r e => exact .aside (w.aside_setEngine r e)
  | remember memory => exact .aside (w.aside_remember memory)
  | newKey name => exact .aside ⟨rfl, rfl, rfl, rfl, Nat.le_refl _, Nat.le_succ _⟩
  | register kernel => exact .changeRegister (given kernel (List.mem_singleton_self _)) w
  | build b r =>
    have hprovided : Moves K w (w.provide r).2 := .aside (w.aside_provide r)
    exact hprovided.trans
      (.changeBuild (given b.kernel (List.mem_singleton_self _)) (w.provide_lt r))
  | rebuild snapshot library r =>
    have hprovided : Moves K w (w.provide r).2 := .aside (w.aside_provide r)
    apply hprovided.trans
    apply Moves.rebuild (hprovided.sound hw) snapshot _ (w.provide_lt r)
    cases library with
    | none => exact hlibrary
    | some library => exact given
  | clone key => exact .clone hw key
  | drop key => exact .drop hw key
  | operate key operation => exact .step hw operation.step_coheres key
  | resolveType key types keywords => exact .resolveType hw key types keywords
  | lowerCall key args => exact .lowerCall hw key args

theorem Sound.serve (h : w.Sound) (r : Request) : Moves (fun _ => True) w (w.serve r).2 :=
  serve_moves h (fun _ _ => trivial) fun _ _ => trivial

theorem after_moves {requests : List Request} (hw : w.Sound) (hstocks : Stocks K w)
    (given : ∀ r ∈ requests, ∀ kernel ∈ r.kernels, K kernel) : Moves K w (w.after requests) := by
  induction requests generalizing w with
  | nil => exact .refl w
  | cons r requests ih =>
    obtain ⟨hr, hrequests⟩ := List.forall_mem_cons.1 given
    have hserved := serve_moves hw hstocks.library hr
    exact hserved.trans (ih (hserved.sound hw) (hserved.stocks hstocks) hrequests)

theorem stocks_after {requests : List Request}
    (given : ∀ r ∈ requests, ∀ kernel ∈ r.kernels, K kernel) : Stocks K (empty.after requests) :=
  (after_moves sound_empty (stocks_empty K) given).stocks (stocks_empty K)

theorem sound_after (requests : List Request) : (empty.after requests).Sound :=
  (after_moves (K := fun _ => True) sound_empty (stocks_empty _) fun _ _ _ _ => trivial).sound
    sound_empty

theorem after_append (w : World) (before later : List Request) :
    w.after (before ++ later) = (w.after before).after later := List.foldl_append

/-- A run that leads to `copyWorld`. -/
def copyRun : List Request :=
  [.newEngine,
    .build ⟨⟨"copy", none, Loop.copyFirst, 0⟩, "(n)->(n)", .dynamic, .none, false, .default, []⟩ 0,
    .operate ⟨"copy", 1⟩ (.add (Registry.floatRows .any)), .operate ⟨"copy", 1⟩ .buildTable,
    .operate ⟨"copy", 1⟩ .disableCompile]

theorem after_copyRun : empty.after copyRun = copyWorld := by
  have hstart : (empty.newEngine.2.serve (.build ⟨⟨"copy", none, Loop.copyFirst, 0⟩, "(n)->(n)", .dynamic,
      .none, false, .default, []⟩ 0)).2 = startWorld := by
    have hprovided : empty.newEngine.2.provide 0 = (0, empty.newEngine.2) := rfl
    simp only [serve, hprovided, Change.build_run, build_startWorld]
    rfl
  rw [copyRun, after, List.foldl_cons, List.foldl_cons]
  show List.foldl _ (empty.newEngine.2.serve _).2 _ = _
  rw [hstart]
  rfl

end World

end Corewise
