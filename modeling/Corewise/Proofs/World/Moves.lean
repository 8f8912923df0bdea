import Corewise.Proofs.DynamicFunction.Restored
/-!
What a world goes through. A request comes to changes of a few kinds, so what each of them keeps is kept by
all requests: that each function has a key of its own and can be made again from its snapshot.
-/

namespace Corewise

namespace Kernel

/-- The kernels differ in their descriptions at most. -/
def Clones (a b : Kernel) : Prop := a = { b with doc := a.doc }

theorem sameBody_self (k : Kernel) : k.sameBody k = true := by
  rw [sameBody, beq_self_eq_true, beq_self_eq_true]
  rfl

theorem Clones.sameBody_eq {a b : Kernel} (h : a.Clones b) (k : Kernel) :
    k.sameBody a = k.sameBody b := by
  rw [h]
  rfl

theorem Clones.name_eq {a b : Kernel} (h : a.Clones b) : a.name = b.name := by
  rw [h]

end Kernel

namespace KernelLibrary

variable {l l' : KernelLibrary} {kernel : Kernel}

/-- The library `l'` has what `l` has. -/
def Extends (l l' : KernelLibrary) : Prop :=
  ∀ name kernel, l.find? name = some kernel → l'.find? name = some kernel

theorem Extends.refl (l : KernelLibrary) : l.Extends l := fun _ _ h => h

theorem register_eq_ok (h : l.register kernel = .ok l') :
    l.Extends l' ∧ ∃ k, l'.find? kernel.name = some k ∧ k.sameBody kernel = true := by
  unfold register at h
  split at h
  case h_1 hnone =>
    cases h
    have hfind (name : String) : (⟨l.kernels ++ [kernel]⟩ : KernelLibrary).find? name =
        (l.find? name).or ([kernel].find? (·.name == name)) := List.find?_append
    constructor
    · intro name k hk
      rw [hfind, hk, Option.some_or]
    · refine ⟨kernel, ?_, kernel.sameBody_self⟩
      rw [hfind, hnone, Option.none_or]
      exact List.find?_cons_of_pos (beq_self_eq_true _)
  case h_2 k hk =>
    split at h
    case isTrue hsame =>
      cases h
      exact ⟨.refl l, k, hk, hsame⟩
    case isFalse => cases h

theorem register_of_sameBody {k : Kernel} (hk : l.find? kernel.name = some k)
    (hsame : k.sameBody kernel = true) : l.register kernel = .ok l := by
  rw [register, hk]
  exact if_pos hsame

theorem Extends.trans {l'' : KernelLibrary} (h : l.Extends l') (h' : l'.Extends l'') : l.Extends l'' :=
  fun name kernel hfound => h' name kernel (h name kernel hfound)

theorem name_of_find? {name : String} (h : l.find? name = some kernel) : kernel.name = name := by
  have hname := List.find?_some h
  exact beq_iff_eq.1 hname

theorem mem_of_register {k : Kernel} (h : l.register kernel = .ok l')
    (hk : k ∈ l'.kernels) : k ∈ l.kernels ∨ k = kernel := by
  unfold register at h
  split at h
  case h_1 =>
    cases h
    rw [List.mem_append, List.mem_singleton] at hk
    exact hk
  case h_2 =>
    split at h
    · cases h
      exact .inl hk
    · cases h

end KernelLibrary

namespace DynamicFunction

/-- What a function needs for being made again. -/
structure Registered (library : KernelLibrary) (f : DynamicFunction) : Prop where
  coherent : f.Coherent
  parsed : CoreSignature.parse f.signatureText = .ok f.registry.recipe.signature
  named : f.name = f.registry.recipe.kernel.name
  kernel : ∃ k, library.find? f.name = some k ∧ k.sameBody f.registry.recipe.kernel = true

variable {f g : DynamicFunction} {library library' : KernelLibrary}

theorem Registered.of_extends (h : f.Registered library) (hlibrary : library.Extends library') :
    f.Registered library' := by
  obtain ⟨k, hk, hsame⟩ := h.kernel
  exact ⟨h.coherent, h.parsed, h.named, k, hlibrary _ k hk, hsame⟩

theorem Registered.of_descends (h : f.Registered library) (hg : g.Coherent) (hdescends : f.Descends g) :
    g.Registered library := by
  have hname : g.name = f.name := congrArg FunctionKey.name hdescends.key
  refine ⟨hg, ?_, ?_, ?_⟩
  · rw [hdescends.signatureText, hdescends.registry.recipe]
    exact h.parsed
  · rw [hname, hdescends.registry.recipe]
    exact h.named
  · rw [hname, hdescends.registry.recipe]
    exact h.kernel

end DynamicFunction

def Blueprint.function (b : Blueprint) (signature : CoreSignature) (key : FunctionKey) :
    DynamicFunction :=
  .new key ⟨b.kernel, signature, b.options⟩ b.signature b.identity b.cache b.writableArgs b.mode

/-- What the function of a snapshot is made from. -/
def Snapshot.blueprint (snapshot : Snapshot) (kernel : Kernel) : Blueprint :=
  ⟨kernel, snapshot.signature, if snapshot.isDynamic then .dynamic else .static, snapshot.identity,
    snapshot.cache, snapshot.options, snapshot.writableArgs⟩

theorem DynamicFunction.blueprint_mode (f : DynamicFunction) (kernel : Kernel) :
    (f.snapshot.blueprint kernel).mode = f.lifecycle.mode := by
  show (if decide (f.lifecycle.mode = .dynamic) = true then Dispatch.Mode.dynamic else .static) =
    f.lifecycle.mode
  cases f.lifecycle.mode <;> rfl

theorem DynamicFunction.blueprint_function (f : DynamicFunction) {kernel : Kernel}
    (hclone : kernel.Clones f.registry.recipe.kernel) (key : FunctionKey) :
    (f.snapshot.blueprint kernel).function f.registry.recipe.signature key =
      f.emptied key kernel.doc := by
  -- Description apart, what is compiled from is the same.
  have hrecipe : Recipe.mk kernel f.registry.recipe.signature f.registry.recipe.options =
      f.registry.recipe.describedBy kernel.doc := congrArg (Recipe.mk · _ _) hclone
  rw [emptied, ← hrecipe, ← f.blueprint_mode kernel]
  rfl

namespace World

/-- What changes keep. -/
structure Sound (w : World) : Prop where
  distinct : (w.functions.map (·.function.key)).Nodup
  numbered : ∀ live ∈ w.functions, live.function.key.serial < w.nextSerial
  powered : ∀ live ∈ w.functions, live.engine < w.engines.length
  registered : ∀ live ∈ w.functions, live.function.Registered w.library

variable {w w' : World} {key : FunctionKey} {live : LiveFunction} {b : Blueprint} {engine : EngineRef}

theorem sound_empty : Sound .empty where
  distinct := List.nodup_nil
  numbered _ h := absurd h List.not_mem_nil
  powered _ h := absurd h List.not_mem_nil
  registered _ h := absurd h List.not_mem_nil

theorem mem_of_find? (h : w.find? key = some live) :
    live ∈ w.functions ∧ live.function.key = key := by
  have hkey := List.find?_some h
  exact ⟨List.mem_of_find?_eq_some h, of_decide_eq_true hkey⟩

theorem Sound.find?_of_mem (h : w.Sound) (hlive : live ∈ w.functions) :
    w.find? live.function.key = some live := by
  obtain ⟨found, hfound⟩ : ∃ found, w.find? live.function.key = some found := by
    rw [← Option.isSome_iff_exists, find?, List.find?_isSome]
    exact ⟨live, hlive, decide_eq_true rfl⟩
  obtain ⟨hmem, hkey⟩ := mem_of_find? hfound
  rw [hfound, List.inj_on_of_nodup_map h.distinct hmem hlive hkey]

/-- The key of the next function is not in use. -/
theorem Sound.key_ne_next (h : w.Sound) (hlive : live ∈ w.functions) (name : String) :
    live.function.key ≠ ⟨name, w.nextSerial⟩ := by
  intro hkey
  have hlt := h.numbered live hlive
  rw [hkey] at hlt
  exact absurd hlt (Nat.lt_irrefl _)

theorem map_key_replace (hkey : live.function.key = key) :
    (w.replace key live).functions.map (·.function.key) = w.functions.map (·.function.key) := by
  rw [replace, List.map_map]
  apply List.map_congr_left
  intro l _
  show (if l.function.key = key then live else l).function.key = l.function.key
  split
  case isTrue hl => rw [hkey, hl]
  case isFalse => rfl

theorem mem_replace {l : LiveFunction} (h : l ∈ (w.replace key live).functions) :
    l = live ∨ l ∈ w.functions := by
  obtain ⟨l', hl', rfl⟩ := List.mem_map.1 h
  split
  · exact .inl rfl
  · exact .inr hl'

/-- The function is replaced by what it has become. -/
theorem Sound.replace (h : w.Sound) (hfound : w.find? key = some live) {new : LiveFunction}
    (hengine : new.engine = live.engine) (hcoherent : new.function.Coherent)
    (hdescends : live.function.Descends new.function) : (w.replace key new).Sound := by
  obtain ⟨hmem, hkey⟩ := mem_of_find? hfound
  have hnew : new.function.key = key := hdescends.key.trans hkey
  constructor
  case distinct =>
    rw [map_key_replace hnew]
    exact h.distinct
  case numbered =>
    intro l hl
    rcases mem_replace hl with rfl | hl
    · rw [hnew, ← hkey]
      exact h.numbered live hmem
    · exact h.numbered l hl
  case powered =>
    intro l hl
    rcases mem_replace hl with rfl | hl
    · rw [hengine]
      exact h.powered live hmem
    · exact h.powered l hl
  case registered =>
    intro l hl
    rcases mem_replace hl with rfl | hl
    · exact (h.registered live hmem).of_descends hcoherent hdescends
    · exact h.registered l hl

/-- What leaves the functions alone and takes nothing away keeps the world sound. -/
theorem Sound.frame (h : w.Sound) (functions : w'.functions = w.functions)
    (engines : w.engines.length ≤ w'.engines.length) (serial : w.nextSerial ≤ w'.nextSerial)
    (library : w.library.Extends w'.library) : w'.Sound where
  distinct := functions ▸ h.distinct
  numbered l hl := Nat.lt_of_lt_of_le (h.numbered l (functions ▸ hl)) serial
  powered l hl := Nat.lt_of_lt_of_le (h.powered l (functions ▸ hl)) engines
  registered l hl := (h.registered l (functions ▸ hl)).of_extends library

/-- Functions, hooks and kernels are as they were. -/
structure Aside (w w' : World) : Prop where
  functions : w'.functions = w.functions
  typing : w'.typing = w.typing
  target : w'.target = w.target
  library : w'.library = w.library
  engines : w.engines.length ≤ w'.engines.length
  serial : w.nextSerial ≤ w'.nextSerial

theorem Aside.refl (w : World) : w.Aside w := ⟨rfl, rfl, rfl, rfl, Nat.le_refl _, Nat.le_refl _⟩

theorem Sound.aside (h : w.Sound) (haside : w.Aside w') : w'.Sound :=
  h.frame haside.functions haside.engines haside.serial (haside.library ▸ .refl _)

theorem newEngine_lt (w : World) : w.newEngine.1 < w.newEngine.2.engines.length := by
  show w.engines.length < (w.engines ++ [Engine.fresh]).length
  rw [List.length_append]
  exact Nat.lt_succ_self _

theorem aside_newEngine (w : World) : w.Aside w.newEngine.2 :=
  ⟨rfl, rfl, rfl, rfl, Nat.le_of_lt w.newEngine_lt, Nat.le_refl _⟩

theorem aside_setEngine (w : World) (r : EngineRef) (e : Engine) : w.Aside (w.setEngine r e) :=
  ⟨rfl, rfl, rfl, rfl, Nat.le_of_eq (List.length_set ..).symm, Nat.le_refl _⟩

theorem aside_remember (w : World) (memory : Memory) : w.Aside { w with memory } :=
  ⟨rfl, rfl, rfl, rfl, Nat.le_refl _, Nat.le_refl _⟩

/-- The world without a function and its hooks. -/
def forget (w : World) (key : FunctionKey) : World :=
  { w with
    functions := w.functions.filter fun l => l.function.key ≠ key
    typing := w.typing.remove key
    target := w.target.remove key }

theorem Sound.forget (h : w.Sound) (key : FunctionKey) : (w.forget key).Sound where
  distinct := h.distinct.sublist (List.filter_sublist.map _)
  numbered l hl := h.numbered l (List.mem_of_mem_filter hl)
  powered l hl := h.powered l (List.mem_of_mem_filter hl)
  registered l hl := h.registered l (List.mem_of_mem_filter hl)

theorem clone_of_none (h : w.find? key = none) : w.clone key = w := by
  rw [clone, h]

theorem clone_of_find? (h : w.find? key = some live) :
    w.clone key = w.replace key { live with handles := live.handles + 1 } := by
  rw [clone, h]

theorem drop_of_none (h : w.find? key = none) : w.drop key = w := by
  rw [drop, h]

theorem drop_of_shared (h : w.find? key = some live) (hshared : 1 < live.handles) :
    w.drop key = w.replace key { live with handles := live.handles - 1 } := by
  rw [drop, h]
  exact if_pos hshared

theorem drop_of_last (h : w.find? key = some live) (hlast : ¬ 1 < live.handles) :
    w.drop key = w.forget key := by
  rw [drop, h]
  exact if_neg hlast

theorem step_of_find? {α : Type} (h : w.find? key = some live) (body : Step α) :
    w.step key body =
      (fun ran : Except Error α × Machine => (ran.1,
        { (w.replace key { live with function := ran.2.function }).setEngine live.engine ran.2.engine with
          memory := ran.2.memory }))
        (body.run ⟨live.function, w.engine live.engine, w.memory⟩) := by
  unfold step
  rw [h]
  rfl

/-- Of the functions, a step replaces the one that takes it. -/
theorem aside_step {α : Type} (h : w.find? key = some live) (body : Step α) :
    (w.replace key { live with function :=
      (body.run ⟨live.function, w.engine live.engine, w.memory⟩).2.function }).Aside
      (w.step key body).2 := by
  rw [step_of_find? h]
  exact ⟨rfl, rfl, rfl, rfl, Nat.le_of_eq (List.length_set ..).symm, Nat.le_refl _⟩

/-- The world with the function of a blueprint. -/
def added (w : World) (b : Blueprint) (engine : EngineRef) (signature : CoreSignature)
    (library : KernelLibrary) : World :=
  let key : FunctionKey := ⟨b.kernel.name, w.nextSerial⟩
  let live : LiveFunction := ⟨b.function signature key, engine, 1⟩
  { w with library, nextSerial := w.nextSerial + 1, functions := w.functions ++ [live] }.installHooks key
    signature.arity

theorem functions_added (w : World) (b : Blueprint) (engine : EngineRef) (signature : CoreSignature)
    (library : KernelLibrary) : (w.added b engine signature library).functions =
      w.functions ++ [⟨b.function signature ⟨b.kernel.name, w.nextSerial⟩, engine, 1⟩] := rfl

theorem build_of_signature {e : CoreSignature.ParseError}
    (h : CoreSignature.parse b.signature = .error e) :
    w.build b engine = .error (.signature e) := by
  unfold build
  rw [h]

theorem build_of_conflict {signature : CoreSignature} {e : Error}
    (hparsed : CoreSignature.parse b.signature = .ok signature)
    (hregistered : w.library.register b.kernel = .error e) : w.build b engine = .error e := by
  unfold build
  rw [hparsed]
  dsimp only
  rw [hregistered]

theorem build_of_registered {signature : CoreSignature} {library : KernelLibrary}
    (hparsed : CoreSignature.parse b.signature = .ok signature)
    (hregistered : w.library.register b.kernel = .ok library) :
    w.build b engine =
      .ok (⟨b.kernel.name, w.nextSerial⟩, w.added b engine signature library) := by
  unfold build
  rw [hparsed]
  dsimp only
  rw [hregistered]
  rfl

theorem build_eq_added (h : w.build b engine = .ok (key, w')) :
    ∃ signature library, CoreSignature.parse b.signature = .ok signature ∧
      w.library.register b.kernel = .ok library ∧ key = ⟨b.kernel.name, w.nextSerial⟩ ∧
      w' = w.added b engine signature library := by
  rcases hparsed : CoreSignature.parse b.signature with e | signature
  case error =>
    rw [build_of_signature hparsed] at h
    cases h
  case ok =>
    rcases hregistered : w.library.register b.kernel with e | library
    case error =>
      rw [build_of_conflict hparsed hregistered] at h
      cases h
    case ok =>
      rw [build_of_registered hparsed hregistered] at h
      cases h
      exact ⟨signature, library, rfl, rfl, rfl, rfl⟩

theorem Sound.build (h : w.Sound) (powered : engine < w.engines.length)
    (built : w.build b engine = .ok (key, w')) : w'.Sound := by
  obtain ⟨signature, library, hparsed, hlibrary, rfl, rfl⟩ := build_eq_added built
  obtain ⟨hextends, hkernel⟩ := KernelLibrary.register_eq_ok hlibrary
  constructor
  case distinct =>
    rw [functions_added, List.map_append, List.map_singleton]
    refine h.distinct.append (List.nodup_singleton _) (List.disjoint_singleton.2 fun hmem => ?_)
    obtain ⟨l, hl, hkey⟩ := List.mem_map.1 hmem
    exact h.key_ne_next hl _ hkey
  case numbered =>
    rw [functions_added, List.forall_mem_append, List.forall_mem_singleton]
    exact ⟨fun l hl => Nat.lt_succ_of_lt (h.numbered l hl), Nat.lt_succ_self _⟩
  case powered =>
    rw [functions_added, List.forall_mem_append, List.forall_mem_singleton]
    exact ⟨h.powered, powered⟩
  case registered =>
    rw [functions_added, List.forall_mem_append, List.forall_mem_singleton]
    refine ⟨fun l hl => (h.registered l hl).of_extends hextends, ?_⟩
    exact ⟨DynamicFunction.coherent_new .., hparsed, rfl, hkernel⟩

section Rebuild

variable {snapshot : Snapshot} {library : KernelLibrary} {kernel : Kernel} {w'' : World}

theorem rebuild_of_unknown (hkernel : library.find? snapshot.kernel = none) :
    w.rebuild snapshot library engine = (.error (.unknownKernel snapshot.kernel), w) := by
  unfold rebuild
  rw [hkernel]

theorem rebuild_of_refused {e : Error} (hkernel : library.find? snapshot.kernel = some kernel)
    (hbuilt : w.build (snapshot.blueprint kernel) engine = .error e) :
    w.rebuild snapshot library engine = (.error e, w) := by
  rw [Snapshot.blueprint] at hbuilt
  unfold rebuild
  rw [hkernel]
  dsimp only
  rw [hbuilt]

theorem rebuild_of_ok (hkernel : library.find? snapshot.kernel = some kernel)
    (hbuilt : w.build (snapshot.blueprint kernel) engine = .ok (key, w'))
    (hrestored : w'.step key (restore snapshot) = (.ok (), w'')) :
    w.rebuild snapshot library engine = (.ok key, w'') := by
  rw [Snapshot.blueprint] at hbuilt
  unfold rebuild
  rw [hkernel]
  dsimp only
  rw [hbuilt]
  dsimp only
  rw [hrestored]

/-- A function that cannot be restored is given up again. -/
theorem rebuild_of_error {e : Error} (hkernel : library.find? snapshot.kernel = some kernel)
    (hbuilt : w.build (snapshot.blueprint kernel) engine = .ok (key, w'))
    (hrestored : w'.step key (restore snapshot) = (.error e, w'')) :
    w.rebuild snapshot library engine = (.error e, w''.drop key) := by
  rw [Snapshot.blueprint] at hbuilt
  unfold rebuild
  rw [hkernel]
  dsimp only
  rw [hbuilt]
  dsimp only
  rw [hrestored]

end Rebuild

theorem restore_coheres (snapshot : Snapshot) : Effect.Keeps Machine.Coheres (restore snapshot) :=
  DynamicFunction.restore_keeps snapshot DynamicFunction.add_coheres
    DynamicFunction.buildTable_coheres DynamicFunction.disableCompile_coheres

/-- Changes that requests come to, where all kernels that come with them satisfy `K`. -/
inductive Moves (K : Kernel → Prop) : World → World → Prop
  | aside {w w' : World} (h : w.Aside w') : Moves K w w'
  | register {w : World} {kernel : Kernel} {library : KernelLibrary} (given : K kernel)
      (registered : w.library.register kernel = .ok library) : Moves K w { w with library }
  | build {w w' : World} {b : Blueprint} {engine : EngineRef} {key : FunctionKey} (given : K b.kernel)
      (powered : engine < w.engines.length) (built : w.build b engine = .ok (key, w')) : Moves K w w'
  | become {w : World} {key : FunctionKey} {live new : LiveFunction} (found : w.find? key = some live)
      (engine : new.engine = live.engine) (handles : 0 < live.handles → 0 < new.handles)
      (coherent : new.function.Coherent) (descends : live.function.Descends new.function) :
      Moves K w (w.replace key new)
  | forget {w : World} (key : FunctionKey) : Moves K w (w.forget key)
  | trans {w w' w'' : World} (h : Moves K w w') (h' : Moves K w' w'') : Moves K w w''

namespace Moves

variable {K : Kernel → Prop}

theorem refl (w : World) : Moves K w w := .aside (.refl w)

theorem sound (h : Moves K w w') (hw : w.Sound) : w'.Sound := by
  induction h with
  | aside h => exact hw.aside h
  | register _ registered =>
    exact hw.frame rfl (Nat.le_refl _) (Nat.le_refl _) (KernelLibrary.register_eq_ok registered).1
  | build _ powered built => exact hw.build powered built
  | become found engine _ coherent descends => exact hw.replace found engine coherent descends
  | forget key => exact hw.forget key
  | trans _ _ ih ih' => exact ih' (ih hw)

theorem clone (hw : w.Sound) (key : FunctionKey) : Moves K w (w.clone key) := by
  rcases hfound : w.find? key with _ | live
  case none =>
    rw [clone_of_none hfound]
    exact .refl w
  case some =>
    have hcoherent := (hw.registered live (mem_of_find? hfound).1).coherent
    rw [clone_of_find? hfound]
    exact .become hfound rfl (fun _ => Nat.succ_pos _) hcoherent (.refl _)

theorem drop (hw : w.Sound) (key : FunctionKey) : Moves K w (w.drop key) := by
  rcases hfound : w.find? key with _ | live
  case none =>
    rw [drop_of_none hfound]
    exact .refl w
  case some =>
    have hcoherent := (hw.registered live (mem_of_find? hfound).1).coherent
    by_cases hshared : 1 < live.handles
    · rw [drop_of_shared hfound hshared]
      exact .become hfound rfl (fun _ => Nat.sub_pos_of_lt hshared) hcoherent (.refl _)
    · rw [drop_of_last hfound hshared]
      exact .forget key

theorem step {α : Type} {body : Step α} (hw : w.Sound)
    (hbody : Effect.Keeps Machine.Coheres body) (key : FunctionKey) :
    Moves K w (w.step key body).2 := by
  rcases hfound : w.find? key with _ | live
  case none =>
    rw [World.step, hfound]
    exact .refl w
  case some =>
    have hcoherent := (hw.registered live (mem_of_find? hfound).1).coherent
    obtain ⟨hafter, hdescends⟩ :=
      hbody ⟨live.function, w.engine live.engine, w.memory⟩ hcoherent
    have hreplaced : Moves K w (w.replace key { live with function :=
        (body.run ⟨live.function, w.engine live.engine, w.memory⟩).2.function }) :=
      .become hfound rfl id hafter hdescends
    exact hreplaced.trans (.aside (aside_step hfound body))

theorem resolveType (hw : w.Sound) (key : FunctionKey) (types : List OperandType)
    (keywords : List (String × OperandType)) :
    Moves K w (w.resolveType key types keywords).2 := by
  unfold World.resolveType
  split
  case h_1 => exact .refl w
  case h_2 rule _ => exact step hw (DynamicFunction.typeCall_coheres types keywords) rule

theorem lowerCall (hw : w.Sound) (key : FunctionKey) (args : List Value) :
    Moves K w (w.lowerCall key args).2 := by
  unfold World.lowerCall
  split
  case h_1 => exact .refl w
  case h_2 target _ => exact step hw (DynamicFunction.lowerCall_coheres args) target

theorem rebuild (hw : w.Sound) (snapshot : Snapshot) {library : KernelLibrary}
    (given : ∀ kernel ∈ library.kernels, K kernel) (powered : engine < w.engines.length) :
    Moves K w (w.rebuild snapshot library engine).2 := by
  rcases hkernel : library.find? snapshot.kernel with _ | kernel
  case none =>
    rw [rebuild_of_unknown hkernel]
    exact .refl w
  case some =>
    have hgiven := given kernel (List.mem_of_find?_eq_some hkernel)
    rcases hbuilt : w.build (snapshot.blueprint kernel) engine with e | ⟨key, w'⟩
    case error =>
      rw [rebuild_of_refused hkernel hbuilt]
      exact .refl w
    case ok =>
      have hmade : Moves K w w' := .build hgiven powered hbuilt
      have hstepped := hmade.trans (step (hmade.sound hw) (restore_coheres snapshot) key)
      rcases hrestored : w'.step key (restore snapshot) with ⟨e | _, w''⟩
      case error =>
        rw [hrestored] at hstepped
        rw [rebuild_of_error hkernel hbuilt hrestored]
        exact hstepped.trans (drop (hstepped.sound hw) key)
      case ok =>
        rw [hrestored] at hstepped
        rw [rebuild_of_ok hkernel hbuilt hrestored]
        exact hstepped

end Moves

theorem Sound.moves (h : w.Sound) (hmoves : Moves (fun _ => True) w w') : w'.Sound := hmoves.sound h

theorem Sound.rebuild (h : w.Sound) (snapshot : Snapshot) (library : KernelLibrary)
    (powered : engine < w.engines.length) : (w.rebuild snapshot library engine).2.Sound :=
  h.moves (.rebuild h snapshot (fun _ _ => trivial) powered)

end World

end Corewise
