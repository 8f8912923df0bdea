import Corewise.Proofs.World.Request
/-!
Functions made again from what was saved of them. A name in the library stands for one body for good, and
a function takes its name at the moment it is made, so its kernel is found under that name in every later
world, whether or not the function is still there.
-/

namespace Corewise

namespace KernelLibrary

variable {l l' l'' : KernelLibrary} {kernel : Kernel}

theorem register_eq_error {e : Error} : l.register kernel = .error e ↔
    e = .kernelConflict kernel.name ∧
      ∃ existing, l.find? kernel.name = some existing ∧ existing.sameBody kernel = false := by
  unfold register
  rcases l.find? kernel.name with _ | existing
  case none => simp
  case some =>
    dsimp only
    rcases hsame : existing.sameBody kernel with _ | _
    case false => simp [hsame, @eq_comm _ e]
    case true => simp [hsame]

theorem exists_register_eq_ok : (∃ l', l.register kernel = .ok l') ↔
    l.find? kernel.name = none ∨
      ∃ existing, l.find? kernel.name = some existing ∧ existing.sameBody kernel = true := by
  unfold register
  rcases l.find? kernel.name with _ | existing
  case none => simp
  case some =>
    dsimp only
    rcases hsame : existing.sameBody kernel with _ | _ <;> simp [hsame]

end KernelLibrary

namespace Compiler

theorem Takes.of_sameBody {recipe : Recipe} {call : CallSignature} {kernel : Kernel}
    (h : Takes recipe call) (hsame : kernel.sameBody recipe.kernel = true) :
    Takes { recipe with kernel } call := by
  have hobject : kernel.isObject = recipe.kernel.isObject :=
    eq_of_beq (Bool.and_eq_true_iff.1 hsame).1
  rw [takes_iff] at h ⊢
  rw [hobject]
  exact h

end Compiler

namespace DynamicFunction

variable {f : DynamicFunction}

/-- A function is restored on any kernel with the body of its own. -/
theorem Coherent.restores_on_blueprint (h : f.Coherent) {kernel : Kernel}
    (hsame : kernel.sameBody f.registry.recipe.kernel = true) (key : FunctionKey)
    (hkey : key.name = f.name) (engine : Engine) (m : Memory) :
    ∃ g engine', (World.restore f.snapshot).run
        ⟨(f.snapshot.blueprint kernel).function f.registry.recipe.signature key, engine, m⟩ =
          (.ok (), ⟨g, engine', m⟩) ∧
      g.key = key ∧ g.registry.recipe.kernel = kernel ∧ g.snapshot = f.snapshot := by
  let start := (f.snapshot.blueprint kernel).function f.registry.recipe.signature key
  have htakes : ∀ call ∈ f.registry.signatures, Compiler.Takes start.registry.recipe call :=
    fun call hcall => (h.takes f.registry.recipe.kernel.doc call hcall).of_sameBody hsame
  have hsnapshot : start.snapshot = { f.snapshot with specializations := [], frozen := false } := by
    have hname : start.name = f.name := hkey
    have hmode : start.lifecycle.isDynamic = f.lifecycle.isDynamic :=
      congrArg (decide <| · = Dispatch.Mode.dynamic) (f.blueprint_mode kernel)
    rw [snapshot, hname, hmode]
    rfl
  obtain ⟨g, hrun, hdescends, -, hrestored, -⟩ :=
    h.restores_on (coherent_new ..) hsnapshot htakes engine m
  exact ⟨g, _, hrun, hdescends.key, congrArg Recipe.kernel hdescends.registry.recipe, hrestored⟩

end DynamicFunction

namespace World

variable {w w' : World} {K : Kernel → Prop} {f : DynamicFunction} {engine : EngineRef}

theorem Moves.extends (h : Moves K w w') : w.library.Extends w'.library := by
  induction h with
  | aside h => exact h.library ▸ .refl _
  | register _ registered => exact (KernelLibrary.register_eq_ok registered).1
  | build _ _ built =>
    obtain ⟨_, _, -, hlibrary, rfl, rfl⟩ := build_eq_added built
    exact (KernelLibrary.register_eq_ok hlibrary).1
  | become => exact .refl _
  | forget => exact .refl _
  | trans _ _ ih ih' => exact ih.trans ih'

/-- A registered function is made again from the kernel of its name, whether or not it is still there. -/
theorem Sound.rebuild_registered (hw : w.Sound) (h : f.Registered w.library)
    (powered : engine < w.engines.length) :
    ∃ key w' made, w.rebuild f.snapshot w.library engine = (.ok key, w') ∧
      w'.find? key = some made ∧ made.function.snapshot = f.snapshot ∧
      w.library.find? f.name = some made.function.registry.recipe.kernel ∧
      made.function.registry.recipe.kernel.sameBody f.registry.recipe.kernel = true := by
  obtain ⟨kernel, hkernel, hsame⟩ := h.kernel
  have hname : kernel.name = f.name := KernelLibrary.name_of_find? hkernel
  have hregistered : w.library.register kernel = .ok w.library :=
    KernelLibrary.register_of_sameBody (hname ▸ hkernel) kernel.sameBody_self
  have hbuilt : w.build (f.snapshot.blueprint kernel) engine = .ok (⟨kernel.name, w.nextSerial⟩, _) :=
    build_of_registered h.parsed hregistered
  have hstart := List.mem_append_right w.functions (List.mem_singleton_self
    ⟨(f.snapshot.blueprint kernel).function f.registry.recipe.signature ⟨kernel.name, w.nextSerial⟩,
      engine, 1⟩)
  obtain ⟨g, engine', hrun, hkey, hmade, hsnapshot⟩ := h.coherent.restores_on_blueprint hsame
    ⟨kernel.name, w.nextSerial⟩ hname (w.engine engine) w.memory
  obtain ⟨w'', hstep, hstepped, -⟩ := (hw.build powered hbuilt).step_run hstart hrun
  have hrebuilt := rebuild_of_ok hkernel hbuilt hstep
  have hsound := hw.rebuild f.snapshot w.library powered
  rw [hrebuilt] at hsound
  exact ⟨_, w'', _, hrebuilt, hkey ▸ hsound.find?_of_mem hstepped, hsnapshot, hmade.symm ▸ hkernel,
    hmade.symm ▸ hsame⟩

variable {b : Blueprint}

theorem build_eq_error {e : Error} (h : w.build b engine = .error e) :
    (∃ cause, CoreSignature.parse b.signature = .error cause ∧ e = .signature cause) ∨
      w.library.register b.kernel = .error e := by
  rcases hparsed : CoreSignature.parse b.signature with cause | signature
  case error =>
    rw [build_of_signature hparsed] at h
    cases h
    exact .inl ⟨cause, rfl, rfl⟩
  case ok =>
    rcases hregistered : w.library.register b.kernel with e' | library
    case error =>
      rw [build_of_conflict hparsed hregistered] at h
      cases h
      exact .inr rfl
    case ok =>
      rw [build_of_registered hparsed hregistered] at h
      cases h

/-- Making a function fails for its signature or for its name, and comes to nothing then. -/
theorem serve_build_eq_error {r : EngineRef} {e : Error} (h : (w.serve (.build b r)).1 = .error e) :
    ((∃ cause, CoreSignature.parse b.signature = .error cause ∧ e = .signature cause) ∨
      w.library.register b.kernel = .error e) ∧ w.Aside (w.serve (.build b r)).2 := by
  have hprovided := w.aside_provide r
  rcases hbuilt : (w.provide r).2.build b (w.provide r).1 with e' | ⟨key, w'⟩
  case error =>
    rw [serve_build_of_error hbuilt] at h ⊢
    cases h
    have hcause := build_eq_error hbuilt
    rw [hprovided.library] at hcause
    exact ⟨hcause, hprovided⟩
  case ok =>
    rw [serve_build_of_ok hbuilt] at h
    cases h

theorem serve_register_eq_ok {kernel : Kernel} : (w.serve (.register kernel)).1 = .ok none ↔
    ∃ library, w.library.register kernel = .ok library := by
  show (w.register kernel).1.map (fun _ => none) = .ok none ↔ _
  rcases hregistered : w.library.register kernel with e | library
  case error =>
    rw [register_of_error hregistered]
    exact ⟨nofun, nofun⟩
  case ok =>
    rw [register_of_ok hregistered]
    exact ⟨fun _ => ⟨library, rfl⟩, fun _ => rfl⟩

theorem serve_rebuild_registered (hw : w.Sound) (h : f.Registered w.library) (r : EngineRef) :
    ∃ key w' made, w.serve (.rebuild f.snapshot none r) = (.ok (some key), w') ∧
      w'.find? key = some made ∧ made.function.snapshot = f.snapshot ∧
      w.library.find? f.name = some made.function.registry.recipe.kernel ∧
      made.function.registry.recipe.kernel.sameBody f.registry.recipe.kernel = true := by
  have hprovided := w.aside_provide r
  obtain ⟨key, w', made, hrebuilt, hmade⟩ :=
    (hw.provide r).rebuild_registered (hprovided.library ▸ h) (w.provide_lt r)
  rw [hprovided.library] at hrebuilt hmade
  have hserved : w.serve (.rebuild f.snapshot none r) =
      ((w.provide r).2.rebuild f.snapshot w.library (w.provide r).1).map (·.map some) id := rfl
  rw [hrebuilt] at hserved
  exact ⟨key, w', made, hserved, hmade⟩

/-- What is saved of a function is made again from the body that the function had, whatever has become of
the function since and whatever else was asked for. -/
theorem rebuilt_as_saved (before later : List Request) :
    (∀ name kernel, (empty.after before).library.find? name = some kernel →
      (empty.after (before ++ later)).library.find? name = some kernel) ∧
    (∀ kernel, ((empty.after before).serve (.register kernel)).1 = .ok none ↔
      (empty.after before).library.find? kernel.name = none ∨
        ∃ existing, (empty.after before).library.find? kernel.name = some existing ∧
          existing.sameBody kernel = true) ∧
    (∀ b r e, ((empty.after before).serve (.build b r)).1 = .error e →
      ((∃ cause, CoreSignature.parse b.signature = .error cause ∧ e = .signature cause) ∨
        e = .kernelConflict b.kernel.name ∧
          ∃ existing, (empty.after before).library.find? b.kernel.name = some existing ∧
            existing.sameBody b.kernel = false) ∧
      (empty.after before).Aside ((empty.after before).serve (.build b r)).2) ∧
    ∀ live ∈ (empty.after before).functions, ∀ r, ∃ key w' made,
      (empty.after (before ++ later)).serve (.rebuild live.function.snapshot none r) =
        (.ok (some key), w') ∧
      w'.find? key = some made ∧ made.function.snapshot = live.function.snapshot ∧
      (empty.after (before ++ later)).library.find? live.function.name =
        some made.function.registry.recipe.kernel ∧
      made.function.registry.recipe.kernel.sameBody live.function.registry.recipe.kernel = true ∧
      ∀ bodies : Nat → Body, (∀ request ∈ before ++ later, ∀ kernel ∈ request.kernels,
          kernel.body = bodies kernel.identity) →
        made.function.registry.recipe.kernel.body = live.function.registry.recipe.kernel.body := by
  have hsound := sound_after before
  have hlater : Moves (fun _ => True) (empty.after before) ((empty.after before).after later) :=
    after_moves hsound (stocks_after fun _ _ _ _ => trivial) fun _ _ _ _ => trivial
  rw [after_append]
  refine ⟨hlater.extends, ?registers, ?fails, ?rebuilds⟩
  case registers => exact fun kernel => serve_register_eq_ok.trans KernelLibrary.exists_register_eq_ok
  case fails =>
    intro b r e h
    obtain ⟨hcause, haside⟩ := serve_build_eq_error h
    exact ⟨hcause.imp_right KernelLibrary.register_eq_error.1, haside⟩
  case rebuilds =>
    intro live hlive r
    have hregistered := (hsound.registered live hlive).of_extends hlater.extends
    obtain ⟨key, w', made, hserved, hmade, hsnapshot, hkernel, hsame⟩ :=
      serve_rebuild_registered (hlater.sound hsound) hregistered r
    refine ⟨key, w', made, hserved, hmade, hsnapshot, hkernel, hsame, fun bodies given => ?_⟩
    -- Both kernels came with requests, so their bodies are the ones that were written for them.
    have hstocks := stocks_after fun request hrequest =>
      given request (List.mem_append_left later hrequest)
    have hstocks' := stocks_after given
    rw [after_append] at hstocks'
    rw [hstocks.functions live hlive, hstocks'.library _ (List.mem_of_find?_eq_some hkernel)]
    exact congrArg bodies (eq_of_beq (Bool.and_eq_true_iff.1 hsame).2)

/-- The function goes, and another body is refused under its name. -/
def takeover : List Request :=
  [.drop ⟨"copy", 1⟩,
    .build ⟨⟨"copy", none, .native fun _ => .done, 1⟩, "(n)->(n)", .dynamic, .none, false, .default, []⟩ 0]

theorem rebuilt_as_saved_takeover :
    (empty.after (copyRun ++ takeover)).functions = [] ∧
    ∃ key w' made, (empty.after (copyRun ++ takeover)).serve
        (.rebuild copyMachine.function.snapshot none 0) = (.ok (some key), w') ∧
      w'.find? key = some made ∧ made.function.registry.recipe.kernel.body = Loop.copyFirst := by
  constructor
  case left =>
    rw [after_append, after_copyRun]
    rfl
  case right =>
    have hlive : ⟨copyMachine.function, 0, 1⟩ ∈ (empty.after copyRun).functions := by
      rw [after_copyRun, copyWorld_functions]
      exact List.mem_singleton_self _
    obtain ⟨-, -, -, hrebuilds⟩ := rebuilt_as_saved copyRun takeover
    obtain ⟨key, w', made, hserved, hmade, -, -, -, hbody⟩ := hrebuilds _ hlive 0
    refine ⟨key, w', made, hserved, hmade, ?_⟩
    apply hbody fun identity => if identity = 0 then Loop.copyFirst else .native fun _ => .done
    simp [copyRun, takeover, Request.kernels]

end World

end Corewise
