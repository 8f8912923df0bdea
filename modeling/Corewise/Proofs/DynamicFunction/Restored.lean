import Corewise.Proofs.DynamicFunction.Alike
import Corewise.World
/-!
Functions that are made again from a snapshot. Their call signatures are compiled again in their order, and
a compiler that nothing else uses numbers what it makes, so the entries come out as they were.
-/

namespace Corewise

theorem Owned.numbered {f : DynamicFunction} {engine : Engine} (h : Owned f engine) :
    f.registry.Numbered := by
  induction h with
  | new => exact Registry.numbered_empty _
  | @step f engine h operation m ih =>
    have hadvance := operation.step_advances ⟨f, engine, m⟩ h.reachable.sound
    exact hadvance.grows.numbered h.compilations_eq ih

namespace Registry

variable {r r' : Registry}

/-- Call signatures and a recipe come to the same entries, whoever compiles them in a row. -/
theorem Sound.entries_eq (h : r.Sound) (h' : r'.Sound) (hr : r.Numbered) (hr' : r'.Numbered)
    {doc : Option String} (hrecipe : r'.recipe = r.recipe.describedBy doc)
    (hsignatures : r'.signatures = r.signatures) : r'.entries = r.entries := by
  apply List.ext_getElem?
  intro i
  have hsignature : (r'.entries[i]?).map (·.signature) = (r.entries[i]?).map (·.signature) := by
    rw [← List.getElem?_map, ← List.getElem?_map]
    exact congrArg (·[i]?) hsignatures
  rcases hs : r.entries[i]? with _ | s
  case none =>
    rw [hs] at hsignature
    exact Option.map_eq_none_iff.1 hsignature
  case some =>
    rw [hs] at hsignature
    obtain ⟨s', hs', hsame⟩ := Option.map_eq_some_iff.1 hsignature
    rw [hs']
    -- The call signature determines the key, and with the number of the compilation the artifact.
    have hkey := (h'.valid s' (List.mem_of_getElem? hs')).key
    have hmade := hr' i s' hs' 0
    rw [hsame] at hkey hmade
    rw [hrecipe] at hmade
    have hkeys : s'.key = s.key :=
      Except.ok.inj (hkey.symm.trans (h.valid s (List.mem_of_getElem? hs)).key)
    have hartifacts : s'.artifact = s.artifact :=
      Except.ok.inj (Prod.mk.inj (hmade.symm.trans (hr i s hs 0))).1
    cases s
    cases s'
    cases hsame
    cases hkeys
    cases hartifacts
    rfl

end Registry

namespace DynamicFunction

variable {f g : DynamicFunction} {call : CallSignature}

theorem add_run (engine : Engine) (m : Memory) (h : f.registry.Sound) (habsent : call ∉ f.registry.signatures)
    (htakes : Compiler.Takes f.registry.recipe call) : ∃ s : Specialization, s.signature = call ∧
      (f.registry.append s).Sound ∧ (add call).run ⟨f, engine, m⟩ =
        (.ok (), ⟨{ f with registry := f.registry.append s },
          { engine with compilations := engine.compilations + 1 }, m⟩) := by
  obtain ⟨key, hkey⟩ := htakes.checked.elementTypes
  obtain ⟨artifact, hcompile⟩ := htakes.compile engine
  have hinsert := h.insert_of_compile habsent hkey hcompile
  have hgrows := (h.insert call engine).grows h
  rw [hinsert] at hgrows
  exact ⟨⟨call, key, artifact⟩, rfl, hgrows.sound,
    Effect.run_bind_of_ok (Step.onRegistry_of_eq (s := ⟨f, engine, m⟩) hinsert)⟩

/-- Adding call signatures that the compiler takes compiles each of them once. -/
theorem forM_add_run (engine : Engine) (m : Memory) {calls : List CallSignature}
    (h : f.registry.Sound)
    (hdistinct : (f.registry.signatures ++ calls).Nodup)
    (htakes : ∀ call ∈ calls, Compiler.Takes f.registry.recipe call) : ∃ r : Registry,
      r.signatures = f.registry.signatures ++ calls ∧ (calls.forM add).run ⟨f, engine, m⟩ =
        (.ok (), ⟨{ f with registry := r },
          { engine with compilations := engine.compilations + calls.length }, m⟩) := by
  induction calls generalizing f engine with
  | nil => exact ⟨f.registry, (List.append_nil _).symm, rfl⟩
  | cons call calls ih =>
    obtain ⟨htake, hrest⟩ := List.forall_mem_cons.1 htakes
    have habsent : call ∉ f.registry.signatures := fun hmem =>
      (List.nodup_append.1 hdistinct).2.2 _ hmem _ List.mem_cons_self rfl
    obtain ⟨s, rfl, hsound, hadd⟩ := add_run engine m h habsent htake
    have hsignatures : (f.registry.append s).signatures = f.registry.signatures ++ [s.signature] :=
      List.map_append
    obtain ⟨r, hr, hrun⟩ := ih { engine with compilations := engine.compilations + 1 }
      (f := { f with registry := f.registry.append s }) hsound
      (by rw [hsignatures, List.append_assoc]; exact hdistinct) hrest
    refine ⟨r, by rw [hr, hsignatures, List.append_assoc]; rfl, ?_⟩
    have hcons : (s.signature :: calls).forM add = add s.signature >>= fun _ => calls.forM add := rfl
    rw [hcons, Effect.run_bind_of_ok hadd, hrun, List.length_cons, Nat.add_right_comm]
    rfl

theorem buildTable_run (s : Machine) :
    buildTable.run s = (.ok (), { s with function := s.function.renewTable }) := rfl

/-- Restoring an open function succeeds where the compiler takes all that is restored, and is not asked for
it twice. -/
theorem restore_run (snapshot : Snapshot) (engine : Engine) (m : Memory)
    (h : f.registry.Sound)
    (hopen : f.lifecycle.isFrozen = false)
    (hdistinct : (f.registry.signatures ++ snapshot.specializations).Nodup)
    (htakes : ∀ call ∈ snapshot.specializations, Compiler.Takes f.registry.recipe call)
    (hstocked : snapshot.frozen = true → snapshot.specializations ≠ []) :
    ∃ g, (World.restore snapshot).run ⟨f, engine, m⟩ = (.ok (), ⟨g, { engine with
        compilations := engine.compilations + snapshot.specializations.length }, m⟩) ∧
      g.registry.signatures = f.registry.signatures ++ snapshot.specializations ∧
      g.lifecycle.isFrozen = snapshot.frozen ∧ g.table.loops = g.registry.entries := by
  obtain ⟨r, hsignatures, hadds⟩ := forM_add_run engine m h hdistinct htakes
  unfold World.restore
  rw [Effect.run_bind_of_ok hadds, Effect.run_bind_of_ok (buildTable_run _)]
  rcases hfrozen : snapshot.frozen with _ | _
  case false => exact ⟨_, rfl, hsignatures, hopen, rfl⟩
  case true =>
    have hentries : r.entries ≠ [] := by
      intro hnil
      have hempty : r.signatures = [] := congrArg _ hnil
      rw [hsignatures, List.append_eq_nil_iff] at hempty
      exact hstocked hfrozen hempty.2
    rw [if_pos rfl, disableCompile_run]
    split
    case isTrue hnil => exact absurd hnil hentries
    case isFalse => exact ⟨_, rfl, hsignatures, rfl, rfl⟩

theorem restore_keeps {R : Machine → Machine → Prop} [Std.Refl R] [Trans R R R] (snapshot : Snapshot)
    (hadd : ∀ call, Effect.Keeps R (add call)) (hbuild : Effect.Keeps R buildTable)
    (hdisable : Effect.Keeps R disableCompile) : Effect.Keeps R (World.restore snapshot) := by
  have hadds : Effect.Keeps R (snapshot.specializations.forM add) := .forM fun call _ => hadd call
  refine hadds.bind fun _ => hbuild.bind fun _ => ?_
  split
  · exact hdisable
  · exact .pure _

/-- The function `g` is `f`, made again. -/
structure Restores (f g : DynamicFunction) : Prop where
  coherent : g.Coherent
  numbered : g.registry.Numbered
  snapshot : g.snapshot = f.snapshot
  listed : g.table.loops = g.registry.entries
  recipe : ∃ doc, g.registry.recipe = f.registry.recipe.describedBy doc

/-- The function with nothing compiled, under a new key and with another description of its kernel. -/
def emptied (f : DynamicFunction) (key : FunctionKey) (doc : Option String) : DynamicFunction :=
  new key (f.registry.recipe.describedBy doc) f.signatureText f.identity f.cache f.writableArgs
    f.lifecycle.mode

theorem Coherent.takes (h : f.Coherent) (doc : Option String) :
    ∀ call ∈ f.registry.signatures, Compiler.Takes (f.registry.recipe.describedBy doc) call := by
  intro call hcall
  obtain ⟨s, hs, rfl⟩ := List.mem_map.1 hcall
  obtain ⟨compilations, hmade⟩ := h.made s hs
  exact Compiler.takes_of_compile (hmade 0)

/-- Of what a snapshot shows, steps change the call signatures and whether the function is frozen. -/
theorem Descends.snapshot_eq (h : f.Descends g) : g.snapshot =
    { f.snapshot with specializations := g.registry.signatures, frozen := g.lifecycle.isFrozen } := by
  have hname : g.name = f.name := congrArg FunctionKey.name h.key
  rw [DynamicFunction.snapshot, hname, h.signatureText, h.identity, h.cache, Lifecycle.isDynamic,
    h.mode, h.registry.recipe, h.writableArgs]
  rfl

/-- A function is restored on any new one whose compiler takes the same call signatures. -/
theorem Coherent.restores_on (h : f.Coherent) {start : DynamicFunction} (hstart : start.Coherent)
    (hsnapshot : start.snapshot = { f.snapshot with specializations := [], frozen := false })
    (htakes : ∀ call ∈ f.registry.signatures, Compiler.Takes start.registry.recipe call)
    (engine : Engine) (m : Memory) :
    ∃ g, (World.restore f.snapshot).run ⟨start, engine, m⟩ =
        (.ok (), ⟨g, { engine with
          compilations := engine.compilations + f.registry.entries.length }, m⟩) ∧
      start.Descends g ∧ g.Coherent ∧ g.snapshot = f.snapshot ∧ g.table.loops = g.registry.entries := by
  have hempty : start.registry.signatures = [] := congrArg Snapshot.specializations hsnapshot
  have hopen : start.lifecycle.isFrozen = false := congrArg Snapshot.frozen hsnapshot
  have hstocked (hfrozen : f.snapshot.frozen = true) : f.snapshot.specializations ≠ [] :=
    mt List.map_eq_nil_iff.1 (h.stocked hfrozen)
  have hdistinct : (start.registry.signatures ++ f.snapshot.specializations).Nodup := by
    rw [hempty]
    exact h.sound.registry.distinct
  obtain ⟨g, hrun, hsignatures, hfrozen, hlisted⟩ := restore_run f.snapshot engine m
    hstart.sound.registry hopen hdistinct htakes hstocked
  have hcoheres := restore_keeps f.snapshot add_coheres buildTable_coheres disableCompile_coheres
    ⟨start, engine, m⟩ hstart
  have hcount : f.snapshot.specializations.length = f.registry.entries.length := List.length_map _
  rw [hrun] at hcoheres
  obtain ⟨hg, hdescends⟩ := hcoheres
  refine ⟨g, hcount ▸ hrun, hdescends, hg, ?_, hlisted⟩
  rw [hdescends.snapshot_eq, hsignatures, hempty, hfrozen, hsnapshot]
  rfl

theorem Coherent.restores (h : f.Coherent) (key : FunctionKey) (hkey : key.name = f.name)
    (doc : Option String) (m : Memory) :
    ∃ g, (World.restore f.snapshot).run ⟨f.emptied key doc, .fresh, m⟩ =
      (.ok (), ⟨g, ⟨f.registry.entries.length, 0⟩, m⟩) ∧ g.key = key ∧ f.Restores g := by
  have hcoherent : (f.emptied key doc).Coherent := coherent_new ..
  have hsnapshot : (f.emptied key doc).snapshot =
      { f.snapshot with specializations := [], frozen := false } := by
    have hname : (f.emptied key doc).name = f.name := hkey
    rw [snapshot, hname]
    rfl
  obtain ⟨g, hrun, hdescends, hg, hrestored, hlisted⟩ :=
    h.restores_on hcoherent hsnapshot (h.takes doc) .fresh m
  have hadvance := restore_keeps f.snapshot add_advances buildTable_advances disableCompile_advances
    ⟨f.emptied key doc, .fresh, m⟩ hcoherent.sound
  rw [hrun] at hadvance
  refine ⟨g, ?run, hdescends.key, hg, ?numbered, hrestored, hlisted, doc, hdescends.registry.recipe⟩
  case run => rw [hrun, Engine.fresh, Nat.zero_add]
  case numbered => exact hadvance.grows.numbered rfl (Registry.numbered_empty _)

/-- Where a compiler has made nothing but the entries of a function, and its table has all of them, the
function that is made again is no different. -/
theorem Restores.alike (h : f.Restores g) (hf : f.Coherent) (hnumbered : f.registry.Numbered)
    (hlisted : f.table.loops = f.registry.entries) : f.Alike g := by
  obtain ⟨doc, hrecipe⟩ := h.recipe
  have hentries := hf.sound.registry.entries_eq h.coherent.sound.registry hnumbered h.numbered hrecipe
    (congrArg Snapshot.specializations h.snapshot)
  have hmode : g.lifecycle.mode = f.lifecycle.mode := by
    have hdynamic : g.lifecycle.isDynamic = f.lifecycle.isDynamic :=
      congrArg Snapshot.isDynamic h.snapshot
    rw [Lifecycle.isDynamic, Lifecycle.isDynamic, decide_eq_decide] at hdynamic
    cases hf : f.lifecycle.mode <;> cases hg : g.lifecycle.mode <;> simp_all
  constructor
  case left => exact hf
  case right => exact h.coherent
  case name => exact congrArg Snapshot.kernel h.snapshot
  case identity => exact congrArg Snapshot.identity h.snapshot
  case writableArgs => exact congrArg Snapshot.writableArgs h.snapshot
  case mode => exact hmode
  case frozen => exact congrArg Snapshot.frozen h.snapshot
  case registry =>
    exact ⟨hf.sound.registry, h.coherent.sound.registry, hentries, doc, hrecipe⟩
  case loops => rw [h.listed, hentries, hlisted]

end DynamicFunction

end Corewise
