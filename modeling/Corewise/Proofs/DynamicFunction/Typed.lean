import Corewise.Proofs.DynamicFunction.Fixed
import Corewise.Proofs.DynamicFunction.History
/-!
Typed call sites. Once a call site has been typed there is a specialization for its element types, and there
is one ever after: an open function finds entries by exactly these types and entries stay, and one that has
frozen since prefers the entry that it found while it was open.
-/

namespace Corewise

theorem Dispatch.siteTypes_eq_ok {arity : Nat} {types : List OperandType} {query : List DType}
    (h : Dispatch.siteTypes arity types = .ok query) :
    elementTypes types = .ok query ∧ (query.length = arity ∨ query.length = arity + 1) := by
  unfold Dispatch.siteTypes at h
  split at h
  case isTrue hcount =>
    have hlen := (elementTypes_eq_ok.1 h).length_eq
    exact ⟨h, by omega⟩
  case isFalse => cases h

namespace DynamicFunction

variable {f g : DynamicFunction} {engine : Engine} {m : Memory} {s : Machine} {query : List DType}
  {loop : Specialization}

/-- What an open function finds is found by all that it becomes. -/
theorem Descends.specialization?_of_open (h : f.Descends g) (hf : f.Sound) (hg : g.Sound)
    (hlen : query.length = f.registry.arity ∨ query.length = f.registry.arity + 1)
    (hopen : f.lifecycle.isFrozen = false) (hloop : f.specialization? query = some loop) :
    g.specialization? query = some loop := by
  rw [DynamicFunction.specialization?_of_open hopen] at hloop
  have hfound := hf.registry.find?_of_precedes hg.registry h.registry hloop
  rcases hfrozen : g.lifecycle.isFrozen with _ | _
  case false => rw [DynamicFunction.specialization?_of_open hfrozen, hfound]
  case true =>
    rw [hg.specialization?_of_frozen hfrozen]
    exact hg.registry.select_of_find? (h.registry.arity_eq ▸ hlen) hfound

/-- A function that has a specialization for element types never comes to lack one. -/
theorem Descends.specialization?_isSome (h : f.Descends g) (hf : f.Sound) (hg : g.Sound)
    (hlen : query.length = f.registry.arity ∨ query.length = f.registry.arity + 1)
    (hloop : (f.specialization? query).isSome = true) : (g.specialization? query).isSome = true := by
  rcases hfrozen : f.lifecycle.isFrozen with _ | _
  case false =>
    obtain ⟨loop, hloop⟩ := Option.isSome_iff_exists.1 hloop
    rw [h.specialization?_of_open hf hg hlen hfrozen hloop]
    rfl
  case true =>
    have hbound : f.registry.arity ≤ query.length := by omega
    rw [hf.specialization?_of_frozen hfrozen, Option.isSome_iff_ne_none] at hloop
    rw [hg.specialization?_of_frozen (h.frozen hfrozen), h.registry.arity_eq,
      Option.isSome_iff_ne_none]
    -- What would take the element types is among the entries still.
    refine mt (fun hnone => ?_) hloop
    rw [Dispatch.select_eq_none_iff hbound] at hnone ⊢
    exact fun loop hmem => hnone loop (h.registry.entries.subset hmem)

theorem resolve_of_frozen (hfrozen : f.lifecycle.isFrozen = true)
    (hmissing : f.specialization? query = none) (engine : Engine) :
    f.registry.resolve f.name query true (!true) engine =
      (.error (.noMatch f.name query), f.registry, engine) := by
  rw [specialization?, if_pos hfrozen, Option.map_eq_none_iff] at hmissing
  rw [Registry.resolve, if_pos rfl, Registry.resolveFrozen, hmissing]

/-- How typing a call site can come out. -/
inductive Typing (f : DynamicFunction) (types : List OperandType) (engine : Engine) (m : Memory) :
    Except Error CallSignature × Machine → Prop
  | refused {e : Error} {engine' : Engine} :
      Typing f types engine m (.error e, ⟨f, engine', m⟩)
  | stored {query : List DType} (site : Dispatch.siteTypes f.arity types = .ok query)
      (found : (f.specialization? query).isSome = true) :
      Typing f types engine m (.ok (.void types), ⟨f, engine, m⟩)
  | compiled {query : List DType} {entry : Specialization} {engine' : Engine}
      (site : Dispatch.siteTypes f.arity types = .ok query)
      (opened : f.lifecycle.isFrozen = false)
      (grows : f.registry.Grows engine (f.registry.append entry) engine')
      (found : (f.registry.append entry).find? query = some entry) :
      Typing f types engine m (.ok (.void types), ⟨f.grown entry, engine', m⟩)

theorem Sound.typing (h : f.Sound) (types : List OperandType)
    (keywords : List (String × OperandType)) (engine : Engine) (m : Memory) :
    Typing f types engine m ((typeCall types keywords).run ⟨f, engine, m⟩) := by
  unfold typeCall
  rw [Effect.run_get_bind]
  dsimp only
  split
  case h_1 => exact .refused
  case h_2 =>
    rcases hquery : Dispatch.siteTypes f.arity types with e | query
    case error => exact .refused
    case ok =>
      have hcount := (Dispatch.siteTypes_eq_ok hquery).2
      show Typing f types engine m ((if (f.specialization? query).isNone then
        Step.onRegistry (fun registry engine => registry.resolve f.name query f.lifecycle.isFrozen
          (!f.lifecycle.isFrozen) engine) >>= fun r =>
          if r.kind = .compiled then buildTable >>= fun _ => pure (.void types) else pure (.void types)
        else pure (.void types) : Step CallSignature).run ⟨f, engine, m⟩)
      rcases hstored : f.specialization? query with _ | loop
      case some => exact .stored hquery (hstored ▸ rfl)
      rw [if_pos Option.isNone_none]
      rcases hfrozen : f.lifecycle.isFrozen with _ | _
      case true =>
        rw [Effect.run_bind_of_error (Step.onRegistry_of_eq (resolve_of_frozen hfrozen hstored engine))]
        exact .refused
      case false =>
        have hresolving := h.registry.resolve (h.arity_eq ▸ hcount) f.name engine
        have hgrows := h.registry.resolve_grows f.name query false true engine
        generalize hresult : f.registry.resolve f.name query false true engine = result
          at hresolving hgrows
        cases hresolving with
        | found hfound =>
          rw [specialization?_of_open hfrozen] at hstored
          cases hstored.symm.trans hfound
        | refused =>
          rw [Bool.not_false, Effect.run_bind_of_error (Step.onRegistry_of_eq hresult)]
          exact .refused
        | compiled _ _ _ _ _ hfound =>
          rw [Bool.not_false, Effect.run_bind_of_ok (Step.onRegistry_of_eq hresult), if_pos rfl]
          exact .compiled hquery hfrozen hgrows hfound

/-- What typing a call site comes to where it succeeds. -/
structure Typed (f : DynamicFunction) (types : List OperandType) (call : CallSignature)
    (query : List DType) (s : Machine) : Prop where
  call : call = .void types
  types : elementTypes types = .ok query
  count : query.length = f.arity ∨ query.length = f.arity + 1
  found : (s.function.specialization? query).isSome = true

theorem Sound.typed (h : f.Sound) {types : List OperandType}
    {keywords : List (String × OperandType)} {call : CallSignature}
    (htyped : (typeCall types keywords).run ⟨f, engine, m⟩ = (.ok call, s)) :
    ∃ query, Typed f types call query s := by
  have htyping := h.typing types keywords engine m
  rw [htyped] at htyping
  cases htyping with
  | stored site found =>
    obtain ⟨helements, hcount⟩ := Dispatch.siteTypes_eq_ok site
    exact ⟨_, rfl, helements, hcount, found⟩
  | @compiled query entry _ site opened _ found =>
    obtain ⟨helements, hcount⟩ := Dispatch.siteTypes_eq_ok site
    have hgrown : (f.grown entry).specialization? query = some entry :=
      (specialization?_of_open (f := f.grown entry) opened query).trans found
    exact ⟨query, rfl, helements, hcount, Option.isSome_of_mem hgrown⟩

/-- Unless something is added by hand, a frozen function keeps its entries. -/
theorem after_still (hfrozen : f.lifecycle.isFrozen = true) {uses : List Use}
    (hadds : ∀ use ∈ uses, ∀ call, use.operation ≠ .add call) :
    (f.after uses).lifecycle.isFrozen = true ∧ (f.after uses).registry = f.registry := by
  induction uses generalizing f with
  | nil => exact ⟨hfrozen, rfl⟩
  | cons use uses ih =>
    obtain ⟨huse, huses⟩ := List.forall_mem_cons.1 hadds
    obtain ⟨hstill, hregistry, -⟩ :=
      Operation.step_still huse ⟨f, use.engine, use.memory⟩ hfrozen
    obtain ⟨hafter, hsame⟩ := ih hstill huses
    exact ⟨hafter, hsame.trans hregistry⟩

end DynamicFunction

variable {f : DynamicFunction} {query : List DType} {loop : Specialization}

/-- What is looked up is the same again after anything but adding by hand. -/
theorem Reachable.specialization?_after (h : Reachable f)
    (hlen : query.length = f.registry.arity ∨ query.length = f.registry.arity + 1)
    (hloop : f.specialization? query = some loop) {uses : List Use}
    (hadds : ∀ use ∈ uses, ∀ call, use.operation ≠ .add call) :
    (f.after uses).specialization? query = some loop := by
  rcases hfrozen : f.lifecycle.isFrozen with _ | _
  case false =>
    exact (h.descends_after uses).specialization?_of_open h.sound (h.after uses).sound hlen hfrozen
      hloop
  case true =>
    obtain ⟨hafter, hregistry⟩ := DynamicFunction.after_still hfrozen hadds
    rw [DynamicFunction.specialization?, if_pos hafter, hregistry]
    rwa [DynamicFunction.specialization?, if_pos hfrozen] at hloop

/-- Where a call site was typed, its element types have a specialization ever after, whatever the function
goes through. It is what a call of the site runs, and it stays the same unless something is added by hand. -/
theorem Reachable.typed_lowers (h : Reachable f) {types : List OperandType}
    {keywords : List (String × OperandType)} {call : CallSignature} {engine : Engine} {m : Memory}
    {s : Machine}
    (htyped : (DynamicFunction.typeCall types keywords).run ⟨f, engine, m⟩ = (.ok call, s)) :
    ∃ query, elementTypes types = .ok query ∧ ∀ uses : List Use, ∃ loop,
      (s.function.after uses).specialization? query = some loop ∧
      loop ∈ (s.function.after uses).registry.entries ∧
      (∀ args engine m, m.dtypes args = query →
        (DynamicFunction.lowerCall args).run ⟨s.function.after uses, engine, m⟩ =
          (Step.onTable (·.executeWith args loop)).run ⟨s.function.after uses, engine, m⟩) ∧
      (∀ args engine m, m.dtypes args = query → m.WellFormed → (∀ v ∈ args, m.Holds v) →
        ∀ name types, ((DynamicFunction.lowerCall args).run ⟨s.function.after uses, engine, m⟩).1 ≠
          .error (.noMatch name types)) ∧
      ∀ later : List Use, (∀ use ∈ later, ∀ call, use.operation ≠ .add call) →
        ((s.function.after uses).after later).specialization? query = some loop := by
  have hs : Reachable s.function := by
    have hstep := h.step (.typeCall types keywords) engine m
    rwa [Operation.step, Effect.run_bind_of_ok htyped] at hstep
  have hdescends : f.Descends s.function := by
    have hstep := (Operation.typeCall types keywords).step_coheres ⟨f, engine, m⟩ h.coherent
    rw [Operation.step, Effect.run_bind_of_ok htyped] at hstep
    exact hstep.2
  obtain ⟨query, htyped⟩ := h.sound.typed htyped
  have hlen : query.length = s.function.registry.arity ∨
      query.length = s.function.registry.arity + 1 := by
    rw [hdescends.registry.arity_eq, ← h.sound.arity_eq]
    exact htyped.count
  refine ⟨query, htyped.types, fun uses => ?_⟩
  have hafter := hs.after uses
  have hsome := (hs.descends_after uses).specialization?_isSome hs.sound hafter.sound hlen htyped.found
  obtain ⟨loop, hloop⟩ := Option.isSome_iff_exists.1 hsome
  refine ⟨loop, hloop, hafter.sound.mem_of_specialization hloop, ?runs, ?matched, ?stable⟩
  case runs =>
    intro args engine m hargs
    exact DynamicFunction.lowerCall_of_some (hargs ▸ hloop)
  case matched =>
    intro args engine m hargs hm hheld name types he
    rcases hafter.sound.lowerCall_error hm hheld (Prod.ext he rfl) with ⟨-, hnone⟩ | hfailure
    · rw [hargs, hloop] at hnone
      cases hnone
    · cases hfailure
  case stable =>
    intro later hadds
    refine hafter.specialization?_after ?_ hloop hadds
    rwa [(hs.descends_after uses).registry.arity_eq]

/-- A frozen function widens the types of a call site to its one entry. Adding an entry with just these types
changes what is looked up, and nothing else does. -/
theorem Reachable.typed_lowers_frozenCopy : ∃ s,
    (DynamicFunction.typeCall [.anyArray .float32 1] []).run ⟨frozenCopy, .fresh, .empty⟩ =
      (.ok (.void [.anyArray .float32 1]), s) ∧
    (∃ loop, s.function.specialization? [.float32] = some loop ∧
      (s.function.after [⟨.buildTable, .fresh, .empty⟩]).specialization? [.float32] = some loop) ∧
    ∃ loop, (s.function.after [⟨.add narrowRows, .fresh, .empty⟩]).specialization? [.float32] =
      some loop ∧ loop.signature = narrowRows := by
  have hresult : ((DynamicFunction.typeCall [.anyArray .float32 1] []).run
      ⟨frozenCopy, .fresh, .empty⟩).1 = .ok (.void [.anyArray .float32 1]) := by decide +kernel
  obtain ⟨query, hquery, hlowers⟩ := Reachable.typed_lowers reachable_frozenCopy (Prod.ext hresult rfl)
  obtain rfl : query = [.float32] := (Except.ok.inj hquery).symm
  refine ⟨_, Prod.ext hresult rfl, ?_, ?_⟩
  · obtain ⟨loop, hloop, -, -, -, hstable⟩ := hlowers []
    exact ⟨loop, hloop, hstable [⟨.buildTable, .fresh, .empty⟩] (by simp)⟩
  · obtain ⟨loop, hloop, -⟩ := hlowers [⟨.add narrowRows, .fresh, .empty⟩]
    have hsignature : ((frozenCopy.after
        [⟨.add narrowRows, .fresh, .empty⟩]).specialization? [.float32]).map (·.signature) =
          some narrowRows := by decide +kernel
    have hsame := congrArg (Option.map (·.signature)) hloop
    exact ⟨loop, hloop, Option.some.inj (hsame.symm.trans hsignature)⟩

end Corewise
