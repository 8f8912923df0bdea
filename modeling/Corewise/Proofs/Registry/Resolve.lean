import Corewise.Proofs.Registry.Compatible
/-!
What resolving element types reports. A stored entry comes with the types that it was found by, a new one only
where no entry had the types asked for, and nothing else ever changes the registry. What has been compiled for
element types is found by them, so no look-up is lost.
-/

namespace Corewise

theorem DType.castsSafely_self (dtype : DType) : dtype.castsSafely dtype = true := by
  simp [castsSafely]

/-- The inputs of a query cast safely to those of the loop that is selected for it. -/
theorem Dispatch.castsSafely_of_select {α : Type} {types : α → LoopTypes} {loops : List α} {arity : Nat}
    {query : List DType} {loop : α} (h : select types loops arity query = some loop) :
    List.Forall₂ (fun given taken => given.castsSafely taken = true) (query.take arity)
      (types loop).inputs := by
  rcases exact_or_compatible h with hexact | hcompatible
  · rw [hexact.inputs]
    exact List.forall₂_same.2 fun dtype _ => dtype.castsSafely_self
  · exact hcompatible.inputs

namespace Registry

variable {r r' : Registry} {s : Specialization} {call : CallSignature} {engine engine' : Engine}
  {query widened : List DType} {function : String} {frozen mayCompile : Bool}

/-- An entry has been made for the element types, and still none is found for them. -/
def Loses (r : Registry) (query : List DType) (engine : Engine) : Prop :=
  ∃ s r' engine', r.insert (Dispatch.synthesize r.recipe.signature query) engine =
    (.ok s, r', engine') ∧ r'.find? query = none

/-- What a resolution says of a registry as it was before and as it is after. -/
structure Reports (r : Registry) (query : List DType) (resolution : Resolution) (r' : Registry) :
    Prop where
  stored : ∃ s ∈ r'.entries, s.signature = resolution.signature ∧
    s.key.take query.length = resolution.types
  widened : resolution.types ≠ query ↔ resolution.kind = .compatible
  reused : resolution.kind ≠ .compiled → r' = r ∧
    List.Forall₂ (fun given taken => given.castsSafely taken = true) (query.take r.arity)
      (resolution.types.take r.arity)
  compiled : resolution.kind = .compiled →
    (∃ s, r'.entries = r.entries ++ [s] ∧ s.signature = resolution.signature) ∧
      ∀ s ∈ r.entries, s.key.take query.length ≠ query

theorem Insertion.stored (hi : Insertion r call engine (.ok s, r', engine')) :
    s ∈ r'.entries ∧ s.signature = call := by
  cases hi with
  | present mem signature => exact ⟨mem, signature⟩
  | compiled => exact ⟨List.mem_append_right _ (List.mem_singleton_self _), rfl⟩

theorem Sound.not_loses (h : r.Sound) (hlen : query.length = r.arity ∨ query.length = r.arity + 1)
    (engine : Engine) : ¬ r.Loses query engine := by
  rintro ⟨s, r', engine', hinsert, hnone⟩
  have hinsertion := h.insert (Dispatch.synthesize r.recipe.signature query) engine
  rw [hinsert] at hinsertion
  obtain ⟨hs, hsignature⟩ := hinsertion.stored
  have hgrows := hinsertion.grows h
  have harity : r'.arity = r.arity := hgrows.precedes.arity_eq
  have hvalid : s.Valid r.recipe := by
    have hvalid := hgrows.sound.valid s hs
    rwa [hgrows.recipe] at hvalid
  have hkey : s.key.take query.length = query :=
    (hvalid.take_key hlen).trans (key_of_synthesize hvalid hlen hsignature)
  exact (hgrows.sound.find?_eq_none_iff (harity.symm ▸ hlen)).1 hnone s hs hkey

theorem Sound.reports_compatible (h : r.Sound) (hs : r.findCompatible? query = some (widened, s)) :
    r.Reports query ⟨s.signature, widened, if widened = query then .exact else .compatible⟩ r := by
  rw [h.findCompatible?_eq, Option.map_eq_some_iff] at hs
  obtain ⟨s, hselect, heq⟩ := hs
  cases heq
  have hlen := h.length_of_select hselect
  have hmem := Dispatch.mem_of_select hselect
  constructor
  case stored => exact ⟨s, hmem, rfl, rfl⟩
  case widened =>
    dsimp only
    split <;> simp [*]
  case reused =>
    refine fun _ => ⟨rfl, ?_⟩
    have hsafe := Dispatch.castsSafely_of_select hselect
    rwa [List.take_take, Nat.min_eq_left (by omega)]
  case compiled =>
    dsimp only
    split <;> nofun

theorem Sound.reports_resolving (h : r.Sound)
    (hlen : query.length = r.arity ∨ query.length = r.arity + 1) {resolution : Resolution}
    (hr : Resolving r query engine (.ok resolution, r', engine')) : r.Reports query resolution r' := by
  cases hr with
  | found hfound =>
    have hreports := h.reports_compatible (h.findCompatible?_of_find? hlen hfound)
    rwa [if_pos rfl] at hreports
  | @compiled s _ missing absent signature compile valid found =>
    constructor
    case stored =>
      have hsound := h.append valid absent
      obtain ⟨hmem, hkey⟩ := hsound.of_find? hlen found
      exact ⟨s, hmem, rfl, hkey⟩
    case widened => exact ⟨fun hne => absurd rfl hne, nofun⟩
    case reused => exact fun hne => absurd rfl hne
    case compiled => exact fun _ => ⟨⟨s, rfl, rfl⟩, (h.find?_eq_none_iff hlen).1 missing⟩

/-- Where nothing may be compiled, an exact entry is what casting rules find, too, so it makes no difference
whether the look-up is frozen. -/
theorem Sound.resolve_of_fixed (h : r.Sound)
    (hlen : query.length = r.arity ∨ query.length = r.arity + 1)
    (hfixed : frozen = true ∨ mayCompile = false) :
    r.resolve function query frozen mayCompile engine = (r.resolveFrozen function query, r, engine) := by
  cases frozen with
  | true => rfl
  | false =>
    obtain rfl : mayCompile = false := hfixed.resolve_left Bool.false_ne_true
    unfold Registry.resolve resolveFrozen
    rw [if_neg Bool.false_ne_true]
    rcases hfound : r.find? query with _ | s
    · rcases hcompatible : r.findCompatible? query with _ | ⟨widened, s⟩
      · rfl
      · have hne : widened ≠ query := by
          rintro rfl
          rw [(h.of_findCompatible? hcompatible).2] at hfound
          cases hfound
        dsimp only
        rw [if_neg Bool.false_ne_true, if_neg hne]
    · rw [h.findCompatible?_of_find? hlen hfound]
      dsimp only
      rw [if_pos rfl]

/-- How a look-up can fail: where nothing may be compiled, for want of an entry that takes the types, and
otherwise by what the compiler has against the signature that stands for them. -/
inductive Fails (r : Registry) (function : String) (query : List DType) (frozen mayCompile : Bool) :
    Error → Prop
  | unmatched (fixed : frozen = true ∨ mayCompile = false)
      (unselected : Dispatch.select (Specialization.types r.arity) r.entries r.arity query = none) :
      Fails r function query frozen mayCompile (.noMatch function query)
  | refused (opened : frozen = false) (compiling : mayCompile = true)
      (missing : r.find? query = none) {reason : Refusal}
      (declined : Compiler.entry r.recipe (Dispatch.synthesize r.recipe.signature query) =
        .error reason) : Fails r function query frozen mayCompile
        (.compilation r.recipe.kernel.name (Dispatch.synthesize r.recipe.signature query) reason)

theorem Sound.resolveFrozen_cases (h : r.Sound) (function : String) (query : List DType) :
    (Dispatch.select (Specialization.types r.arity) r.entries r.arity query = none ∧
      r.resolveFrozen function query = .error (.noMatch function query)) ∨
    ∃ resolution, r.resolveFrozen function query = .ok resolution ∧ r.Reports query resolution r := by
  unfold resolveFrozen
  rcases hs : r.findCompatible? query with _ | ⟨widened, s⟩
  · rw [h.findCompatible?_eq, Option.map_eq_none_iff] at hs
    exact .inl ⟨hs, rfl⟩
  · exact .inr ⟨_, rfl, h.reports_compatible hs⟩

theorem Resolving.fails {e : Error} (hr : Resolving r query engine (.error e, r', engine'))
    (function : String) : r' = r ∧ r.Fails function query false true e := by
  cases hr with
  | refused missing compile =>
    obtain ⟨reason, hdeclined, rfl, -⟩ := Compiler.compile_eq_error_iff.1 compile
    exact ⟨rfl, .refused rfl rfl missing hdeclined⟩

/-- Element types of the inputs or of all operands are resolved to a stored entry, as reported, or not at all,
and then the registry is left as it was. No look-up is lost after compiling for it, and where nothing may be
compiled nothing changes. -/
theorem Reachable.resolve_reports (h : r.Reachable) (query : List DType)
    (hlen : query.length = r.arity ∨ query.length = r.arity + 1) (function : String)
    (frozen mayCompile : Bool) (engine : Engine) :
    ¬ r.Loses query engine ∧
    (∀ resolution r' engine',
      r.resolve function query frozen mayCompile engine = (.ok resolution, r', engine') →
      r.Reports query resolution r') ∧
    (∀ e r' engine', r.resolve function query frozen mayCompile engine = (.error e, r', engine') →
      r' = r ∧ r.Fails function query frozen mayCompile e) ∧
    (frozen = true ∨ mayCompile = false →
      (r.resolve function query frozen mayCompile engine).2.1 = r) := by
  have hr := h.sound
  refine ⟨hr.not_loses hlen engine, ?_⟩
  by_cases hfixed : frozen = true ∨ mayCompile = false
  case pos =>
    rw [hr.resolve_of_fixed hlen hfixed]
    rcases hr.resolveFrozen_cases function query with ⟨hnone, herror⟩ | ⟨resolution, hok, hreports⟩
    · rw [herror]
      refine ⟨fun resolution r' engine' heq => ?_, fun e r' engine' heq => ?_, fun _ => rfl⟩
      · cases (Prod.mk.inj heq).1
      · cases heq
        exact ⟨rfl, .unmatched hfixed hnone⟩
    · rw [hok]
      refine ⟨fun resolution r' engine' heq => ?_, fun e r' engine' heq => ?_, fun _ => rfl⟩
      · cases heq
        exact hreports
      · cases (Prod.mk.inj heq).1
  case neg =>
    obtain ⟨rfl, rfl⟩ : frozen = false ∧ mayCompile = true := by simpa using hfixed
    have hresolving := hr.resolve hlen function engine
    refine ⟨?_, ?_, fun hfixed' => absurd hfixed' hfixed⟩
    · intro resolution r' engine' heq
      rw [heq] at hresolving
      exact hr.reports_resolving hlen hresolving
    · intro e r' engine' heq
      rw [heq] at hresolving
      exact hresolving.fails function

/-- Integers are compiled for behind the two entries, or widened where nothing may be compiled any more. -/
theorem Reachable.resolve_reports_twoLayouts :
    (∃ resolution r' engine', twoLayouts.resolve "copy" [.int32] false true .fresh =
        (.ok resolution, r', engine') ∧ resolution.kind = .compiled ∧
      r'.entries.length = twoLayouts.entries.length + 1) ∧
    ∃ resolution, twoLayouts.resolve "copy" [.int32] true true .fresh =
        (.ok resolution, twoLayouts, .fresh) ∧ resolution.kind = .compatible ∧
      resolution.types ≠ [.int32] := by
  constructor
  · obtain ⟨-, hreports, -⟩ := Reachable.resolve_reports reachable_twoLayouts [.int32] (.inl rfl)
      "copy" false true .fresh
    refine ⟨_, _, _, rfl, rfl, ?_⟩
    obtain ⟨⟨s, hentries, -⟩, -⟩ := (hreports _ _ _ rfl).compiled rfl
    rw [hentries, List.length_append, List.length_singleton]
  · obtain ⟨-, hreports, -⟩ := Reachable.resolve_reports reachable_twoLayouts [.int32] (.inl rfl)
      "copy" true true .fresh
    refine ⟨_, rfl, rfl, ?_⟩
    exact (hreports _ _ _ rfl).widened.2 rfl

end Registry

end Corewise
