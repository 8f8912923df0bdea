import Corewise.Proofs.Registry.Scan
/-!
Look-ups of a registry by casting rules. What is looked up is the key of the entry that a table of all
entries selects, and no entry before that one has the same key, so the two name one entry. That entry has the
types that it was looked up by, so looking them up changes nothing any more.
-/

namespace Corewise

/-- The first element for which `p` holds is also the first for which `q` holds, if `q` holds of it and
`p` wherever `q` does. -/
theorem find?_eq_some_of_imp {α : Type} {p q : α → Bool} {l : List α} {a : α}
    (h : l.find? p = some a) (hq : q a = true) (himp : ∀ b, q b = true → p b = true) :
    l.find? q = some a := by
  obtain ⟨-, before, after, rfl, hbefore⟩ := List.find?_eq_some_iff_append.1 h
  refine List.find?_eq_some_iff_append.2 ⟨hq, before, after, rfl, fun b hb => ?_⟩
  rw [Bool.not_eq_true', Bool.eq_false_iff]
  intro hqb
  have hp := hbefore b hb
  rw [himp b hqb] at hp
  cases hp

namespace LoopTypes

/-- Without outputs to compare, only the inputs of a loop count. -/
theorem isExact_congr {a b : LoopTypes} (h : a.inputs = b.inputs) (inputs : List DType) :
    a.isExact inputs [] = b.isExact inputs [] := by
  rw [isExact, isExact, h]
  rfl

theorem accepts_congr {a b : LoopTypes} (h : a.inputs = b.inputs) (inputs : List DType) :
    a.accepts inputs [] = b.accepts inputs [] := by
  simp only [accepts, h, List.zip_nil_left, List.all_nil, List.length_nil, Nat.zero_le]

end LoopTypes

/-- An entry is known by so many types of its key as are asked for. -/
theorem Specialization.Valid.take_key {recipe : Recipe} {s : Specialization} (h : s.Valid recipe)
    {n : Nat} (hn : n = recipe.signature.arity ∨ n = recipe.signature.arity + 1) :
    s.key.take n = if n = recipe.signature.arity then s.key.take recipe.signature.arity else s.key := by
  rcases hn with rfl | rfl
  · exact (if_pos rfl).symm
  · rw [if_neg (Nat.succ_ne_self _), List.take_of_length_le (Nat.le_of_eq h.length_key)]

theorem Specialization.Valid.exact_iff {recipe : Recipe} {s : Specialization} (h : s.Valid recipe)
    {query : List DType} (hlen : query.length = recipe.signature.arity ∨
      query.length = recipe.signature.arity + 1) :
    Dispatch.Exact (types recipe.signature.arity) recipe.signature.arity query s ↔
      s.key.take query.length = query := by
  rw [Dispatch.Exact, ← LoopTypes.isExact_iff, h.isExact_iff hlen, ← h.take_key hlen, beq_iff_eq]

theorem Specialization.all_types (arity : Nat) (s : Specialization) : (s.types arity).all = s.key :=
  List.take_append_drop arity s.key

namespace Registry

variable {r : Registry} {s : Specialization} {query : List DType}

/-- The first entry of which something holds that depends on its input types alone, and where `query` has
more types than that on its output type, is the first with its types. -/
theorem Sound.find?_take (h : r.Sound) {p : LoopTypes → Bool} {n : Nat} (hn : r.arity ≤ n)
    (hp : n = r.arity → ∀ a b : LoopTypes, a.inputs = b.inputs → p a = p b)
    (hs : r.entries.find? (fun s => p (s.types r.arity)) = some s) :
    r.find? (s.key.take n) = some s := by
  have hholds : p (s.types r.arity) = true :=
    List.find?_some (p := fun s : Specialization => p (s.types r.arity)) hs
  have hkey := (h.valid s (List.mem_of_find?_eq_some hs)).length_key
  have harity : r.recipe.signature.arity = r.arity := rfl
  rw [h.find?_eq]
  -- The index of the inputs answers where no output is asked for, the one of whole keys elsewhere.
  rcases Nat.eq_or_lt_of_le hn with heq | hlt
  case inl =>
    obtain rfl := heq
    have hlen : (s.key.take r.arity).length = r.arity := by
      rw [List.length_take]
      omega
    simp only [if_pos hlen]
    refine find?_eq_some_of_imp hs (beq_self_eq_true _) fun t ht => ?_
    rw [hp rfl (t.types r.arity) (s.types r.arity) (eq_of_beq ht)]
    exact hholds
  case inr =>
    have hlen : s.key.length ≠ r.arity := by omega
    rw [List.take_of_length_le (by omega)]
    simp only [if_neg hlen]
    refine find?_eq_some_of_imp hs (beq_self_eq_true _) fun t ht => ?_
    rw [Specialization.types, eq_of_beq ht]
    exact hholds

theorem Sound.find?_of_select (h : r.Sound)
    (hs : Dispatch.select (Specialization.types r.arity) r.entries r.arity query = some s) :
    r.find? (s.key.take query.length) = some s := by
  obtain ⟨hlen, hfound⟩ := Dispatch.find?_of_select hs
  have houtputs (heq : query.length = r.arity) : query.drop r.arity = [] :=
    List.drop_eq_nil_of_le (Nat.le_of_eq heq)
  rcases hfound with hexact | haccepts
  case inl =>
    refine h.find?_take (p := (·.isExact (query.take r.arity) (query.drop r.arity))) hlen
      (fun heq a b hinputs => ?_) hexact
    rw [houtputs heq]
    exact LoopTypes.isExact_congr hinputs _
  case inr =>
    refine h.find?_take (p := (·.accepts (query.take r.arity) (query.drop r.arity))) hlen
      (fun heq a b hinputs => ?_) haccepts
    rw [houtputs heq]
    exact LoopTypes.accepts_congr hinputs _

/-- The first entry of which something holds that depends on its element types alone is the first with
its key. -/
theorem Sound.find?_key (h : r.Sound) {p : LoopTypes → Bool}
    (hs : r.entries.find? (fun s => p (s.types r.arity)) = some s) : r.find? s.key = some s := by
  have hkey : s.key.length = r.arity + 1 := (h.valid s (List.mem_of_find?_eq_some hs)).length_key
  have hfound := h.find?_take (n := r.arity + 1) (Nat.le_succ _)
    (fun heq => absurd heq (Nat.succ_ne_self _)) hs
  rwa [List.take_of_length_le (Nat.le_of_eq hkey)] at hfound

/-- What the first entries select is the first entry with its key. -/
theorem Sound.find?_of_select_prefix (h : r.Sound) {loops : List Specialization}
    (hloops : loops <+: r.entries)
    (hs : Dispatch.select (Specialization.types r.arity) loops r.arity query = some s) :
    r.find? s.key = some s := by
  obtain ⟨later, hlater⟩ := hloops
  have hfirst {p : LoopTypes → Bool}
      (hp : loops.find? (fun s => p (s.types r.arity)) = some s) : r.find? s.key = some s := by
    apply h.find?_key (p := p)
    rw [← hlater, List.find?_append, hp, Option.some_or]
  obtain ⟨-, hexact | haccepts⟩ := Dispatch.find?_of_select hs
  · exact hfirst (p := (·.isExact (query.take r.arity) (query.drop r.arity))) hexact
  · exact hfirst (p := (·.accepts (query.take r.arity) (query.drop r.arity))) haccepts

/-- What is found by element types is the first entry with its key. -/
theorem Sound.find?_key_of_find? (h : r.Sound) (hs : r.find? query = some s) :
    r.find? s.key = some s := by
  rw [h.find?_eq] at hs
  apply h.find?_key (p := fun l => (if query.length = r.arity then l.inputs else l.all) == query)
  rw [← hs]
  simp only [Specialization.all_types]
  rfl

/-- Widening element types and looking them up again finds the entry that they were widened to. -/
theorem Sound.findCompatible?_eq (h : r.Sound) (query : List DType) :
    r.findCompatible? query =
      (Dispatch.select (Specialization.types r.arity) r.entries r.arity query).map fun s =>
        (s.key.take query.length, s) := by
  unfold findCompatible?
  rcases hs : Dispatch.select (Specialization.types r.arity) r.entries r.arity query with _ | s
  · rfl
  · rw [Option.bind_eq_bind, Option.bind_some]
    dsimp only
    rw [Specialization.all_types, h.find?_of_select hs]
    rfl

theorem Sound.find?_eq_take (h : r.Sound)
    (hlen : query.length = r.arity ∨ query.length = r.arity + 1) :
    r.find? query = r.entries.find? fun s => s.key.take query.length == query := by
  rw [h.find?_eq]
  refine List.find?_congr fun s hs => ?_
  rw [(h.valid s hs).take_key hlen]
  rfl

theorem Sound.of_find? (h : r.Sound) (hlen : query.length = r.arity ∨ query.length = r.arity + 1)
    (hfound : r.find? query = some s) : s ∈ r.entries ∧ s.key.take query.length = query := by
  rw [h.find?_eq_take hlen] at hfound
  have hkey := List.find?_some hfound
  exact ⟨List.mem_of_find?_eq_some hfound, eq_of_beq hkey⟩

theorem Sound.find?_eq_none_iff (h : r.Sound)
    (hlen : query.length = r.arity ∨ query.length = r.arity + 1) :
    r.find? query = none ↔ ∀ s ∈ r.entries, s.key.take query.length ≠ query := by
  rw [h.find?_eq_take hlen, List.find?_eq_none]
  simp only [beq_iff_eq, ne_eq]

/-- Only as many types are ever matched as entries have, or one less. -/
theorem Sound.length_of_select (h : r.Sound)
    (hs : Dispatch.select (Specialization.types r.arity) r.entries r.arity query = some s) :
    query.length = r.arity ∨ query.length = r.arity + 1 := by
  have hle := Dispatch.le_of_select hs
  have hge := Dispatch.length_le_of_select hs
  have hkey : s.key.length = r.arity + 1 := (h.valid s (Dispatch.mem_of_select hs)).length_key
  have houtputs : (s.types r.arity).outputs.length = 1 := by
    show (s.key.drop r.arity).length = 1
    rw [List.length_drop, hkey, Nat.add_sub_cancel_left]
  omega

theorem Sound.length_of_exact (h : r.Sound) (hs : s ∈ r.entries)
    (hexact : Dispatch.Exact (Specialization.types r.arity) r.arity query s) :
    query.length = r.arity ∨ query.length = r.arity + 1 := by
  have hkey : s.key.length = r.arity + 1 := (h.valid s hs).length_key
  have hinputs := congrArg List.length hexact.inputs
  have houtputs := hexact.outputs.length_le
  simp only [Specialization.types, List.length_take, List.length_drop, hkey] at hinputs houtputs
  omega

theorem Sound.findCompatible?_of_find? (h : r.Sound)
    (hlen : query.length = r.arity ∨ query.length = r.arity + 1) (hfound : r.find? query = some s) :
    r.findCompatible? query = some (query, s) := by
  rw [h.findCompatible?_eq, h.select_of_find? hlen hfound, Option.map_some, (h.of_find? hlen hfound).2]

/-- What a look-up has widened to are types that the entry is found by. -/
theorem Sound.of_findCompatible? (h : r.Sound) {widened : List DType}
    (hs : r.findCompatible? query = some (widened, s)) :
    (widened.length = r.arity ∨ widened.length = r.arity + 1) ∧ r.find? widened = some s := by
  rw [h.findCompatible?_eq, Option.map_eq_some_iff] at hs
  obtain ⟨s, hselect, heq⟩ := hs
  cases heq
  have hlen := h.length_of_select hselect
  have hkey : s.key.length = r.arity + 1 := (h.valid s (Dispatch.mem_of_select hselect)).length_key
  rw [List.length_take]
  exact ⟨by omega, h.find?_of_select hselect⟩

theorem Sound.findCompatible?_widened (h : r.Sound) {widened : List DType}
    (hs : r.findCompatible? query = some (widened, s)) :
    r.findCompatible? widened = some (widened, s) := by
  obtain ⟨hlen, hfound⟩ := h.of_findCompatible? hs
  exact h.findCompatible?_of_find? hlen hfound

/-- Looking up by casting rules finds the entry that a table of all entries selects, with the types of that
entry for those asked for. It finds the same again by these types, and leaves types alone that some entry has
exactly, of which it finds the first. -/
theorem Reachable.widens_to_selected (h : r.Reachable) (query : List DType) :
    r.findCompatible? query =
      (Dispatch.select (Specialization.types r.arity) r.entries r.arity query).map
        (fun s => ((s.types r.arity).all.take query.length, s)) ∧
    (∀ widened s, r.findCompatible? query = some (widened, s) →
      r.findCompatible? widened = some (widened, s)) ∧
    ∀ s ∈ r.entries, Dispatch.Exact (Specialization.types r.arity) r.arity query s →
      ∃ first, r.find? query = some first ∧ r.findCompatible? query = some (query, first) := by
  have hr := h.sound
  refine ⟨?_, fun widened s => hr.findCompatible?_widened, fun s hs hexact => ?_⟩
  · simp only [Specialization.all_types]
    exact hr.findCompatible?_eq query
  · have hlen := hr.length_of_exact hs hexact
    have hkey := ((hr.valid s hs).exact_iff hlen).1 hexact
    rcases hfound : r.find? query with _ | first
    · exact absurd hkey ((hr.find?_eq_none_iff hlen).1 hfound s hs)
    · exact ⟨first, rfl, hr.findCompatible?_of_find? hlen hfound⟩

/-- Integers are widened to floats, which are found in the older of the two layouts. -/
theorem Reachable.widens_to_selected_twoLayouts :
    ∃ s, s.signature = floatRows .any ∧
      twoLayouts.findCompatible? [.int32, .float32] = some ([.float64, .float64], s) ∧
      twoLayouts.findCompatible? [.float64, .float64] = some ([.float64, .float64], s) ∧
      twoLayouts.find? [.float64, .float64] = some s := by
  obtain ⟨hselected, hfixed, -⟩ :=
    Reachable.widens_to_selected reachable_twoLayouts [.int32, .float32]
  obtain ⟨-, -, hexact⟩ := Reachable.widens_to_selected reachable_twoLayouts [.float64, .float64]
  have hlt : 0 < twoLayouts.entries.length := by decide +kernel
  have hwidened : twoLayouts.findCompatible? [.int32, .float32] =
      some ([.float64, .float64], twoLayouts.entries[0]) := by
    rw [hselected]
    rfl
  have hagain := hfixed _ _ hwidened
  obtain ⟨first, hfound, hfirst⟩ := hexact twoLayouts.entries[0] (List.getElem_mem hlt)
    ⟨rfl, [], rfl⟩
  cases hagain.symm.trans hfirst
  exact ⟨_, rfl, hwidened, hagain, hfound⟩

end Registry

end Corewise
