import Corewise.Registry
import Corewise.Proofs.Compiler
import Corewise.Proofs.Dispatch
import Mathlib.Data.List.Find
import Mathlib.Data.List.Nodup
/-!
Registries that only their own operations have touched. Each index names the first entry under a key, so
a look-up finds the first entry with the element types asked for, and every entry is what the compiler
made for its call signature.
-/

namespace Corewise

/-- The index names the first position of each key. -/
def Index.Tracks {α : Type} [BEq α] (i : Index α) (keys : List α) : Prop :=
  ∀ key, i.find? key = keys.idxOf? key

theorem Index.tracks_empty {α : Type} [BEq α] : (Index.empty : Index α).Tracks [] := fun _ => rfl

theorem Index.Tracks.idxOf?_append {α : Type} [BEq α] {i : Index α} {keys : List α}
    (h : i.Tracks keys) (key key' : α) : (keys ++ [key]).idxOf? key' =
      (i.find? key').or (if key == key' then some keys.length else none) := by
  rw [h key', List.idxOf?, List.findIdx?_append]
  congr 1
  by_cases hkey : key == key' <;> simp [hkey]

theorem Index.Tracks.insertIfNew {α : Type} [BEq α] [LawfulBEq α] {i : Index α} {keys : List α}
    (h : i.Tracks keys) (key : α) : (i.insertIfNew key keys.length).Tracks (keys ++ [key]) := by
  intro key'
  rw [h.idxOf?_append key key']
  unfold Index.insertIfNew
  split
  case isTrue hsome =>
    by_cases hkey : key == key'
    · cases eq_of_beq hkey
      rw [Option.or_of_isSome hsome]
    · rw [if_neg hkey, Option.or_none]
  case isFalse hnone =>
    show (i.positions ++ [(key, keys.length)]).lookup key' = _
    rw [List.lookup_append]
    congr 1
    rw [List.lookup_cons, List.lookup_nil]
    by_cases hkey : key == key'
    · rw [if_pos hkey, BEq.comm, hkey]
    · rw [if_neg hkey, BEq.comm, Bool.eq_false_iff.2 hkey]

/-- Where nothing is hidden, the new position is the first. -/
theorem Index.Tracks.insert {α : Type} [BEq α] [LawfulBEq α] {i : Index α} {keys : List α}
    (h : i.Tracks keys) {key : α} (habsent : key ∉ keys) :
    (i.insert key keys.length).Tracks (keys ++ [key]) := by
  intro key'
  rw [h.idxOf?_append key key']
  show ((key, keys.length) :: i.positions).lookup key' = _
  rw [List.lookup_cons]
  by_cases hkey : key == key'
  case pos =>
    cases eq_of_beq hkey
    have hmissing : i.find? key = none := by
      rw [h key]
      exact List.idxOf?_eq_none_iff.2 habsent
    rw [hmissing, Option.none_or, beq_self_eq_true, if_pos rfl]
  case neg =>
    rw [if_neg hkey, Option.or_none, BEq.comm, Bool.eq_false_iff.2 hkey]
    rfl

theorem Index.Tracks.map_insertIfNew {α β : Type} [BEq β] [LawfulBEq β] {i : Index β} {f : α → β}
    {entries : List α} (h : i.Tracks (entries.map f)) (a : α) :
    (i.insertIfNew (f a) entries.length).Tracks ((entries ++ [a]).map f) := by
  have hindex := h.insertIfNew (f a)
  rw [List.length_map] at hindex
  rw [List.map_append]
  exact hindex

theorem Index.Tracks.map_insert {α β : Type} [BEq β] [LawfulBEq β] {i : Index β} {f : α → β}
    {entries : List α} (h : i.Tracks (entries.map f)) {a : α} (habsent : f a ∉ entries.map f) :
    (i.insert (f a) entries.length).Tracks ((entries ++ [a]).map f) := by
  have hindex := h.insert habsent
  rw [List.length_map] at hindex
  rw [List.map_append]
  exact hindex

/-- Looking up a position and then the entry there finds the first entry with the key. -/
theorem Index.Tracks.find? {α β : Type} [BEq β] {i : Index β} {f : α → β} {entries : List α}
    (h : i.Tracks (entries.map f)) (key : β) :
    (i.find? key).bind (entries[·]?) = entries.find? fun a => f a == key := by
  rw [h key, List.find?_eq_bind_findIdx?_getElem?, List.idxOf?, List.findIdx?_map]
  rfl

theorem elementTypes_eq_ok {types : List OperandType} {key : List DType} :
    elementTypes types = .ok key ↔
      List.Forall₂ (fun type dtype => type.element? = some dtype) types key := by
  have hfst : types = types.zipIdx.map Prod.fst := (List.zipIdx_map_fst 0 types).symm
  rw [elementTypes, Effect.mapM_eq_ok]
  conv_rhs => rw [hfst, List.forall₂_map_left_iff]
  constructor
  case mp =>
    refine List.Forall₂.imp fun p dtype h => ?_
    split at h
    case h_1 found =>
      cases h
      exact found
    case h_2 => cases h
  case mpr =>
    refine List.Forall₂.imp fun p dtype h => ?_
    rw [h]

/-- What the compiler takes has element types. -/
theorem Compiler.Checked.elementTypes {signature : CoreSignature} {call : CallSignature}
    (h : Checked signature call) : ∃ key, elementTypes call.args = .ok key := by
  refine ⟨call.args.map fun type => type.element?.getD default, ?_⟩
  rw [elementTypes_eq_ok, List.forall₂_map_right_iff, List.forall₂_same]
  intro type htype
  obtain ⟨i, hi⟩ := List.mem_iff_getElem?.1 htype
  have hrank : i < signature.kernelRanks.length := by
    rw [signature.length_kernelRanks, ← h.count]
    exact (List.getElem?_eq_some_iff.1 hi).1
  obtain ⟨dtype, helement⟩ := (h.fits i _ type (List.getElem?_eq_getElem hrank) hi).element
  rw [helement, Option.getD_some]

namespace Dispatch

theorem element?_inputType (core : Core) (dtype : DType) :
    (inputType core dtype).element? = some dtype := by
  unfold inputType
  split <;> rfl

theorem forall₂_zipWith_inputType {cores : List Core} {query : List DType}
    (hlen : cores.length ≤ query.length) :
    List.Forall₂ (fun type dtype => type.element? = some dtype)
      (List.zipWith inputType cores query) (query.take cores.length) := by
  induction cores generalizing query with
  | nil => exact .nil
  | cons core cores ih =>
    cases query with
    | nil => cases hlen
    | cons dtype query =>
      exact .cons (element?_inputType core dtype) (ih (Nat.le_of_succ_le_succ hlen))

/-- Element types of the signature that a choice of element types stands for. -/
theorem elementTypes_synthesize {signature : CoreSignature} {query : List DType}
    (hlen : signature.arity ≤ query.length) :
    elementTypes (synthesize signature query).args =
      .ok (query.take signature.arity ++
        (query[signature.arity]? <|> query.getLast?).toList) := by
  rw [elementTypes_eq_ok]
  refine List.rel_append (forall₂_zipWith_inputType hlen) ?_
  generalize (query[signature.arity]? <|> query.getLast?) = output
  cases output with
  | none => exact .nil
  | some dtype => exact .cons rfl .nil

end Dispatch

/-- An entry as the compiler made it for its call signature. -/
structure Specialization.Valid (recipe : Recipe) (s : Specialization) : Prop where
  serves : s.artifact.Serves recipe
  signature : s.artifact.signature = s.signature
  key : elementTypes s.signature.args = .ok s.key

/-- The entry is what the compiler makes of its signature after so many compilations. -/
def Specialization.MadeAfter (recipe : Recipe) (compilations : Nat) (s : Specialization) : Prop :=
  ∀ failures, Compiler.compile recipe s.signature ⟨compilations, failures⟩ =
    (.ok s.artifact, ⟨compilations + 1, failures⟩)

theorem Specialization.Valid.length_key {recipe : Recipe} {s : Specialization}
    (h : s.Valid recipe) : s.key.length = recipe.signature.arity + 1 := by
  rw [← (elementTypes_eq_ok.1 h.key).length_eq, ← h.signature]
  exact h.serves.checked.count

/-- The loop of a valid entry has exactly the element types that its key names, or where no output is asked
for those that it names first. -/
theorem Specialization.Valid.isExact_iff {recipe : Recipe} {s : Specialization}
    (h : s.Valid recipe) {query : List DType} (hlen : query.length = recipe.signature.arity ∨
      query.length = recipe.signature.arity + 1) :
    (s.types recipe.signature.arity).isExact (query.take recipe.signature.arity)
      (query.drop recipe.signature.arity) =
        ((if query.length = recipe.signature.arity then s.key.take recipe.signature.arity
          else s.key) == query) := by
  have hkey := h.length_key
  generalize recipe.signature.arity = arity at hlen hkey
  rw [Bool.eq_iff_iff, LoopTypes.isExact, Bool.and_eq_true, beq_iff_eq, beq_iff_eq,
    List.isPrefixOf_iff_prefix]
  show s.key.take arity = query.take arity ∧ query.drop arity <+: s.key.drop arity ↔ _
  rcases hlen with hlen | hlen
  case inl =>
    rw [if_pos hlen, List.take_of_length_le (Nat.le_of_eq hlen),
      List.drop_eq_nil_of_le (Nat.le_of_eq hlen)]
    exact and_iff_left (List.nil_prefix)
  case inr =>
    have hdrop : (s.key.drop arity).length = (query.drop arity).length := by
      rw [List.length_drop, List.length_drop, hkey, hlen]
    rw [if_neg (by omega)]
    constructor
    case mp =>
      rintro ⟨htake, hprefix⟩
      rw [← List.take_append_drop arity s.key, htake, ← hprefix.eq_of_length hdrop.symm,
        List.take_append_drop]
    case mpr =>
      rintro rfl
      exact ⟨rfl, List.prefix_refl _⟩

namespace Registry

/-- What the operations of a registry keep. -/
structure Sound (r : Registry) : Prop where
  valid : ∀ s ∈ r.entries, s.Valid r.recipe
  distinct : r.signatures.Nodup
  bySignature : r.bySignature.Tracks (r.entries.map (·.signature))
  byKey : r.byKey.Tracks (r.entries.map (·.key))
  byInputs : r.byInputs.Tracks (r.entries.map (·.key.take r.arity))

variable {r : Registry} {s : Specialization} {call : CallSignature} {engine : Engine}
  {query : List DType}

theorem sound_empty (recipe : Recipe) : (empty recipe).Sound where
  valid _ hs := absurd hs List.not_mem_nil
  distinct := List.nodup_nil
  bySignature := Index.tracks_empty
  byKey := Index.tracks_empty
  byInputs := Index.tracks_empty

theorem Sound.append (h : r.Sound) {s : Specialization} (hs : s.Valid r.recipe)
    (habsent : s.signature ∉ r.signatures) : (r.append s).Sound := by
  constructor
  case valid =>
    intro t ht
    rcases List.mem_append.1 ht with ht | ht
    · exact h.valid t ht
    · exact List.mem_singleton.1 ht ▸ hs
  case distinct =>
    show ((r.entries ++ [s]).map (·.signature)).Nodup
    rw [List.map_append, List.map_singleton]
    exact h.distinct.append (List.nodup_singleton _) (List.disjoint_singleton.2 habsent)
  case bySignature => exact h.bySignature.map_insert habsent
  case byKey => exact h.byKey.map_insertIfNew s
  case byInputs => exact h.byInputs.map_insertIfNew s

/-- The first entry with exactly these element types. -/
theorem Sound.find?_eq (h : r.Sound) (query : List DType) :
    r.find? query = r.entries.find? fun s =>
      (if query.length = r.arity then s.key.take r.arity else s.key) == query := by
  unfold Registry.find?
  split
  case isTrue => exact h.byInputs.find? query
  case isFalse => exact h.byKey.find? query

theorem Sound.find?_all (h : r.Sound) (hlen : query.length = r.arity + 1) :
    r.find? query = r.entries.find? fun s => s.key == query := by
  have hne : query.length ≠ r.arity := by omega
  rw [h.find?_eq]
  simp only [if_neg hne]

theorem Sound.find?_all_eq_none (h : r.Sound) (hlen : query.length = r.arity + 1) :
    r.find? query = none ↔ ∀ s ∈ r.entries, s.key ≠ query := by
  rw [h.find?_all hlen, List.find?_eq_none]
  simp only [beq_iff_eq, ne_eq]

theorem Sound.of_find?_all (h : r.Sound) (hlen : query.length = r.arity + 1)
    (hfound : r.find? query = some s) : s ∈ r.entries ∧ s.key = query := by
  rw [h.find?_all hlen] at hfound
  have hkey := List.find?_some hfound
  exact ⟨List.mem_of_find?_eq_some hfound, eq_of_beq hkey⟩

theorem Sound.find?_append (h : r.Sound) {s : Specialization} (hs : s.Valid r.recipe)
    (habsent : s.signature ∉ r.signatures) (hmissing : r.find? query = none)
    (hkey : (if query.length = r.arity then s.key.take r.arity else s.key) = query) :
    (r.append s).find? query = some s := by
  rw [h.find?_eq] at hmissing
  rw [(h.append hs habsent).find?_eq]
  show (r.entries ++ [s]).find? (fun s =>
    (if query.length = r.arity then s.key.take r.arity else s.key) == query) = some s
  rw [List.find?_append, hmissing, Option.none_or]
  exact List.find?_cons_of_pos (beq_iff_eq.2 hkey)

/-- A table of all entries selects the one with exactly the element types asked for. -/
theorem Sound.select_of_find? (h : r.Sound)
    (hlen : query.length = r.arity ∨ query.length = r.arity + 1) (hfound : r.find? query = some s) :
    Dispatch.select (Specialization.types r.arity) r.entries r.arity query = some s := by
  have hexact : (r.entries.find? fun s => (s.types r.arity).isExact (query.take r.arity)
      (query.drop r.arity)) = some s := by
    rw [← hfound, h.find?_eq]
    exact List.find?_congr fun s hs => (h.valid s hs).isExact_iff hlen
  exact Dispatch.select_of_exact (by omega) hexact

/-- How asking a registry for a call signature can end. -/
inductive Insertion (r : Registry) (call : CallSignature) (engine : Engine) :
    Except Error Specialization × Registry × Engine → Prop
  | present {s : Specialization} (mem : s ∈ r.entries) (signature : s.signature = call) :
      Insertion r call engine (.ok s, r, engine)
  | untyped {e : Error} (untyped : elementTypes call.args = .error e) :
      Insertion r call engine (.error e, r, engine)
  | refused {e : Error} {engine' : Engine} (absent : call ∉ r.signatures)
      (compile : Compiler.compile r.recipe call engine = (.error e, engine')) :
      Insertion r call engine (.error e, r, engine')
  | compiled {key : List DType} {artifact : Artifact} {engine' : Engine}
      (absent : call ∉ r.signatures)
      (compile : Compiler.compile r.recipe call engine = (.ok artifact, engine'))
      (valid : Specialization.Valid r.recipe ⟨call, key, artifact⟩) :
      Insertion r call engine (.ok ⟨call, key, artifact⟩, r.append ⟨call, key, artifact⟩, engine')

theorem Sound.insert (h : r.Sound) (call : CallSignature) (engine : Engine) :
    Insertion r call engine (r.insert call engine) := by
  unfold Registry.insert
  rw [h.bySignature.find? call]
  split
  case h_1 s hfound =>
    exact .present (List.mem_of_find?_eq_some hfound) (by simpa using List.find?_some hfound)
  case h_2 hnone =>
    have habsent : call ∉ r.signatures := by
      intro hmem
      obtain ⟨s, hs, rfl⟩ := List.mem_map.1 hmem
      exact absurd (beq_self_eq_true _) (List.find?_eq_none.1 hnone s hs)
    split
    case h_1 e huntyped => exact .untyped huntyped
    case h_2 key hkey =>
      split
      case h_1 e engine' hcompile =>
        exact .refused habsent hcompile
      case h_2 artifact engine' hcompile =>
        obtain ⟨hserves, hsignature, -⟩ := Compiler.compile_eq_ok hcompile
        exact .compiled habsent hcompile ⟨hserves, hsignature, hkey⟩

theorem Sound.eq_of_signature (h : r.Sound) {t : Specialization} (hs : s ∈ r.entries)
    (ht : t ∈ r.entries) (heq : s.signature = t.signature) : s = t :=
  List.inj_on_of_nodup_map h.distinct hs ht heq

theorem Sound.insert_of_mem (h : r.Sound) (hs : s ∈ r.entries) (engine : Engine) :
    r.insert s.signature engine = (.ok s, r, engine) := by
  have hstored : s.signature ∈ r.signatures := List.mem_map_of_mem hs
  have hinsert := h.insert s.signature engine
  generalize r.insert s.signature engine = result at hinsert
  cases hinsert with
  | present mem signature => rw [h.eq_of_signature mem hs signature]
  | untyped huntyped => cases huntyped.symm.trans (h.valid s hs).key
  | refused absent => exact absurd hstored absent
  | compiled absent => exact absurd hstored absent

theorem Sound.insert_of_compile (h : r.Sound) (habsent : call ∉ r.signatures) {key : List DType}
    (hkey : elementTypes call.args = .ok key) {artifact : Artifact} {engine' : Engine}
    (hcompile : Compiler.compile r.recipe call engine = (.ok artifact, engine')) :
    r.insert call engine =
      (.ok ⟨call, key, artifact⟩, r.append ⟨call, key, artifact⟩, engine') := by
  have hinsert := h.insert call engine
  generalize r.insert call engine = result at hinsert
  cases hinsert with
  | present mem signature => exact absurd (signature ▸ List.mem_map_of_mem mem) habsent
  | untyped huntyped => cases huntyped.symm.trans hkey
  | refused _ hrefused => cases hrefused.symm.trans hcompile
  | compiled _ hcompile' valid =>
    cases hcompile'.symm.trans hcompile
    cases valid.key.symm.trans hkey
    rfl

/-- The call signature is stored, or the compiler does not take it. -/
def Declines (r : Registry) (call : CallSignature) : Prop :=
  call ∈ r.signatures ∨ ¬ Compiler.Takes r.recipe call

theorem Sound.insert_of_declines (h : r.Sound) (hdeclines : r.Declines call) (engine : Engine) :
    (r.insert call engine).2.1 = r ∧
      (r.insert call engine).2.2.compilations = engine.compilations := by
  have hinsert := h.insert call engine
  generalize r.insert call engine = result at hinsert
  cases hinsert with
  | present => exact ⟨rfl, rfl⟩
  | untyped => exact ⟨rfl, rfl⟩
  | refused absent hcompile =>
    obtain ⟨-, rfl⟩ := Compiler.compile_eq_error hcompile
    exact ⟨rfl, rfl⟩
  | compiled absent hcompile =>
    exact (hdeclines.elim absent (· (Compiler.takes_of_compile hcompile))).elim

theorem Sound.insert_of_takes (h : r.Sound) (habsent : call ∉ r.signatures)
    (htakes : Compiler.Takes r.recipe call) (engine : Engine) :
    ∃ s, s.signature = call ∧ (r.insert call engine).2.1 = r.append s ∧
      (r.insert call engine).2.2.compilations = engine.compilations + 1 := by
  obtain ⟨key, hkey⟩ := htakes.checked.elementTypes
  obtain ⟨artifact, hcompile⟩ := htakes.compile engine
  rw [h.insert_of_compile habsent hkey hcompile]
  exact ⟨_, rfl, rfl, rfl⟩

/-- What asking leaves of a registry and its compiler: more entries behind those that were there, compiled
in their order and counted. -/
structure Grows (r : Registry) (engine : Engine) (r' : Registry) (engine' : Engine) : Prop where
  sound : r'.Sound
  recipe : r'.recipe = r.recipe
  entries : r.entries <+: r'.entries
  counted : engine'.compilations + r.entries.length = engine.compilations + r'.entries.length
  made : ∀ i s, r'.entries[r.entries.length + i]? = some s →
    s.MadeAfter r.recipe (engine.compilations + i)

/-- The entries of `r'` start with those of `r`. -/
structure Precedes (r r' : Registry) : Prop where
  recipe : r'.recipe = r.recipe
  entries : r.entries <+: r'.entries

theorem Precedes.refl (r : Registry) : r.Precedes r := ⟨rfl, List.prefix_refl _⟩

theorem Precedes.trans {r' r'' : Registry} (h : r.Precedes r') (h' : r'.Precedes r'') :
    r.Precedes r'' := ⟨h'.recipe.trans h.recipe, h.entries.trans h'.entries⟩

theorem Precedes.arity_eq {r' : Registry} (h : r.Precedes r') : r'.arity = r.arity :=
  congrArg (fun recipe : Recipe => recipe.signature.arity) h.recipe

theorem Grows.precedes {r' : Registry} {engine engine' : Engine} (h : r.Grows engine r' engine') :
    r.Precedes r' := ⟨h.recipe, h.entries⟩

theorem Grows.mem_cases {r' : Registry} {engine engine' : Engine} (h : r.Grows engine r' engine')
    (hs : s ∈ r'.entries) :
    s ∈ r.entries ∨ ∃ compilations, s.MadeAfter r.recipe compilations := by
  obtain ⟨i, hi⟩ := List.mem_iff_getElem?.1 hs
  rcases Nat.lt_or_ge i r.entries.length with hlt | hge
  case inl =>
    obtain ⟨later, hlater⟩ := h.entries
    rw [← hlater, List.getElem?_append_left hlt] at hi
    exact .inl (List.mem_of_getElem? hi)
  case inr =>
    rw [← Nat.add_sub_cancel' hge] at hi
    exact .inr ⟨_, h.made _ s hi⟩

theorem Grows.trans {r' r'' : Registry} {engine engine' engine'' : Engine}
    (h : r.Grows engine r' engine') (h' : r'.Grows engine' r'' engine'') :
    r.Grows engine r'' engine'' where
  sound := h'.sound
  recipe := h'.recipe.trans h.recipe
  entries := h.entries.trans h'.entries
  counted := by
    have hcounted := h.counted
    have hcounted' := h'.counted
    omega
  made i s hs := by
    have hcounted := h.counted
    have hle := h.entries.length_le
    rcases Nat.lt_or_ge (r.entries.length + i) r'.entries.length with hlt | hge
    case inl =>
      obtain ⟨later, hlater⟩ := h'.entries
      rw [← hlater, List.getElem?_append_left hlt] at hs
      exact h.made i s hs
    case inr =>
      obtain ⟨k, hk⟩ := Nat.exists_eq_add_of_le hge
      rw [hk] at hs
      rw [← h.recipe, show engine.compilations + i = engine'.compilations + k by omega]
      exact h'.made k s hs

/-- The entries are what one compiler makes of their signatures in a row. -/
def Numbered (r : Registry) : Prop :=
  ∀ (i : Nat) (s : Specialization), r.entries[i]? = some s → s.MadeAfter r.recipe i

theorem numbered_empty (recipe : Recipe) : (empty recipe).Numbered := fun _ _ hs => nomatch hs

theorem Grows.numbered {r' : Registry} {engine engine' : Engine} (h : r.Grows engine r' engine')
    (hcounted : engine.compilations = r.entries.length) (hr : r.Numbered) : r'.Numbered := by
  intro i s hs
  rw [h.recipe]
  rcases Nat.lt_or_ge i r.entries.length with hlt | hge
  case inl =>
    obtain ⟨later, hlater⟩ := h.entries
    rw [← hlater, List.getElem?_append_left hlt] at hs
    exact hr i s hs
  case inr =>
    obtain ⟨k, rfl⟩ := Nat.exists_eq_add_of_le hge
    rw [← hcounted]
    exact h.made k s hs

/-- What is found stays found, since what comes later comes behind it. -/
theorem Sound.find?_of_precedes (h : r.Sound) {r' : Registry} (h' : r'.Sound)
    (hprecedes : r.Precedes r') (hfound : r.find? query = some s) : r'.find? query = some s := by
  obtain ⟨later, hlater⟩ := hprecedes.entries
  rw [h.find?_eq] at hfound
  rw [h'.find?_eq, hprecedes.arity_eq, ← hlater, List.find?_append, hfound, Option.some_or]

theorem not_made (r : Registry) (i : Nat) (s : Specialization) :
    r.entries[r.entries.length + i]? ≠ some s := by
  rw [List.getElem?_eq_none (Nat.le_add_right _ _)]
  nofun

theorem Sound.grows_refl (h : r.Sound) (engine : Engine) : r.Grows engine r engine :=
  ⟨h, rfl, List.prefix_refl _, rfl, fun i s hs => absurd hs (r.not_made i s)⟩

theorem Insertion.grows {result : Except Error Specialization × Registry × Engine} (h : r.Sound)
    (hi : Insertion r call engine result) : r.Grows engine result.2.1 result.2.2 := by
  cases hi with
  | present => exact h.grows_refl engine
  | untyped => exact h.grows_refl engine
  | refused _ hcompile =>
    obtain ⟨-, rfl⟩ := Compiler.compile_eq_error hcompile
    exact ⟨h, rfl, List.prefix_refl _, rfl, fun i s hs => absurd hs (r.not_made i s)⟩
  | @compiled key artifact _ absent hcompile valid =>
    have hlength : (r.append ⟨call, key, artifact⟩).entries.length = r.entries.length + 1 :=
      List.length_append
    obtain ⟨-, -, rfl⟩ := Compiler.compile_eq_ok hcompile
    refine ⟨h.append valid absent, rfl, List.prefix_append _ _, by dsimp only; omega, ?_⟩
    intro i s hs
    have hlt := (List.getElem?_eq_some_iff.1 hs).1
    dsimp only at hlt
    obtain rfl : i = 0 := by omega
    replace hs : (r.entries ++ [⟨call, key, artifact⟩])[r.entries.length]? = some s := hs
    rw [List.getElem?_concat_length] at hs
    cases hs
    exact Compiler.compile_of_compile hcompile

theorem Sound.resolve_grows (h : r.Sound) (function : String) (query : List DType)
    (frozen mayCompile : Bool) (engine : Engine) :
    r.Grows engine (r.resolve function query frozen mayCompile engine).2.1
      (r.resolve function query frozen mayCompile engine).2.2 := by
  have hinsert := (h.insert (Dispatch.synthesize r.recipe.signature query) engine).grows h
  unfold Registry.resolve
  split
  case isTrue => exact h.grows_refl engine
  case isFalse =>
    split
    case h_1 => exact h.grows_refl engine
    case h_2 =>
      split
      case isTrue =>
        generalize r.insert (Dispatch.synthesize r.recipe.signature query) engine = result at hinsert
        obtain ⟨_ | _, r', engine'⟩ := result
        · exact hinsert
        · dsimp only
          split
          · exact hinsert
          · exact hinsert
      case isFalse =>
        split
        · exact h.grows_refl engine
        · exact h.grows_refl engine

/-- How looking up element types can end where compiling is allowed. -/
inductive Resolving (r : Registry) (query : List DType) (engine : Engine) :
    Except Error Resolution × Registry × Engine → Prop
  | found {s : Specialization} (found : r.find? query = some s) :
      Resolving r query engine (.ok ⟨s.signature, query, .exact⟩, r, engine)
  | refused {e : Error} {engine' : Engine} (missing : r.find? query = none)
      (compile : Compiler.compile r.recipe (Dispatch.synthesize r.recipe.signature query) engine =
        (.error e, engine')) : Resolving r query engine (.error e, r, engine')
  | compiled {s : Specialization} {engine' : Engine} (missing : r.find? query = none)
      (absent : s.signature ∉ r.signatures)
      (signature : s.signature = Dispatch.synthesize r.recipe.signature query)
      (compile : Compiler.compile r.recipe s.signature engine = (.ok s.artifact, engine'))
      (valid : s.Valid r.recipe) (found : (r.append s).find? query = some s) :
      Resolving r query engine (.ok ⟨s.signature, query, .compiled⟩, r.append s, engine')

/-- An entry for the signature that stands for element types has these types. -/
theorem key_of_synthesize {s : Specialization} (hs : s.Valid r.recipe)
    (hlen : query.length = r.arity ∨ query.length = r.arity + 1)
    (hsignature : s.signature = Dispatch.synthesize r.recipe.signature query) :
    (if query.length = r.arity then s.key.take r.arity else s.key) = query := by
  have harity : r.recipe.signature.arity = r.arity := rfl
  have hkey := hs.key
  rw [hsignature, Dispatch.elementTypes_synthesize (by omega), harity] at hkey
  rw [← Except.ok.inj hkey]
  rcases hlen with hlen | hlen
  · rw [if_pos hlen, List.take_of_length_le (Nat.le_of_eq hlen), List.take_left' hlen]
  · have hlast : query[r.arity]? = some query[r.arity] := List.getElem?_eq_getElem (by omega)
    rw [if_neg (by omega), hlast]
    show query.take r.arity ++ [query[r.arity]] = query
    rw [List.take_append_getElem, List.take_of_length_le (by omega)]

theorem Sound.resolve (h : r.Sound) (hlen : query.length = r.arity ∨ query.length = r.arity + 1)
    (function : String) (engine : Engine) :
    Resolving r query engine (r.resolve function query false true engine) := by
  unfold Registry.resolve
  rw [if_neg Bool.false_ne_true]
  split
  case h_1 s hfound => exact .found hfound
  case h_2 hmissing =>
    rw [if_pos rfl]
    have hinsert := h.insert (Dispatch.synthesize r.recipe.signature query) engine
    generalize r.insert (Dispatch.synthesize r.recipe.signature query) engine = result at hinsert
    cases hinsert with
    | present mem signature =>
      rw [h.find?_eq] at hmissing
      have hkey := key_of_synthesize (h.valid _ mem) hlen signature
      exact absurd (beq_iff_eq.2 hkey) (List.find?_eq_none.1 hmissing _ mem)
    | untyped huntyped =>
      rw [Dispatch.elementTypes_synthesize (show r.arity ≤ query.length by omega)] at huntyped
      cases huntyped
    | refused absent hcompile => exact .refused hmissing hcompile
    | @compiled key artifact _ absent hcompile valid =>
      have hfound := h.find?_append valid absent hmissing (key_of_synthesize valid hlen rfl)
      dsimp only
      rw [hfound]
      exact .compiled hmissing absent rfl hcompile valid hfound

end Registry

end Corewise
