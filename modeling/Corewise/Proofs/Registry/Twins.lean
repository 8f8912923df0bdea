import Corewise.Proofs.Registry.Compatible
/-!
Registries whose recipes differ in their calling options alone. A native kernel is compiled for the same
call signatures under each of the options, so what one of the registries finds the other one finds as well,
compiled to an entry point of its own.
-/

namespace Corewise

/-- The recipe under other calling options. -/
def Recipe.calledBy (recipe : Recipe) (forceObject boundsCheck : Bool) : Recipe :=
  { recipe with options := { recipe.options with forceObject, boundsCheck } }

theorem Compiler.bind_native {kernel : Kernel} {body : NativeBody} (h : kernel.body = .native body)
    (options : Options) : ∃ entry, bind kernel options = .ok entry := by
  have hnative : kernel.isObject = false := by
    rw [Kernel.isObject, h]
    rfl
  exact exists_bind_eq_ok.2 fun hobject => Bool.false_ne_true (hnative ▸ hobject.1)

/-- A native kernel is compiled or refused alike. -/
theorem Compiler.compile_calledBy {recipe : Recipe} {body : NativeBody}
    (hnative : recipe.kernel.body = .native body) (forceObject boundsCheck : Bool)
    (call : CallSignature) {engine engine' : Engine}
    (h : engine'.compilations = engine.compilations) :
    ((compile (recipe.calledBy forceObject boundsCheck) call engine').1.map fun _ => ()) =
        ((compile recipe call engine).1.map fun _ => ()) ∧
      (compile (recipe.calledBy forceObject boundsCheck) call engine').2.compilations =
        (compile recipe call engine).2.compilations := by
  obtain ⟨entry, hentry⟩ := bind_native hnative recipe.options
  obtain ⟨entry', hentry'⟩ := bind_native hnative (recipe.calledBy forceObject boundsCheck).options
  have hleft : Compiler.entry recipe call =
      check recipe.signature call >>= fun _ => bind recipe.kernel recipe.options := rfl
  have hright : Compiler.entry (recipe.calledBy forceObject boundsCheck) call =
      check recipe.signature call >>= fun _ =>
        bind recipe.kernel (recipe.calledBy forceObject boundsCheck).options := rfl
  rw [hentry] at hleft
  rw [hentry'] at hright
  unfold compile
  rw [hleft, hright]
  rcases check recipe.signature call with reason | ⟨⟩
  case error => exact ⟨rfl, h⟩
  case ok => exact ⟨rfl, congrArg (· + 1) h⟩

namespace Specialization

/-- What an entry has been compiled for. -/
def face (s : Specialization) : CallSignature × List DType := (s.signature, s.key)

variable {l l' : List Specialization}

theorem face_cases {found found' : Option Specialization} (h : found'.map face = found.map face) :
    found = none ∧ found' = none ∨
      ∃ s s', found = some s ∧ found' = some s' ∧ s'.face = s.face := by
  cases found with
  | none => exact .inl ⟨rfl, Option.map_eq_none_iff.1 h⟩
  | some s =>
    obtain ⟨s', hs', hface⟩ := Option.map_eq_some_iff.1 h
    exact .inr ⟨s, s', rfl, hs', hface⟩

theorem find?_face {p : Specialization → Bool} {q : CallSignature × List DType → Bool}
    (h : l'.map face = l.map face) (hp : ∀ s, p s = q s.face) :
    (l'.find? p).map face = (l.find? p).map face := by
  obtain rfl : p = q ∘ face := funext hp
  rw [← List.find?_map, ← List.find?_map, h]

theorem select_face (h : l'.map face = l.map face) (arity : Nat) (query : List DType) :
    (Dispatch.select (types arity) l' arity query).map face =
      (Dispatch.select (types arity) l arity query).map face := by
  have hexact := find?_face (p := fun s => (types arity s).isExact (query.take arity) (query.drop arity))
    (q := fun q => LoopTypes.isExact ⟨q.2.take arity, q.2.drop arity⟩ (query.take arity)
      (query.drop arity)) h fun _ => rfl
  have haccepts := find?_face (p := fun s => (types arity s).accepts (query.take arity) (query.drop arity))
    (q := fun q => LoopTypes.accepts ⟨q.2.take arity, q.2.drop arity⟩ (query.take arity)
      (query.drop arity)) h fun _ => rfl
  rcases Nat.lt_or_ge query.length arity with hlt | hge
  · rw [Dispatch.select_of_lt hlt, Dispatch.select_of_lt hlt]
  · rw [Dispatch.select_of_le hge, Dispatch.select_of_le hge, Option.map_or, Option.map_or, hexact,
      haccepts]

end Specialization

namespace Registry

/-- Entries for the same call signatures, of one native kernel under two choices of calling options. -/
structure Twins (r r' : Registry) : Prop where
  left : r.Sound
  right : r'.Sound
  faces : r'.entries.map Specialization.face = r.entries.map Specialization.face
  recipe : ∃ forceObject boundsCheck, r'.recipe = r.recipe.calledBy forceObject boundsCheck
  native : ∃ body, r.recipe.kernel.body = .native body

/-- One answer, from registries that are twins still and compilers that have counted as much. -/
structure Tied {α : Type} (x y : Except Error α × Registry × Engine) : Prop where
  result : y.1 = x.1
  registry : x.2.1.Twins y.2.1
  compilations : y.2.2.compilations = x.2.2.compilations

variable {r r' : Registry} {engine engine' : Engine}

theorem Twins.signature_eq (h : r.Twins r') : r'.recipe.signature = r.recipe.signature := by
  obtain ⟨forceObject, boundsCheck, hrecipe⟩ := h.recipe
  rw [hrecipe]
  rfl

theorem Twins.arity_eq (h : r.Twins r') : r'.arity = r.arity :=
  congrArg CoreSignature.arity h.signature_eq

theorem Twins.signatures_eq (h : r.Twins r') : r'.signatures = r.signatures := by
  have hfaces := congrArg (List.map Prod.fst) h.faces
  rwa [List.map_map, List.map_map] at hfaces

theorem Twins.find?_face (h : r.Twins r') (query : List DType) :
    (r'.find? query).map Specialization.face = (r.find? query).map Specialization.face := by
  rw [h.left.find?_eq, h.right.find?_eq, h.arity_eq]
  exact Specialization.find?_face (q := fun q =>
    (if query.length = r.arity then q.2.take r.arity else q.2) == query) h.faces fun _ => rfl

theorem Twins.select_face (h : r.Twins r') (query : List DType) :
    (Dispatch.select (Specialization.types r'.arity) r'.entries r'.arity query).map
        Specialization.face =
      (Dispatch.select (Specialization.types r.arity) r.entries r.arity query).map
        Specialization.face := by
  rw [h.arity_eq]
  exact Specialization.select_face h.faces r.arity query

theorem Twins.insert (h : r.Twins r') (hengine : engine'.compilations = engine.compilations)
    (call : CallSignature) :
    Tied ((r.insert call engine).1.map fun _ => (), (r.insert call engine).2)
      ((r'.insert call engine').1.map fun _ => (), (r'.insert call engine').2) := by
  have hgrows := (h.left.insert call engine).grows h.left
  have hgrows' := (h.right.insert call engine').grows h.right
  obtain ⟨forceObject, boundsCheck, hrecipe⟩ := h.recipe
  obtain ⟨body, hnative⟩ := h.native
  -- Both stay sound and keep their recipes, whatever is inserted.
  suffices hsame : ((r'.insert call engine').1.map fun _ => ()) =
        ((r.insert call engine).1.map fun _ => ()) ∧
      (r'.insert call engine').2.1.entries.map Specialization.face =
        (r.insert call engine).2.1.entries.map Specialization.face ∧
      (r'.insert call engine').2.2.compilations = (r.insert call engine).2.2.compilations by
    obtain ⟨hresult, hfaces, hcompilations⟩ := hsame
    refine ⟨hresult, ⟨hgrows.sound, hgrows'.sound, hfaces, ?_, ?_⟩, hcompilations⟩
    · exact ⟨forceObject, boundsCheck, by rw [hgrows'.recipe, hgrows.recipe, hrecipe]⟩
    · exact ⟨body, by rw [hgrows.recipe, hnative]⟩
  clear hgrows hgrows'
  have hfind := Specialization.find?_face (p := fun s => s.signature == call)
    (q := fun q => q.1 == call) h.faces fun _ => rfl
  unfold Registry.insert
  rw [h.left.bySignature.find? call, h.right.bySignature.find? call]
  rcases Specialization.face_cases hfind with ⟨hnone, hnone'⟩ | ⟨s, s', hs, hs', -⟩
  case inr =>
    rw [hs, hs']
    exact ⟨rfl, h.faces, hengine⟩
  rw [hnone, hnone']
  dsimp only
  split
  case h_1 => exact ⟨rfl, h.faces, hengine⟩
  case h_2 key _ =>
    obtain ⟨hcompile, hcount⟩ :=
      Compiler.compile_calledBy hnative forceObject boundsCheck call hengine
    rw [← hrecipe] at hcompile hcount
    generalize Compiler.compile r.recipe call engine = compiled at hcompile hcount
    generalize Compiler.compile r'.recipe call engine' = compiled' at hcompile hcount
    obtain ⟨compiled, counted⟩ := compiled
    obtain ⟨compiled', counted'⟩ := compiled'
    rcases Effect.cases_of_map_unit hcompile with ⟨e, rfl, rfl⟩ | ⟨a, a', rfl, rfl⟩
    · exact ⟨rfl, h.faces, hcount⟩
    · have hfaces : (r'.append ⟨call, key, a'⟩).entries.map Specialization.face =
          (r.append ⟨call, key, a⟩).entries.map Specialization.face := by
        show (r'.entries ++ [_]).map _ = (r.entries ++ [_]).map _
        rw [List.map_append, List.map_append, h.faces]
        rfl
      exact ⟨rfl, hfaces, hcount⟩

theorem Twins.find_cases (h : r.Twins r') (query : List DType) :
    r.find? query = none ∧ r'.find? query = none ∨
      ∃ s s', r.find? query = some s ∧ r'.find? query = some s' ∧ s'.signature = s.signature := by
  rcases Specialization.face_cases (h.find?_face query) with hnone | ⟨s, s', hs, hs', hface⟩
  · exact .inl hnone
  · exact .inr ⟨s, s', hs, hs', congrArg Prod.fst hface⟩

/-- What is widened, and the signature of the entry that it is widened for, are found alike. -/
theorem Twins.compatible_cases (h : r.Twins r') (query : List DType) :
    r.findCompatible? query = none ∧ r'.findCompatible? query = none ∨
      ∃ widened s s', r.findCompatible? query = some (widened, s) ∧
        r'.findCompatible? query = some (widened, s') ∧ s'.signature = s.signature := by
  rw [h.left.findCompatible?_eq, h.right.findCompatible?_eq]
  rcases Specialization.face_cases (h.select_face query) with
    ⟨hnone, hnone'⟩ | ⟨s, s', hs, hs', hface⟩
  case inl => exact .inl ⟨by rw [hnone]; rfl, by rw [hnone']; rfl⟩
  case inr =>
    have hkey : s'.key = s.key := congrArg Prod.snd hface
    refine .inr ⟨s.key.take query.length, s, s', by rw [hs]; rfl, ?_, congrArg Prod.fst hface⟩
    rw [hs', Option.map_some, hkey]

theorem Twins.resolveFrozen_eq (h : r.Twins r') (function : String) (query : List DType) :
    r'.resolveFrozen function query = r.resolveFrozen function query := by
  unfold resolveFrozen
  rcases h.compatible_cases query with ⟨hnone, hnone'⟩ | ⟨widened, s, s', hs, hs', hsignature⟩
  · rw [hnone, hnone']
  · rw [hs, hs']
    dsimp only
    rw [hsignature]

theorem Twins.resolve (h : r.Twins r') (hengine : engine'.compilations = engine.compilations)
    (function : String) (query : List DType) (frozen mayCompile : Bool) :
    Tied (r.resolve function query frozen mayCompile engine)
      (r'.resolve function query frozen mayCompile engine') := by
  unfold Registry.resolve
  split
  case isTrue => exact ⟨h.resolveFrozen_eq .., h, hengine⟩
  case isFalse =>
    rcases h.find_cases query with ⟨hnone, hnone'⟩ | ⟨s, s', hs, hs', hsignature⟩
    case inr =>
      rw [hs, hs']
      dsimp only
      rw [hsignature]
      exact ⟨rfl, h, hengine⟩
    rw [hnone, hnone', h.signature_eq]
    dsimp only
    split
    case isFalse =>
      rcases h.compatible_cases query with ⟨hnone, hnone'⟩ | ⟨widened, s, s', hs, hs', hsignature⟩
      · rw [hnone, hnone']
        exact ⟨rfl, h, hengine⟩
      · rw [hs, hs']
        dsimp only
        rw [hsignature]
        exact ⟨rfl, h, hengine⟩
    case isTrue =>
      obtain ⟨hresult, hregistry, hcompilations⟩ :=
        h.insert hengine (Dispatch.synthesize r.recipe.signature query)
      generalize r.insert (Dispatch.synthesize r.recipe.signature query) engine = x at *
      generalize r'.insert (Dispatch.synthesize r.recipe.signature query) engine' = y at *
      obtain ⟨made, left, counted⟩ := x
      obtain ⟨made', right, counted'⟩ := y
      -- The answer is not the new entry but what is found by then.
      rcases Effect.cases_of_map_unit hresult with ⟨e, rfl, rfl⟩ | ⟨s, s', rfl, rfl⟩
      · exact ⟨rfl, hregistry, hcompilations⟩
      · dsimp only
        rcases Twins.find_cases hregistry query with ⟨hnone, hnone'⟩ | ⟨s, s', hs, hs', hsignature⟩
        · rw [hnone, hnone']
          exact ⟨rfl, hregistry, hcompilations⟩
        · rw [hs, hs']
          dsimp only
          rw [hsignature]
          exact ⟨rfl, hregistry, hcompilations⟩

end Registry

end Corewise
