import Corewise.Proofs.Loop.Independence
import Corewise.Proofs.LoopTable
/-!
What a loop hands to a kernel behind a trampoline, and what becomes of elements that the kernel leaves
alone. Every iteration that covers an element of a written array hands it over in the type that the kernel
was compiled for and puts it back converted, so its value passes through that type and back; and it does so
whichever iteration comes when.
-/

namespace Corewise

/-- What may become of a value that is converted to some of these types and back, any number of times. -/
inductive Scalar.RoundTrip (types : DType → Prop) : Scalar → Scalar → Prop
  | refl (s : Scalar) : RoundTrip types s s
  | trip {s s' : Scalar} {dtype : DType} (earlier : RoundTrip types s s') (allowed : types dtype) :
      RoundTrip types s ((s'.cast dtype).cast s'.dtype)

theorem Scalar.RoundTrip.eq_of_held {types : DType → Prop} {s s' : Scalar}
    (h : s.RoundTrip types s')
    (hheld : ∀ dtype, types dtype → (s.cast dtype).cast s.dtype = s) : s' = s := by
  induction h with
  | refl => rfl
  | trip _ allowed ih => rw [ih, hheld _ allowed]

namespace Loop

/-- What an element leaves at an offset of an array: a value of its own, or what was there. -/
theorem Access.patch_element {offset : Nat} {P : Scalar → Prop} {a : Access} {b core : Buffer}
    (hb : b.WellFormed) (hfits : a.Fits b.shape) (hsize : core.size = Shape.size (coreOf b.shape a.rank))
    {v : Scalar} (hv : b.data[offset]? = some v) (hp : P v)
    (hcore : a.writable = true → ∀ j s, a.start b.shape + j = offset → core.data[j]? = some s →
      P (s.cast b.dtype)) :
    ∃ v', (a.patch (.array core) b).data[offset]? = some v' ∧ P v' := by
  unfold Access.patch
  dsimp only
  split
  case isFalse => exact ⟨v, hv, hp⟩
  case isTrue hwritable =>
    have hle : a.start b.shape + core.data.length ≤ b.size := by
      have hle := hfits.start_le hb
      rwa [← hsize] at hle
    rw [Buffer.getElem?_overlay hle]
    split
    case isTrue => exact ⟨v, hv, hp⟩
    case isFalse hin =>
      have hj : offset - a.start b.shape < core.data.length := by omega
      refine ⟨_, by rw [List.getElem?_eq_getElem hj, Option.map_some], ?_⟩
      apply hcore hwritable (offset - a.start b.shape)
      · omega
      · exact List.getElem?_eq_getElem hj

variable {recipe : Recipe} {plan : Plan} {operands : List Value} {writable : List Bool}
  {key : List DType} {t : Lowering.Trampoline} {m m' : Memory} {flat : Nat} {out : Ref}
  {elements : List Contents}

/-- What an iteration hands to a kernel that was compiled for operands of these types. -/
def handedAt (signature : CoreSignature) (plan : Plan) (operands : List Value) (writable : List Bool)
    (key : List DType) (m : Memory) (flat : Nat) : List Contents :=
  List.zipWith Contents.cast (elementsAt signature plan operands writable m flat) key

/-- A written array is handed over in this type. -/
def HandedAs (signature : CoreSignature) (operands : List Value) (writable : List Bool)
    (key : List DType) (r : Ref) (dtype : DType) : Prop :=
  ∃ i, Written signature writable i ∧ operands[i]? = some (.array r) ∧ key[i]? = some dtype

/-- The kernel, handed this in these iterations, has written the element that lies at an offset of an
array. -/
def Writes (recipe : Recipe) (plan : Plan) (operands : List Value) (writable : List Bool) (m : Memory)
    (order : List Nat) (handed : List (List Contents)) (r : Ref) (offset : Nat) : Prop :=
  ∃ p ∈ order.zip handed, ∃ i a j,
    (addressed recipe.signature plan operands writable p.1)[i]? = some (.array r, a) ∧
    a.writable = true ∧ (i, j) ∈ recipe.kernel.body.writes p.2 ∧
    a.start (m.buffer r).shape + j = offset

theorem Copied.outcome_handed (hc : Copied recipe.signature plan operands writable m.Grows flat elements)
    (h : Ready recipe.signature plan operands m)
    (hout : operands[recipe.signature.arity]? = some (.array out))
    (ht : t.Converts recipe key writable) (hflat : flat < plan.iterations) :
    let held := List.zipWith Contents.cast elements key
    (outcome t.call elements).result = Body.verdict (recipe.kernel.body.transform held).1 ∧
      (outcome t.call elements).noted = [held] ∧
      ((recipe.kernel.body.transform held).1 = none → ∀ (i : Nat) b core,
        elements[i]? = some (.array b) → t.writable[i]? = some true →
        (recipe.kernel.body.transform held).2[i]? = some (.array core) →
        (outcome t.call elements).after[i]? = some (.array (core.cast b.dtype))) :=
  outcome_trampoline ht (hc.wellFormed h hflat) (hc.suits h hout ht.serves.checked) rfl

theorem Ready.outcome_handed (h : Ready recipe.signature plan operands m)
    (hout : operands[recipe.signature.arity]? = some (.array out))
    (ht : t.Converts recipe key writable) (hflat : flat < plan.iterations) :
    let elements := elementsAt recipe.signature plan operands writable m flat
    let held := handedAt recipe.signature plan operands writable key m flat
    (outcome t.call elements).result = Body.verdict (recipe.kernel.body.transform held).1 ∧
      (outcome t.call elements).noted = [held] := by
  obtain ⟨hresult, hnoted, -⟩ := (copied_elementsAt (.refl m)).outcome_handed h hout ht hflat
  exact ⟨hresult, hnoted⟩

/-- What a loop notes is what it hands to the kernel, converted. -/
theorem Traced.handed {order : List Nat} {s : Memory × List Task} {calls : List Handover}
    (htraced : Traced recipe.signature plan operands writable t.call m order s calls)
    (h : Ready recipe.signature plan operands m)
    (hout : operands[recipe.signature.arity]? = some (.array out))
    (ht : t.Converts recipe key writable) (horder : ∀ flat ∈ order, flat < plan.iterations) :
    s.1.invocations = m.invocations ++ calls.map fun c => List.zipWith Contents.cast c.2 key := by
  have hconsistent := htraced.consistent h t.call_grows horder (fun _ hgrows => hgrows)
    fun _ _ earlier => earlier.grows
  rw [htraced.invocations, List.map_eq_flatMap]
  congr 1
  refine List.flatMap_congr fun c hc => ?_
  exact ((hconsistent.copied c hc).outcome_handed h hout ht (hconsistent.lt c hc)).2.1

theorem Copied.handed_wellFormed {signature : CoreSignature}
    (hc : Copied signature plan operands writable m.Grows flat elements)
    (h : Ready signature plan operands m) (hflat : flat < plan.iterations) (key : List DType) :
    ∀ e ∈ List.zipWith Contents.cast elements key, e.WellFormed := by
  intro e he
  obtain ⟨i, hi⟩ := List.getElem?_of_mem he
  obtain ⟨c, dtype, hmem, -, rfl⟩ := List.getElem?_zipWith_eq_some.1 hi
  exact (hc.wellFormed h hflat c (List.mem_of_getElem? hmem)).cast dtype

/-- What is put back to a written array: what the kernel has made of the element in the type that it was
handed over in. -/
theorem Copied.after_handed {memories : Memory → Prop}
    (hc : Copied recipe.signature plan operands writable memories flat elements)
    (hgrows : ∀ m₁, memories m₁ → m.Grows m₁) (h : Ready recipe.signature plan operands m)
    (hout : operands[recipe.signature.arity]? = some (.array out))
    (ht : t.Converts recipe key writable) (hflat : flat < plan.iterations)
    (hok : (recipe.kernel.body.transform (List.zipWith Contents.cast elements key)).1 = none) {i : Nat}
    {r : Ref} (hw : Written recipe.signature writable i) (hi : operands[i]? = some (.array r)) :
    ∃ m₁ a dtype core, memories m₁ ∧
      (addressed recipe.signature plan operands writable flat)[i]? = some (.array r, a) ∧
      key[i]? = some dtype ∧
      (recipe.kernel.body.transform (List.zipWith Contents.cast elements key)).2[i]? =
        some (.array core) ∧
      core.WellFormed ∧ core.dtype = dtype ∧
      (outcome t.call elements).after[i]? = some (.array (core.cast (m.buffer r).dtype)) ∧
      ∀ j, (i, j) ∉ recipe.kernel.body.writes (List.zipWith Contents.cast elements key) →
        core.data[j]? = (a.run (m₁.buffer r))[j]?.map (·.cast dtype) := by
  obtain ⟨m₁, rank, a, hm₁, -, -, -, haddressed, helement⟩ := hc.element_written h hgrows hw hi
  have hcopied := hc.mono hgrows
  have hlt : i < recipe.signature.arity + 1 := by
    have hcount := h.planned.count
    rw [List.length_map] at hcount
    rw [← hcount]
    exact (List.getElem?_eq_some_iff.1 hi).1
  obtain ⟨dtype, hdtype⟩ : ∃ dtype, key[i]? = some dtype :=
    ⟨_, List.getElem?_eq_getElem (ht.length_key ▸ hlt)⟩
  have hhanded := List.getElem?_zipWith_eq_some (f := Contents.cast).2
    ⟨_, _, helement, hdtype, rfl⟩
  obtain ⟨core, hcore, hkept⟩ := Program.transform_unwritten _ hhanded
  have hflag : t.writable[i]? = some true :=
    (ht.writable_eq_true (Nat.le_of_lt_succ hlt)).2 (hw.imp_right And.left)
  obtain ⟨-, -, hafter⟩ := hcopied.outcome_handed h hout ht hflat
  have hback := hafter hok i _ core helement hflag hcore
  obtain ⟨e, he, hrewrites⟩ := exists_getElem?_of_forall₂
    (recipe.kernel.body.transform_rewrites (hcopied.handed_wellFormed h hflat key)) hhanded
  cases hcore.symm.trans he
  obtain ⟨hwf, hcoreType⟩ : core.WellFormed ∧ core.dtype = dtype := by
    cases hrewrites with
    | array hcoreType _ hwf => exact ⟨hwf, hcoreType⟩
  refine ⟨m₁, a, dtype, core, hm₁, haddressed, hdtype, hcore, hwf, hcoreType, hback, ?_⟩
  intro j hj
  rw [hkept j hj]
  exact List.getElem?_map

/-- Where the kernel has not written, the value that was copied is put back, converted to the kernel's type and
back. -/
theorem Copied.unwritten_value {memories : Memory → Prop}
    (hc : Copied recipe.signature plan operands writable memories flat elements)
    (hgrows : ∀ m₁, memories m₁ → m.Grows m₁) (h : Ready recipe.signature plan operands m)
    (hout : operands[recipe.signature.arity]? = some (.array out))
    (ht : t.Converts recipe key writable) (hflat : flat < plan.iterations)
    (hok : (outcome t.call elements).result = .ok ()) {i j : Nat} {r : Ref} {a : Access} {core : Buffer}
    {s : Scalar} (hw : Written recipe.signature writable i)
    (haddressed : (addressed recipe.signature plan operands writable flat)[i]? = some (.array r, a))
    (hafter : (outcome t.call elements).after[i]? = some (.array core)) (hs : core.data[j]? = some s)
    (hnot : (i, j) ∉ recipe.kernel.body.writes (List.zipWith Contents.cast elements key)) :
    ∃ m₁ v dtype, memories m₁ ∧ key[i]? = some dtype ∧
      (m₁.buffer r).data[a.start (m.buffer r).shape + j]? = some v ∧
      s = (v.cast dtype).cast (m.buffer r).dtype := by
  have hoperand := (List.getElem?_zip_eq_some.1 haddressed).1
  have hmade : (recipe.kernel.body.transform (List.zipWith Contents.cast elements key)).1 = none := by
    rw [← Body.verdict_eq_ok, ← ((hc.mono hgrows).outcome_handed h hout ht hflat).1]
    exact hok
  obtain ⟨m₁, a', dtype, made, hm₁, haddressed', hkey, -, -, -, hafter', hkept⟩ :=
    hc.after_handed hgrows h hout ht hflat hmade hw hoperand
  cases haddressed.symm.trans haddressed'
  cases hafter.symm.trans hafter'
  obtain ⟨-, hshape⟩ := (hgrows m₁ hm₁).buffer r (h.holds _ (List.mem_of_getElem? hoperand))
  rw [Buffer.cast, List.getElem?_map, hkept j hnot, Access.run, hshape, Buffer.getElem?_block] at hs
  split at hs
  case isFalse => cases hs
  case isTrue =>
    rw [Option.map_map] at hs
    obtain ⟨v, hv, rfl⟩ := Option.map_eq_some_iff.1 hs
    exact ⟨m₁, v, dtype, hm₁, hkey, hv, rfl⟩

section Unwritten

variable {order : List Nat} {s : Memory × List Task} {calls : List Handover} {r : Ref} {offset : Nat}
  {v : Scalar}

/-- What was at an offset of an array has passed through types that the array is handed over in, at most. -/
structure Passed (signature : CoreSignature) (operands : List Value) (writable : List Bool)
    (key : List DType) (r : Ref) (offset : Nat) (v : Scalar) (m m' : Memory) : Prop where
  grows : m.Grows m'
  element : ∃ v', (m'.buffer r).data[offset]? = some v' ∧
    v.RoundTrip (HandedAs signature operands writable key r) v'

/-- An element that the kernel has left alone comes back with what has become of its value before. -/
theorem Passed.putBack {m₁ m₂ : Memory} {c : Handover} {p : Return}
    (hp : Passed recipe.signature operands writable key r offset v m m₁)
    (h : Ready recipe.signature plan operands m)
    (hout : operands[recipe.signature.arity]? = some (.array out))
    (ht : t.Converts recipe key writable) (hr : m.Holds (.array r)) (hflat : c.1 < plan.iterations)
    (hc : Copied recipe.signature plan operands writable
      (Passed recipe.signature operands writable key r offset v m) c.1 c.2)
    (hok : (outcome t.call c.2).result = .ok ())
    (hnot : ¬ Writes recipe plan operands writable m [c.1] [List.zipWith Contents.cast c.2 key] r offset)
    (hmem : p ∈ (addressed recipe.signature plan operands writable c.1).zip (outcome t.call c.2).after)
    (hput : (put p.1.2 p.1.1 p.2).run m₁ = (.ok (), m₂)) :
    Passed recipe.signature operands writable key r offset v m m₂ := by
  have hgrows : ∀ m', Passed recipe.signature operands writable key r offset v m m' → m.Grows m' :=
    fun _ hpassed => hpassed.grows
  have hcopied := hc.mono hgrows
  obtain ⟨v₁, hv₁, htrip₁⟩ := hp.element
  refine ⟨hp.grows.trans ((put_grows _ _ _).of_run hput), ?_⟩
  obtain ⟨hv, hreturns⟩ := hcopied.returns h t.call_grows hflat hmem
  have hreturns₁ := hreturns.grows hp.grows hv
  have hready := h.grows hp.grows
  rw [put_run hready.wellFormed hreturns₁] at hput
  obtain ⟨i, hi⟩ := List.getElem?_of_mem hmem
  obtain ⟨haddressed, hafter⟩ := List.getElem?_zip_eq_some.1 hi
  obtain ⟨⟨w, a⟩, e⟩ := p
  by_cases hother : w = .array r
  case neg =>
    refine ⟨v₁, ?_, htrip₁⟩
    cases w with
    | scalar => cases hput; exact hv₁
    | array r' =>
      cases hput
      rwa [Memory.buffer_store_of_ne fun heq => hother (congrArg Value.array heq)]
  subst hother
  have hr₁ : r < m₁.buffers.length := Nat.lt_of_lt_of_le hr hp.grows.length_le
  cases hput
  rw [Memory.buffer_store_self hr₁]
  cases e with
  | scalar s => exact ⟨v₁, hv₁, htrip₁⟩
  | array core =>
    obtain ⟨hfits, hsize⟩ := hreturns₁
    obtain ⟨hkind, hshape⟩ := hp.grows.buffer r hr
    refine a.patch_element (hready.wellFormed.buffer r) hfits hsize hv₁ htrip₁
      fun hwritable j s hj hs => ?_
    have hw := hcopied.written_of_return h t.call_grows hflat haddressed hafter hwritable
    have hoperand := (List.getElem?_zip_eq_some.1 haddressed).1
    rw [hshape] at hj
    have hunwritten : (i, j) ∉ recipe.kernel.body.writes (List.zipWith Contents.cast c.2 key) :=
      fun hwrites => hnot ⟨_, List.mem_singleton_self _, i, a, j, haddressed, hwritable, hwrites, hj⟩
    obtain ⟨m₃, v₃, dtype, hpassed, hkey, hv₃, rfl⟩ :=
      hc.unwritten_value hgrows h hout ht hflat hok hw haddressed hafter hs hunwritten
    -- It was there when the element was copied, and is one that the value may have become by then.
    rw [hj] at hv₃
    obtain ⟨v', hv', htrip⟩ := hpassed.element
    cases hv₃.symm.trans hv'
    have hdtype : v₃.dtype = (m.buffer r).dtype := by
      rw [← (hpassed.grows.buffer r hr).1]
      exact ((h.grows hpassed.grows).wellFormed.buffer r).2 v₃ (List.mem_of_getElem? hv₃)
    rw [hkind, Scalar.cast_cast, ← hdtype]
    exact htrip.trip ⟨i, hw, hoperand, hkey⟩

/-- Along any trace, elements that the kernel has not written pass through the types of the loop at most. -/
theorem Traced.passed (htraced : Traced recipe.signature plan operands writable t.call m order s calls)
    (h : Ready recipe.signature plan operands m)
    (hout : operands[recipe.signature.arity]? = some (.array out))
    (ht : t.Converts recipe key writable) (horder : ∀ flat ∈ order, flat < plan.iterations)
    (hr : m.Holds (.array r)) (hv : (m.buffer r).data[offset]? = some v)
    (hnot : ∀ c ∈ calls,
      ¬ Writes recipe plan operands writable m [c.1] [List.zipWith Contents.cast c.2 key] r offset) :
    Passed recipe.signature operands writable key r offset v m s.1 ∧
      Consistent recipe.signature plan operands writable t.call
        (Passed recipe.signature operands writable key r offset v m) s.2 calls := by
  have hgrows : ∀ m', Passed recipe.signature operands writable key r offset v m m' → m.Grows m' :=
    fun _ hpassed => hpassed.grows
  induction htraced with
  | start => exact ⟨⟨.refl m, v, hv, .refl v⟩, consistent_waiting horder⟩
  | @turn before after m₁ m₂ task task' calls earlier step ih =>
    obtain ⟨hpassed, hconsistent⟩ := ih fun c hc => hnot c (List.mem_append_left _ hc)
    refine ⟨?_, hconsistent.turn h t.call_grows hgrows hpassed step⟩
    cases step with
    | start => exact hpassed
    | read => exact hpassed
    | unreadable => exact hpassed
    | work => exact ⟨hpassed.grows.trans (Memory.grows_noting _), hpassed.element⟩
    | raise => exact ⟨hpassed.grows.trans (Memory.grows_noting _), hpassed.element⟩
    | @putBack _ _ p rest done =>
      have htask := hconsistent.task _ (List.mem_append_right before List.mem_cons_self)
      cases htask with
      | @returning c _ mem succeeded suffix =>
        exact hpassed.putBack h hout ht hr (hconsistent.lt c mem) (hconsistent.copied c mem) succeeded
          (hnot c (List.mem_append_left _ mem)) (suffix.subset List.mem_cons_self) done
    | @refuse _ _ p rest e refused =>
      have htask := hconsistent.task _ (List.mem_append_right before List.mem_cons_self)
      cases htask with
      | @returning c _ mem succeeded suffix =>
        obtain ⟨_, hput⟩ := ((hconsistent.copied c mem).mono hgrows).put_ok h t.call_grows
          (hconsistent.lt c mem) (suffix.subset List.mem_cons_self) hpassed.grows
        cases refused.symm.trans hput

theorem Traced.unwritten (htraced : Traced recipe.signature plan operands writable t.call m order s calls)
    (h : Ready recipe.signature plan operands m)
    (hout : operands[recipe.signature.arity]? = some (.array out))
    (ht : t.Converts recipe key writable) (horder : ∀ flat ∈ order, flat < plan.iterations)
    (hr : m.Holds (.array r)) (hv : (m.buffer r).data[offset]? = some v)
    (hnot : ¬ Writes recipe plan operands writable m (calls.map Prod.fst)
      (calls.map fun c => List.zipWith Contents.cast c.2 key) r offset) :
    ∃ v', (s.1.buffer r).data[offset]? = some v' ∧
      v.RoundTrip (HandedAs recipe.signature operands writable key r) v' := by
  refine (htraced.passed h hout ht horder hr hv fun c hc hwrites => hnot ?_).1.element
  obtain ⟨p, hp, hwritten⟩ := hwrites
  cases List.mem_singleton.1 hp
  refine ⟨_, ?_, hwritten⟩
  rw [List.zip_map']
  exact List.mem_map_of_mem hc

end Unwritten

end Loop

end Corewise
