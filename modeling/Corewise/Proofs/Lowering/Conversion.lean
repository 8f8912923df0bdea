import Corewise.Proofs.Loop.Outcome
import Corewise.Proofs.Lowering.Trampoline
import Corewise.Proofs.Registry
/-!
What a trampoline makes of the kernel that it leads to. The kernel is handed the elements converted to the
types that it was compiled for, whether they are copied for that or not; and what it leaves of those that
are written back is converted to the types that they had. Neither way can fail, so only the kernel can.
-/

namespace Corewise

theorem Scalar.cast_cast (s : Scalar) (dtype : DType) : (s.cast dtype).cast dtype = s.cast dtype := by
  have hself := (s.cast dtype).cast_dtype_self
  rwa [dtype_cast] at hself

theorem Buffer.cast_cast (b : Buffer) (dtype : DType) : (b.cast dtype).cast dtype = b.cast dtype := by
  simp only [Buffer.cast, List.map_map, Function.comp_def, Scalar.cast_cast]

theorem Buffer.WellFormed.cast_self {b : Buffer} (h : b.WellFormed) : b.cast b.dtype = b := by
  rw [Buffer.cast, map_cast_of_dtype h.2]

/-- Written over all of an array, elements are converted to its type. -/
theorem Buffer.assign_whole {b source : Buffer} (hb : b.WellFormed) (hsource : source.WellFormed)
    (hshape : source.shape = b.shape) : b.assign [] source = .ok (source.cast b.dtype) := by
  have hsize : source.size = Shape.size b.shape := hsource.1.trans (congrArg Shape.size hshape)
  rw [assign_eq (List.nil_append _).symm rfl hsize]
  have hdrop : b.data.drop (0 * Shape.size b.shape + source.data.length) = [] := by
    apply List.drop_of_length_le
    rw [hb.1, Nat.zero_mul, Nat.zero_add]
    exact Nat.le_of_eq hsize.symm
  rw [overlay, hdrop, Nat.zero_mul, List.take_zero, List.nil_append, List.append_nil, Buffer.cast,
    hshape]

/-- The operand's contents, converted to an element type. -/
def Contents.cast (c : Contents) (dtype : DType) : Contents :=
  match c with
  | .scalar s => .scalar (s.cast dtype)
  | .array b => .array (b.cast dtype)

theorem Contents.cast_cast (c : Contents) (dtype : DType) :
    (c.cast dtype).cast dtype = c.cast dtype := by
  cases c with
  | scalar s => exact congrArg Contents.scalar (s.cast_cast dtype)
  | array b => exact congrArg Contents.array (b.cast_cast dtype)

theorem Contents.WellFormed.cast {c : Contents} (h : c.WellFormed) (dtype : DType) :
    (c.cast dtype).WellFormed := by
  cases c with
  | scalar s => trivial
  | array b => exact Buffer.WellFormed.cast h dtype

theorem Contents.Suits.element {c : Contents} {type : OperandType} (h : c.Suits type) :
    ∃ dtype, type.element? = some dtype := by
  cases h with
  | scalar s dtype => exact ⟨dtype, rfl⟩
  | array b dtype layout => exact ⟨dtype, rfl⟩

theorem Contents.shape_cast (c : Contents) (dtype : DType) : (c.cast dtype).shape = c.shape := by
  cases c <;> rfl

variable {m m' : Memory}

/-- Where operands hold what others held, converted, each has been converted from its counterpart. -/
theorem Memory.contents_of_cast {values values' : List Value} {key : List DType}
    (h : m'.contentsOf values' = List.zipWith Contents.cast (m.contentsOf values) key) {i : Nat}
    {v' : Value} (hi : values'[i]? = some v') :
    ∃ v dtype, values[i]? = some v ∧ key[i]? = some dtype ∧
      m'.contents v' = (m.contents v).cast dtype := by
  have hcontents : (m'.contentsOf values')[i]? = some (m'.contents v') := by
    rw [getElem?_contentsOf, hi, Option.map_some]
  rw [h, List.getElem?_zipWith_eq_some] at hcontents
  obtain ⟨c, dtype, hc, hdtype, hcast⟩ := hcontents
  rw [getElem?_contentsOf, Option.map_eq_some_iff] at hc
  obtain ⟨v, hv, rfl⟩ := hc
  exact ⟨v, dtype, hv, hdtype, hcast.symm⟩

namespace Action

/-- Values that conversion has made of `args`, each to its type in `key`: the value itself, or a copy in a
fresh array. -/
structure Copied (m : Memory) (args values : List Value) (key : List DType) (m' : Memory) : Prop where
  contents : m'.contentsOf values = List.zipWith Contents.cast (m.contentsOf args) key
  holds : ∀ v ∈ values, m'.Holds v
  separate : Loop.Separate args → Loop.Separate values
  own : ∀ (i : Nat) (r : Ref), values[i]? = some (.array r) →
    args[i]? = some (.array r) ∨ m.buffers.length ≤ r
  kept : ∀ r < m.buffers.length, m'.buffer r = m.buffer r
  grows : m.Grows m'
  invocations : m'.invocations = m.invocations

theorem Copied.nil (m : Memory) : Copied m [] [] [] m :=
  ⟨rfl, nofun, id, nofun, fun _ _ => rfl, .refl m, rfl⟩

theorem Copied.contents_eq {args values : List Value} {key : List DType}
    (h : Copied m args values key m') {v : Value} (hv : m.Holds v) : m'.contents v = m.contents v := by
  cases v with
  | scalar s => rfl
  | array r => exact congrArg Contents.array (h.kept r hv)

theorem Copied.converted {args values : List Value} {key : List DType}
    (h : Copied m args values key m') (hheld : ∀ v ∈ args, m.Holds v) {p : Value × Value}
    (hp : p ∈ args.zip values) : Converted m' p.1 p.2 := by
  obtain ⟨i, hi⟩ := List.getElem?_of_mem hp
  obtain ⟨hv, hv'⟩ := List.getElem?_zip_eq_some.1 hi
  have hm := hheld _ (List.mem_of_getElem? hv)
  refine ⟨h.grows.holds hm, h.holds _ (List.mem_of_getElem? hv'), ?_⟩
  obtain ⟨v, dtype, hv₁, -, hcontents⟩ := Memory.contents_of_cast h.contents hv'
  cases hv.symm.trans hv₁
  rw [Memory.shape, Memory.shape, hcontents, h.contents_eq hm, Contents.shape_cast]

/-- Arrays and their copies are apart. -/
theorem Copied.writeBack_apart {args values : List Value} {key : List DType}
    (h : Copied m args values key m') (hseparate : Loop.Separate args)
    (hheld : ∀ v ∈ args, m.Holds v) (writable : List Bool) :
    Loop.Separate (((args.zip values).zip writable).map (·.1.1)) ∧
      ∀ p ∈ (args.zip values).zip writable, ∀ q ∈ (args.zip values).zip writable, ∀ r,
        p.1.2 = .array r → q.1.1 = .array r → p.1.1 = .array r := by
  have hat {i : Nat} {p : (Value × Value) × Bool}
      (hi : ((args.zip values).zip writable)[i]? = some p) :
      args[i]? = some p.1.1 ∧ values[i]? = some p.1.2 :=
    List.getElem?_zip_eq_some.1 (List.getElem?_zip_eq_some.1 hi).1
  constructor
  case left =>
    intro i j r hi hj
    rw [List.getElem?_map, Option.map_eq_some_iff] at hi hj
    obtain ⟨p, hp, hpr⟩ := hi
    obtain ⟨q, hq, hqr⟩ := hj
    exact hseparate i j r (hpr ▸ (hat hp).1) (hqr ▸ (hat hq).1)
  case right =>
    intro p hp q hq r hpr hqr
    obtain ⟨i, hi⟩ := List.getElem?_of_mem hp
    obtain ⟨j, hj⟩ := List.getElem?_of_mem hq
    have hr : r < m.buffers.length := by
      have hheldq := hheld _ (List.mem_of_getElem? (hat hj).1)
      rwa [hqr] at hheldq
    rcases h.own i r (hpr ▸ (hat hi).2) with hown | hfresh
    · exact Option.some.inj ((hat hi).1.symm.trans hown)
    · exact absurd hr (Nat.not_lt.2 hfresh)

theorem Copied.cons {m₁ : Memory} {v v' : Value} {dtype : DType} {args values : List Value}
    {key : List DType} (hheld : ∀ w ∈ v :: args, m.Holds w)
    (hhead : Copied m [v] [v'] [dtype] m₁) (hrest : Copied m₁ args values key m') :
    Copied m (v :: args) (v' :: values) (dtype :: key) m' := by
  obtain ⟨hv, hargs⟩ := List.forall_mem_cons.1 hheld
  have hv' : m₁.Holds v' := hhead.holds v' List.mem_cons_self
  have hlength := hhead.grows.length_le
  have hown {r : Ref} (hr : v' = .array r) : v = .array r ∨ m.buffers.length ≤ r := by
    simpa using hhead.own 0 r (congrArg some hr)
  constructor
  case contents =>
    have hcontents : m₁.contents v' = (m.contents v).cast dtype :=
      (List.cons.inj hhead.contents).1
    have hsame : m₁.contentsOf args = m.contentsOf args :=
      List.map_congr_left fun w hw => hhead.contents_eq (hargs w hw)
    show m'.contents v' :: m'.contentsOf values = _
    rw [hrest.contents_eq hv', hcontents, hrest.contents, hsame]
    rfl
  case holds => exact List.forall_mem_cons.2 ⟨hrest.grows.holds hv', hrest.holds⟩
  case separate =>
    intro hseparate
    obtain ⟨hapart, hlater⟩ := Loop.separate_cons.1 hseparate
    refine Loop.separate_cons.2 ⟨fun r hr hmem => ?_, hrest.separate hlater⟩
    -- The array that the head has come to is another's only if it is so among the arguments.
    obtain ⟨j, hj⟩ := List.getElem?_of_mem hmem
    rcases hrest.own j r hj with harg | hfresh
    · have harg := List.mem_of_getElem? harg
      rcases hown hr with hhead | hfresh
      · exact hapart r hhead harg
      · exact absurd (hargs _ harg) (Nat.not_lt.2 hfresh)
    · subst hr
      exact absurd hv' (Nat.not_lt.2 hfresh)
  case own =>
    intro i r hi
    cases i with
    | zero => exact (hown (Option.some.inj hi)).imp_left (congrArg some)
    | succ i => exact (hrest.own i r hi).imp_right (Nat.le_trans hlength)
  case kept =>
    intro r hr
    rw [hrest.kept r (Nat.lt_of_lt_of_le hr hlength), hhead.kept r hr]
  case grows => exact hhead.grows.trans hrest.grows
  case invocations => exact hrest.invocations.trans hhead.invocations

theorem castTo_copied {v : Value} (source : OperandType) {target : OperandType} {dtype : DType}
    (hm : m.WellFormed) (hv : m.Holds v) (hsuits : (m.contents v).Suits target)
    (helement : target.element? = some dtype) :
    ∃ v' m', (castTo v source target).run m = (.ok v', m') ∧ Copied m [v] [v'] [dtype] m' := by
  have hseparate (v : Value) : Loop.Separate [v] :=
    Loop.separate_cons.2 ⟨fun _ _ => List.not_mem_nil, nofun⟩
  cases v with
  | scalar s =>
    cases hsuits with
    | scalar _ target =>
      cases helement
      exact ⟨_, m, rfl, rfl, by simp [Memory.Holds], fun _ => hseparate _,
        fun i r hi => (nomatch List.mem_singleton.1 (List.mem_of_getElem? hi)),
        fun _ _ => rfl, .refl m, rfl⟩
  | array r =>
    have harray : (Contents.array (m.buffer r)).Suits target := hsuits
    cases harray with
    | array _ target layout =>
      cases helement
      unfold castTo
      show ∃ v' m', (if (m.buffer r).rank ≠ (m.buffer r).rank then _ else
        _ : Action Value).run m = (.ok v', m') ∧ _
      rw [if_neg (not_not.2 rfl)]
      split
      case isTrue hdtype =>
        refine ⟨.array r, m, rfl, ?_, by simpa using hv, id, fun i r hi => .inl hi,
          fun _ _ => rfl, .refl m, rfl⟩
        show [Contents.array (m.buffer r)] = [.array ((m.buffer r).cast dtype)]
        rw [← hdtype, (hm.buffer r).cast_self]
      case isFalse =>
        have hgrows : m.Grows (m.alloc ((m.buffer r).cast dtype)).2 :=
          Memory.grows_alloc fun hm => (hm.buffer r).cast dtype
        refine ⟨.array m.buffers.length, _, rfl, ?_, ?_, fun _ => hseparate _, fun i r' hi => .inr ?_,
          fun r' hr' => Memory.buffer_alloc_of_lt hr', hgrows, rfl⟩
        · show [Contents.array ((m.alloc _).2.buffer m.buffers.length)] = _
          rw [Memory.buffer_alloc_new]
          rfl
        · intro w hw
          cases List.mem_singleton.1 hw
          show m.buffers.length < (m.alloc _).2.buffers.length
          rw [Memory.length_alloc]
          exact Nat.lt_succ_self _
        · cases List.mem_singleton.1 (List.mem_of_getElem? hi)
          exact Nat.le_refl _

theorem mapM_castTo_copied {l : List (Value × OperandType × OperandType)} {key : List DType}
    (hm : m.WellFormed) (h : ∀ p ∈ l, m.Holds p.1 ∧ (m.contents p.1).Suits p.2.2)
    (hkey : List.Forall₂ (fun p dtype => p.2.2.element? = some dtype) l key) :
    ∃ values m', (l.mapM fun p => castTo p.1 p.2.1 p.2.2).run m = (.ok values, m') ∧
      Copied m (l.map (·.1)) values key m' := by
  induction hkey generalizing m with
  | nil => exact ⟨[], m, rfl, .nil m⟩
  | @cons p dtype l key helement hkey ih =>
    obtain ⟨⟨hv, hsuits⟩, hrest⟩ := List.forall_mem_cons.1 h
    obtain ⟨v', m₁, hcast, hhead⟩ := castTo_copied p.2.1 hm hv hsuits helement
    obtain ⟨values, m', hcasts, hvalues⟩ := ih (hhead.grows.wellFormed hm)
      fun q hq => ⟨hhead.grows.holds (hrest q hq).1,
        (hrest q hq).2.grows hhead.grows (hrest q hq).1⟩
    have hheld : ∀ w ∈ (p :: l).map (·.1), m.Holds w :=
      List.forall_mem_map.2 fun q hq => (h q hq).1
    refine ⟨v' :: values, m', ?_, .cons hheld hhead hvalues⟩
    rw [List.mapM_cons, Effect.run_bind_of_ok hcast, Effect.run_bind_of_ok hcasts]
    rfl

end Action

namespace Lowering.Trampoline

/-- A copy is converted back to the array that it was made from; the array itself needs nothing. -/
theorem writeBack_copies {p : (Value × Value) × Bool} (hm : m.WellFormed)
    (h : Action.Converted m p.1.1 p.1.2) :
    ∃ m', (writeBack p).run m = (.ok (), m') ∧ m'.invocations = m.invocations ∧
      (∀ r, p.1.1 ≠ .array r → m'.buffer r = m.buffer r) ∧
      ∀ r c, p.2 = true → p.1.1 = .array r → p.1.2 = .array c →
        m'.buffer r = (m.buffer c).cast (m.buffer r).dtype := by
  unfold writeBack
  split
  case h_2 hskipped =>
    exact ⟨m, rfl, rfl, fun _ _ => rfl, fun r c hflag htarget hsource =>
      (hskipped r c (Prod.ext (Prod.ext htarget hsource) hflag)).elim⟩
  case h_1 target source =>
    by_cases hsame : target = source
    case pos =>
      subst hsame
      refine ⟨m, by rw [Action.assign, if_neg (not_not.2 rfl)]; rfl, rfl, fun _ _ => rfl, ?_⟩
      rintro r c - htarget hsource
      cases htarget
      cases hsource
      exact (hm.buffer target).cast_self.symm
    case neg =>
      have hassign := Buffer.assign_whole (hm.buffer target) (hm.buffer source) h.shape
      refine ⟨m.store target ((m.buffer source).cast (m.buffer target).dtype), ?_, rfl, ?_, ?_⟩
      · rw [Action.assign, if_pos hsame, Effect.run_get_bind]
        exact Loop.update_run_of_ok hassign
      · intro r hr
        exact Memory.buffer_store_of_ne fun heq => hr (heq ▸ rfl)
      · rintro r c - htarget hsource
        cases htarget
        cases hsource
        exact Memory.buffer_store_self h.holds

theorem forM_writeBack_copies {l : List ((Value × Value) × Bool)} (hm : m.WellFormed)
    (h : ∀ p ∈ l, Action.Converted m p.1.1 p.1.2) (hseparate : Loop.Separate (l.map (·.1.1)))
    (hsources : ∀ p ∈ l, ∀ q ∈ l, ∀ r, p.1.2 = .array r → q.1.1 = .array r → p.1.1 = .array r) :
    ∃ m', (l.forM writeBack).run m = (.ok (), m') ∧ m'.invocations = m.invocations ∧
      (∀ r, (∀ p ∈ l, p.1.1 ≠ .array r) → m'.buffer r = m.buffer r) ∧
      ∀ p ∈ l, ∀ r c, p.2 = true → p.1.1 = .array r → p.1.2 = .array c →
        m'.buffer r = (m.buffer c).cast (m.buffer r).dtype := by
  induction l generalizing m with
  | nil => exact ⟨m, rfl, rfl, fun _ _ => rfl, fun _ hp => absurd hp List.not_mem_nil⟩
  | cons p l ih =>
    obtain ⟨hp, hrest⟩ := List.forall_mem_cons.1 h
    obtain ⟨hhead, hlater⟩ := Loop.separate_cons.1 hseparate
    obtain ⟨m₁, hrun, hinvocations, hothers, hwritten⟩ := writeBack_copies hm hp
    have hgrows : m.Grows m₁ := (writeBack_grows p).of_run hrun
    obtain ⟨m', hruns, hinvocations', hothers', hwritten'⟩ := ih (hgrows.wellFormed hm)
      (fun q hq => (hrest q hq).grows hgrows) hlater
      (fun q hq q' hq' => hsources q (List.mem_cons_of_mem _ hq) q' (List.mem_cons_of_mem _ hq'))
    -- What is written back for the others is not the array that was just written.
    have hapart {q : (Value × Value) × Bool} (hq : q ∈ l) {r : Ref} (hr : q.1.1 = .array r) :
        p.1.1 ≠ .array r :=
      fun heq => hhead r heq (hr ▸ List.mem_map_of_mem hq)
    refine ⟨m', (Effect.run_bind_of_ok hrun).trans hruns, hinvocations'.trans hinvocations, ?_, ?_⟩
    case refine_1 =>
      intro r hr
      obtain ⟨hp, hl⟩ := List.forall_mem_cons.1 hr
      rw [hothers' r hl, hothers r hp]
    case refine_2 =>
      refine List.forall_mem_cons.2 ⟨fun r c hflag htarget hsource => ?_,
        fun q hq r c hflag htarget hsource => ?_⟩
      · rw [hothers' r fun q hq hr => hapart hq hr htarget, hwritten r c hflag htarget hsource]
      · have hsource' : p.1.1 ≠ .array c := fun heq => hapart hq
          (hsources q (List.mem_cons_of_mem _ hq) p List.mem_cons_self c hsource heq) heq
        rw [hwritten' q hq r c hflag htarget hsource, hothers r (hapart hq htarget),
          hothers c hsource']

theorem forM_writeBack_run {l : List ((Value × Value) × Bool)} (hm : m.WellFormed)
    (h : ∀ p ∈ l, Action.Converted m p.1.1 p.1.2) : ((l.forM writeBack).run m).1 = .ok () := by
  induction l generalizing m with
  | nil => rfl
  | cons p l ih =>
    obtain ⟨hp, hrest⟩ := List.forall_mem_cons.1 h
    obtain ⟨m₁, hrun, -⟩ := writeBack_copies hm hp
    have hgrows : m.Grows m₁ := (writeBack_grows p).of_run hrun
    show ((writeBack p >>= fun _ => l.forM writeBack).run m).1 = _
    rw [Effect.run_bind_of_ok hrun]
    exact ih (hgrows.wellFormed hm) fun q hq => (hrest q hq).grows hgrows

/-- A trampoline from elements to a kernel that was compiled by the recipe for operands of these types,
of which those flagged and the last are written back. -/
structure Converts (recipe : Recipe) (key : List DType) (flags : List Bool) (t : Trampoline) :
    Prop where
  serves : t.Serves recipe
  key : elementTypes t.inner.args = .ok key
  outer : t.outer.args.length = t.inner.args.length
  writable : t.writable = writableFlags t.inner.args.length flags

variable {recipe : Recipe} {t : Trampoline} {args : List Value} {key : List DType}
  {flags : List Bool}

/-- Only the kernel can make a call fail. -/
theorem call_error {e : Error} (hm : m.WellFormed) (hheld : ∀ v ∈ args, m.Holds v)
    (hsuits : List.Forall₂ Contents.Suits (m.contentsOf args) t.inner.args)
    (he : (t.call args).run m = (.error e, m')) :
    ∃ operands m₁, (t.entry.call operands).run m₁ = (.error e, m') := by
  have hcount : args.length = t.inner.args.length := by
    rw [← hsuits.length_eq, Memory.length_contentsOf]
  rw [call_run hcount fun _ => rankConflict?_eq_none hsuits] at he
  have hargs : ∀ p ∈ args.zip (t.outer.args.zip t.inner.args),
      m.Holds p.1 ∧ (m.contents p.1).Suits p.2.2 := by
    intro p hp
    obtain ⟨i, hi⟩ := List.getElem?_of_mem hp
    obtain ⟨hv, htypes⟩ := List.getElem?_zip_eq_some.1 hi
    have hcontents : (m.contentsOf args)[i]? = some (m.contents p.1) := by
      rw [Memory.getElem?_contentsOf, hv, Option.map_some]
    obtain ⟨type, htype, hsuit⟩ := exists_getElem?_of_forall₂ hsuits hcontents
    cases htype.symm.trans (List.getElem?_zip_eq_some.1 htypes).2
    exact ⟨hheld _ (List.mem_of_getElem? hv), hsuit⟩
  have hkey : List.Forall₂ (fun (p : Value × OperandType × OperandType) dtype =>
      p.2.2.element? = some dtype) (args.zip (t.outer.args.zip t.inner.args))
      ((args.zip (t.outer.args.zip t.inner.args)).map fun p => p.2.2.element?.getD default) := by
    rw [List.forall₂_map_right_iff, List.forall₂_same]
    intro p hp
    obtain ⟨dtype, helement⟩ := (hargs p hp).2.element
    rw [helement, Option.getD_some]
  obtain ⟨converted, m₁, hcast, hcopied⟩ := Action.mapM_castTo_copied hm hargs hkey
  rw [Effect.run_bind_of_ok hcast] at he
  rcases Effect.run_bind_eq_error he with he | ⟨⟨⟩, m₂, hcall, he⟩
  · exact ⟨converted, m₁, he⟩
  · have hgrows : m₁.Grows m₂ := (t.entry.call_grows converted).of_run hcall
    have hpairs : ∀ p ∈ (args.zip converted).zip t.writable,
        Action.Converted m₂ p.1.1 p.1.2 := by
      intro p hp
      obtain ⟨i, hi⟩ := List.getElem?_of_mem (List.of_mem_zip hp).1
      obtain ⟨hv, hv'⟩ := List.getElem?_zip_eq_some.1 hi
      obtain ⟨v, -, hfst, -, -⟩ := Memory.contents_of_cast hcopied.contents hv'
      rw [List.getElem?_map, Option.map_eq_some_iff] at hfst
      obtain ⟨q, hq, rfl⟩ := hfst
      have hsame : p.1.1 = q.1 :=
        Option.some.inj (hv.symm.trans (List.getElem?_zip_eq_some.1 hq).1)
      have hzip : (q.1, p.1.2) ∈ ((args.zip (t.outer.args.zip t.inner.args)).map (·.1)).zip converted :=
        List.mem_of_getElem? (List.getElem?_zip_eq_some.2
          ⟨by rw [List.getElem?_map, hq, Option.map_some], hv'⟩)
      have hheld' : ∀ v ∈ (args.zip (t.outer.args.zip t.inner.args)).map (·.1), m.Holds v :=
        List.forall_mem_map.2 fun q hq => (hargs q hq).1
      exact hsame ▸ (hcopied.converted hheld' hzip).grows hgrows
    have hok := forM_writeBack_run (hgrows.wellFormed (hcopied.grows.wellFormed hm)) hpairs
    rw [he] at hok
    cases hok

theorem Converts.castTo_args (h : t.Converts recipe key flags) (hm : m.WellFormed)
    (hheld : ∀ v ∈ args, m.Holds v)
    (hsuits : List.Forall₂ Contents.Suits (m.contentsOf args) t.inner.args) :
    ∃ values m', ((args.zip (t.outer.args.zip t.inner.args)).mapM fun p =>
        Action.castTo p.1 p.2.1 p.2.2).run m = (.ok values, m') ∧
      Action.Copied m args values key m' := by
  have hcount : args.length = (t.outer.args.zip t.inner.args).length := by
    rw [List.length_zip, h.outer, Nat.min_self, ← hsuits.length_eq, Memory.length_contentsOf]
  have hfst : (args.zip (t.outer.args.zip t.inner.args)).map Prod.fst = args :=
    List.map_fst_zip (Nat.le_of_eq hcount)
  have htypes : (args.zip (t.outer.args.zip t.inner.args)).map (Prod.snd ∘ Prod.snd) =
      t.inner.args := by
    rw [← List.map_map, List.map_snd_zip (Nat.le_of_eq hcount.symm),
      List.map_snd_zip (Nat.le_of_eq h.outer.symm)]
  have hkey := h.key
  generalize args.zip (t.outer.args.zip t.inner.args) = l at hfst htypes
  subst hfst
  rw [← htypes, Memory.contentsOf, List.map_map, List.forall₂_map_left_iff,
    List.forall₂_map_right_iff, List.forall₂_same] at hsuits
  rw [← htypes, elementTypes_eq_ok, List.forall₂_map_left_iff] at hkey
  exact Action.mapM_castTo_copied hm
    (fun p hp => ⟨hheld _ (List.mem_map_of_mem hp), hsuits p hp⟩) hkey

/-- A call on separate operands: the kernel is handed them converted, and what it makes of those that
are written back is converted to the types that they have. -/
theorem Converts.call_run (h : t.Converts recipe key flags) (hm : m.WellFormed)
    (hseparate : Loop.Separate args) (hheld : ∀ v ∈ args, m.Holds v)
    (hsuits : List.Forall₂ Contents.Suits (m.contentsOf args) t.inner.args) {held : List Contents}
    (hconverted : List.zipWith Contents.cast (m.contentsOf args) key = held) :
    ∃ m', (t.call args).run m = (Body.verdict (recipe.kernel.body.transform held).1, m') ∧
      m'.invocations = m.invocations ++ [held] ∧
      ((recipe.kernel.body.transform held).1 = none → ∀ (i : Nat) (r : Ref) core,
        args[i]? = some (.array r) → t.writable[i]? = some true →
        (recipe.kernel.body.transform held).2[i]? = some (.array core) →
        m'.buffer r = core.cast (m.buffer r).dtype) := by
  have hcount : args.length = t.inner.args.length := by
    rw [← hsuits.length_eq, Memory.length_contentsOf]
  obtain ⟨values, m₁, hcast, hcopied⟩ := h.castTo_args hm hheld hsuits
  have hcontents : m₁.contentsOf values = held := hcopied.contents.trans hconverted
  obtain ⟨m₂, hcall, hafter, -, hinvocations⟩ :=
    recipe.kernel.body.call_transform (hcopied.separate hseparate) hcopied.holds
  rw [hcontents] at hcall hafter hinvocations
  rw [hcopied.invocations] at hinvocations
  have hentry : (t.entry.call values).run m₁ = _ := (congrFun h.serves.call values).symm ▸ hcall
  rw [Trampoline.call_run hcount fun _ => rankConflict?_eq_none hsuits, Effect.run_bind_of_ok hcast]
  rcases hverdict : (recipe.kernel.body.transform held).1 with _ | text
  case some =>
    -- The kernel fails, and nothing is written back.
    rw [hverdict] at hentry
    exact ⟨m₂, Effect.run_bind_of_error hentry, hinvocations,
      fun hnone => absurd hnone (Option.some_ne_none text)⟩
  case none =>
    rw [hverdict] at hentry
    have hgrows : m₁.Grows m₂ := (recipe.kernel.body.call_grows values).of_run hcall
    have hwf := hgrows.wellFormed (hcopied.grows.wellFormed hm)
    have hpairs : ∀ p ∈ (args.zip values).zip t.writable, Action.Converted m₂ p.1.1 p.1.2 :=
      fun p hp => (hcopied.converted hheld (List.of_mem_zip hp).1).grows hgrows
    obtain ⟨hseparate', hsources⟩ := hcopied.writeBack_apart hseparate hheld t.writable
    obtain ⟨m', hback, hnoted, -, hwritten⟩ :=
      forM_writeBack_copies hwf hpairs hseparate' hsources
    refine ⟨m', (Effect.run_bind_of_ok hentry).trans hback, hnoted.trans hinvocations, ?_⟩
    intro _ i r core hr hflag hcore
    rw [← hafter, Memory.getElem?_contentsOf_eq_array] at hcore
    obtain ⟨c, hc, rfl⟩ := hcore
    have hmem : ((Value.array r, Value.array c), true) ∈ (args.zip values).zip t.writable :=
      List.mem_of_getElem? (List.getElem?_zip_eq_some.2
        ⟨List.getElem?_zip_eq_some.2 ⟨hr, hc⟩, hflag⟩)
    have hdtype := ((hcopied.grows.trans hgrows).buffer r (hheld _ (List.mem_of_getElem? hr))).1
    rw [hwritten _ hmem r c rfl rfl rfl, hdtype]

theorem Converts.length_key (h : t.Converts recipe key flags) :
    key.length = recipe.signature.arity + 1 := by
  rw [← (elementTypes_eq_ok.1 h.key).length_eq, h.serves.checked.count]

/-- The operands that are written back: those that are flagged, and the last. -/
theorem Converts.writable_eq_true (h : t.Converts recipe key flags) {i : Nat}
    (hi : i ≤ recipe.signature.arity) :
    t.writable[i]? = some true ↔ i = recipe.signature.arity ∨ flags.getD i false = true := by
  rw [h.writable, h.serves.checked.count, writableFlags, List.getElem?_map,
    List.getElem?_range (Nat.lt_succ_of_le hi), Option.map_some, Option.some.injEq, Bool.or_eq_true,
    beq_iff_eq, Nat.add_right_cancel_iff]

end Lowering.Trampoline

namespace Loop

variable {recipe : Recipe} {t : Lowering.Trampoline} {elements : List Contents} {key : List DType}
  {flags : List Bool}

/-- What a trampoline makes of elements: what the kernel makes of them converted, and converted back. -/
theorem outcome_trampoline (ht : t.Converts recipe key flags) (hwf : ∀ e ∈ elements, e.WellFormed)
    (hsuits : List.Forall₂ Contents.Suits elements t.inner.args) {held : List Contents}
    (hconverted : List.zipWith Contents.cast elements key = held) :
    (outcome t.call elements).result = Body.verdict (recipe.kernel.body.transform held).1 ∧
      (outcome t.call elements).noted = [held] ∧
      ((recipe.kernel.body.transform held).1 = none → ∀ (i : Nat) b core,
        elements[i]? = some (.array b) → t.writable[i]? = some true →
        (recipe.kernel.body.transform held).2[i]? = some (.array core) →
        (outcome t.call elements).after[i]? = some (.array (core.cast b.dtype))) := by
  have hplaced := placed_place elements .empty
  have hseparate := (separate_place elements .empty).1
  unfold outcome
  generalize place elements .empty = placed at hplaced hseparate
  rw [← hplaced.contents] at hsuits hconverted
  obtain ⟨m', hrun, hinvocations, hback⟩ := ht.call_run
    (hplaced.wellFormed Memory.wellFormed_empty hwf) hseparate hplaced.holds hsuits hconverted
  dsimp only
  rw [hrun]
  refine ⟨rfl, hinvocations.trans (hplaced.invocations ▸ rfl), fun hok i b core hi hflag hcore => ?_⟩
  rw [← hplaced.contents, Memory.getElem?_contentsOf_eq_array] at hi
  obtain ⟨r, hr, rfl⟩ := hi
  exact Memory.getElem?_contentsOf_eq_array.2 ⟨r, hr, hback hok i r core hr hflag hcore⟩

end Loop

end Corewise
