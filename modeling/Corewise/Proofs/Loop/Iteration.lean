import Corewise.Loop.Team
import Corewise.Proofs.Loop.Plan
import Corewise.Proofs.Memory
/-!
One iteration of a loop. What it hands to the kernel is a function of the operands' sub-arrays at the
loop index (`elementsAt`), what the kernel makes of them is a function of their contents (`outcome`),
and what it leaves is the operands with the writable elements put back (`patch`). Nothing but the
kernel can make it fail.
-/

namespace Corewise.Loop

/-- An array that a kernel is handed keeps its type and its shape. -/
def Callee.KeepsShapes (callee : Callee) : Prop :=
  ∀ values, Effect.Keeps Memory.Grows (callee values)

namespace Access

/-- The index is in range of the loop axes of an operand of this shape. -/
structure Fits (a : Access) (shape : List Nat) : Prop where
  rank_le : a.rank ≤ shape.length
  inRange : Shape.InRange (outerOf shape a.rank) a.index

/-- Where the addressed elements of an operand of this shape start. -/
def start (a : Access) (shape : List Nat) : Nat :=
  (Shape.offset? (outerOf shape a.rank) a.index).getD 0 * Shape.size (coreOf shape a.rank)

/-- The addressed elements of an array. -/
def run (a : Access) (b : Buffer) : List Scalar :=
  b.block (a.start b.shape) (Shape.size (coreOf b.shape a.rank))

/-- What the kernel is handed for an array. -/
def held (a : Access) (b : Buffer) : Contents :=
  if a.rank = 0 then
    if a.isOutput then .array ⟨b.dtype, [1], a.run b⟩ else .scalar ((a.run b).headD default)
  else .array ⟨b.dtype, coreOf b.shape a.rank, a.run b⟩

theorem held_of_bare {a : Access} (hrank : a.rank = 0) (hout : a.isOutput = false) (b : Buffer) :
    a.held b = .scalar ((a.run b).headD default) := by
  simp [held, hrank, hout]

theorem held_congr {a : Access} {b b' : Buffer} (hdtype : b'.dtype = b.dtype)
    (hshape : b'.shape = b.shape) (hrun : a.run b' = a.run b) : a.held b' = a.held b := by
  simp only [held, hdtype, hshape, hrun]

theorem Fits.start_le {a : Access} {b : Buffer} (h : a.Fits b.shape) (hb : b.WellFormed) :
    a.start b.shape + Shape.size (coreOf b.shape a.rank) ≤ b.size := by
  obtain ⟨k, hk, hlt⟩ := h.inRange.offset
  rw [start, hk, Option.getD_some]
  exact hb.run_le (outerOf_append_coreOf _ _).symm hlt

theorem Fits.length_run {a : Access} {b : Buffer} (h : a.Fits b.shape) (hb : b.WellFormed) :
    (a.run b).length = Shape.size (coreOf b.shape a.rank) := Buffer.length_block (h.start_le hb)

theorem coreOf_zero (shape : List Nat) : coreOf shape 0 = [] := List.drop_length

theorem outerOf_zero (shape : List Nat) : outerOf shape 0 = shape := List.take_length

theorem Fits.element_eq {a : Access} {m : Memory} {r : Ref} (h : a.Fits (m.buffer r).shape)
    (hm : m.WellFormed) : element m a (.array r) = .ok (a.held (m.buffer r)) := by
  have hb := hm.buffer r
  obtain ⟨k, hk, hlt⟩ := h.inRange.offset
  unfold element held
  by_cases hrank : a.rank = 0
  case pos =>
    rw [hrank, outerOf_zero] at hk
    obtain ⟨s, hget, hdtype, hrun⟩ := hb.get?_eq hk
    have hheld : a.run (m.buffer r) = [s] := by
      rw [run, start, hrank, outerOf_zero, coreOf_zero, hk]
      simpa using hrun
    simp only [hrank, hget, hheld, if_true]
    have hcarrier : carrier (m.buffer r).dtype s = ⟨(m.buffer r).dtype, [1], [s]⟩ := by
      rw [carrier, ← hdtype, Scalar.cast_dtype_self]
    rw [hcarrier]
    split <;> rfl
  case neg =>
    simp only [if_neg hrank]
    rw [Buffer.slice_eq (outerOf_append_coreOf _ a.rank).symm hk, run, start, hk]
    rfl

theorem Fits.held_wellFormed {a : Access} {b : Buffer} (h : a.Fits b.shape) (hb : b.WellFormed) :
    (a.held b).WellFormed := by
  have hlen := h.length_run hb
  have hdtype : ∀ s ∈ a.run b, s.dtype = b.dtype := fun s hs => hb.2 s (Buffer.mem_block hs)
  unfold held
  split
  case isTrue hrank =>
    rw [hrank, coreOf_zero] at hlen
    split
    · exact ⟨hlen, hdtype⟩
    · trivial
  case isFalse => exact ⟨hlen, hdtype⟩

/-- The buffer after an element has been put back to it. -/
def patch (a : Access) (element : Contents) (b : Buffer) : Buffer :=
  match element with
  | .scalar _ => b
  | .array core => if a.writable then b.overlay (a.start b.shape) core.data else b

end Access

/-! Handing elements to the kernel. -/

/-- The elements lie in the memory, in fresh arrays behind what was there. -/
structure Placed (elements : List Contents) (m : Memory) (values : List Value) (m' : Memory) :
    Prop where
  contents : m'.contentsOf values = elements
  holds : ∀ v ∈ values, m'.Holds v
  invocations : m'.invocations = m.invocations
  length_le : m.buffers.length ≤ m'.buffers.length
  buffer : ∀ r < m.buffers.length, m'.buffer r = m.buffer r
  wellFormed : m.WellFormed → (∀ e ∈ elements, e.WellFormed) → m'.WellFormed

theorem Placed.scalar {elements : List Contents} {m m' : Memory} {values : List Value} (s : Scalar)
    (h : Placed elements m values m') : Placed (.scalar s :: elements) m (.scalar s :: values) m' where
  contents := congrArg (Contents.scalar s :: ·) h.contents
  holds := List.forall_mem_cons.2 ⟨trivial, h.holds⟩
  invocations := h.invocations
  length_le := h.length_le
  buffer := h.buffer
  wellFormed hm he := h.wellFormed hm fun e hmem => he e (List.mem_cons_of_mem _ hmem)

theorem Placed.array {elements : List Contents} {m m' : Memory} {values : List Value} {b : Buffer}
    (h : Placed elements (m.alloc b).2 values m') :
    Placed (.array b :: elements) m (.array m.buffers.length :: values) m' := by
  have hlen := h.length_le
  rw [Memory.length_alloc] at hlen
  have hnew := h.buffer m.buffers.length (by rw [Memory.length_alloc]; omega)
  rw [Memory.buffer_alloc_new] at hnew
  refine ⟨?_, List.forall_mem_cons.2 ⟨hlen, h.holds⟩, h.invocations, by omega, fun r hr => ?_,
    fun hm he => ?_⟩
  · show Contents.array (m'.buffer m.buffers.length) :: m'.contentsOf values = _
    rw [hnew, h.contents]
  · rw [h.buffer r (by rw [Memory.length_alloc]; omega), Memory.buffer_alloc_of_lt hr]
  · exact h.wellFormed (hm.alloc (he _ List.mem_cons_self)) fun e hmem =>
      he e (List.mem_cons_of_mem _ hmem)

theorem placed_place (elements : List Contents) (m : Memory) :
    Placed elements m (place elements m).1 (place elements m).2 := by
  induction elements generalizing m with
  | nil => exact ⟨rfl, by simp [place], rfl, Nat.le_refl _, fun _ _ => rfl, fun hm _ => hm⟩
  | cons e elements ih =>
    cases e with
    | scalar s => exact (ih m).scalar s
    | array b => exact (ih (m.alloc b).2).array

theorem forall₂_map_map {α β γ : Type} {R : β → γ → Prop} {f : α → β} {g : α → γ} {l : List α}
    (h : ∀ a ∈ l, R (f a) (g a)) : List.Forall₂ R (l.map f) (l.map g) := by
  rw [List.forall₂_map_left_iff, List.forall₂_map_right_iff, List.forall₂_same]
  exact h

/-- The kernel writes elements, and that is all it does to them. -/
theorem Callee.KeepsShapes.rewrites {callee : Callee} (h : callee.KeepsShapes)
    {elements : List Contents} (he : ∀ e ∈ elements, e.WellFormed) :
    List.Forall₂ Memory.Rewrites elements (outcome callee elements).after := by
  have hplaced := placed_place elements .empty
  have hframe := hplaced.wellFormed Memory.wellFormed_empty he
  conv_lhs => rw [← hplaced.contents]
  exact forall₂_map_map fun v hv => (h _ _).rewrites hframe (hplaced.holds v hv)

/-! Putting elements back. -/

theorem update_run_of_ok {m : Memory} {r : Ref} {f : Buffer → Except ShapeError Buffer} {b : Buffer}
    (h : f (m.buffer r) = .ok b) : (Action.update r f).run m = (.ok (), m.store r b) := by
  rw [Action.update_run, h]

/-- What an element and its operand have in common: the size of the core. -/
def Returns (m : Memory) (a : Access) (operand : Value) (element : Contents) : Prop :=
  match operand, element with
  | .array r, .array core =>
    a.Fits (m.buffer r).shape ∧ core.size = Shape.size (coreOf (m.buffer r).shape a.rank)
  | _, _ => True

theorem put_run {m : Memory} {a : Access} {operand : Value} {element : Contents}
    (hm : m.WellFormed) (h : Returns m a operand element) :
    (put a operand element).run m =
      (.ok (), match operand with
        | .scalar _ => m
        | .array r => m.store r (a.patch element (m.buffer r))) := by
  cases operand with
  | scalar s => rfl
  | array r =>
    cases element with
    | scalar s =>
      show (Except.ok (), m) = (Except.ok (), m.store r (m.buffer r))
      rw [Memory.store_buffer_self]
    | array core =>
      obtain ⟨hfits, hsize⟩ := h
      obtain ⟨k, hk, -⟩ := hfits.inRange.offset
      simp only [put, Access.patch]
      split
      case isFalse =>
        show (Except.ok (), m) = (Except.ok (), m.store r (m.buffer r))
        rw [Memory.store_buffer_self]
      case isTrue =>
        split
        case isTrue hout =>
          rw [hout.2, Access.outerOf_zero] at hk
          rw [hout.2, Access.coreOf_zero] at hsize
          obtain ⟨s, hs⟩ := List.length_eq_one_iff.1 hsize
          apply update_run_of_ok
          rw [(hm.buffer r).set_eq hk, Access.start, hout.2, Access.outerOf_zero, Access.coreOf_zero, hk,
            Buffer.getFlat?, hs]
          simp
        case isFalse =>
          apply update_run_of_ok
          rw [Buffer.assign_eq (outerOf_append_coreOf _ a.rank).symm hk hsize, Access.start, hk,
            Option.getD_some]

theorem put_grows (a : Access) (operand : Value) (element : Contents) :
    Effect.Keeps Memory.Grows (put a operand element) := by
  unfold put
  split
  case h_1 =>
    split
    case isTrue =>
      split
      · exact Action.update_grows fun _ _ => Buffer.set_eq_ok
      · exact Action.update_grows fun _ _ => Buffer.assign_eq_ok
    case isFalse => exact Effect.Keeps.pure _
  case h_2 => exact Effect.Keeps.pure _

theorem update_invocations (r : Ref) (f : Buffer → Except ShapeError Buffer) (m : Memory) :
    ((Action.update r f).run m).2.invocations = m.invocations := by
  rw [Action.update_run]
  split <;> rfl

theorem put_invocations (a : Access) (operand : Value) (element : Contents) (m : Memory) :
    ((put a operand element).run m).2.invocations = m.invocations := by
  unfold put
  split
  case h_1 =>
    split
    case isTrue =>
      split
      · exact update_invocations _ _ m
      · exact update_invocations _ _ m
    case isFalse => rfl
  case h_2 => rfl

theorem Returns.grows {m m' : Memory} {a : Access} {operand : Value} {element : Contents}
    (h : Returns m a operand element) (hg : m.Grows m') (hv : m.Holds operand) :
    Returns m' a operand element := by
  cases operand with
  | scalar s => trivial
  | array r =>
    cases element with
    | scalar s => trivial
    | array core =>
      obtain ⟨-, hshape⟩ := hg.buffer r hv
      simpa only [Returns, hshape] using h

theorem put_ok {m : Memory} {t : Return} (hm : m.WellFormed) (h : Returns m t.1.2 t.1.1 t.2) :
    ∃ m', (put t.1.2 t.1.1 t.2).run m = (.ok (), m') := ⟨_, put_run hm h⟩

theorem forM_put_ok {m : Memory} {returns : List Return} (hm : m.WellFormed)
    (h : ∀ t ∈ returns, m.Holds t.1.1 ∧ Returns m t.1.2 t.1.1 t.2) :
    ∃ m', (returns.forM fun t => put t.1.2 t.1.1 t.2).run m = (.ok (), m') ∧ m.Grows m' ∧
      m'.invocations = m.invocations := by
  induction returns generalizing m with
  | nil => exact ⟨m, rfl, .refl m, rfl⟩
  | cons t returns ih =>
    obtain ⟨ht, hrest⟩ := List.forall_mem_cons.1 h
    obtain ⟨m₁, hrun⟩ := put_ok hm ht.2
    have hgrows := (put_grows _ _ _).of_run hrun
    have hkept := put_invocations t.1.2 t.1.1 t.2 m
    rw [hrun] at hkept
    obtain ⟨m', hruns, hgrows', hkept'⟩ := ih (hgrows.wellFormed hm) fun t' ht' =>
      ⟨hgrows.holds (hrest t' ht').1, (hrest t' ht').2.grows hgrows (hrest t' ht').1⟩
    exact ⟨m', (Effect.run_bind_of_ok hrun).trans hruns, hgrows.trans hgrows', hkept'.trans hkept⟩

/-! Iterations. -/

/-- How an iteration addresses the operand at a position. -/
def accessAt (signature : CoreSignature) (plan : Plan) (writable : List Bool)
    (flat position rank : Nat) (outer : List Nat) : Access :=
  { position, rank
    isOutput := position == signature.arity
    writable := position == signature.arity || writable.getD position false
    index := Shape.project (Shape.unravel flat plan.outer) outer }

def elementOf (m : Memory) (p : Value × Access) : Contents :=
  match p.1 with
  | .scalar s => .scalar s
  | .array r => p.2.held (m.buffer r)

/-- What an iteration hands to the kernel. -/
def elementsAt (signature : CoreSignature) (plan : Plan) (operands : List Value)
    (writable : List Bool) (m : Memory) (flat : Nat) : List Contents :=
  (addressed signature plan operands writable flat).map (elementOf m)

/-- Each of the elements is what its operand held in one of these memories. -/
def Copied (signature : CoreSignature) (plan : Plan) (operands : List Value) (writable : List Bool)
    (memories : Memory → Prop) (flat : Nat) (elements : List Contents) : Prop :=
  List.Forall₂ (fun p e => ∃ m, memories m ∧ e = elementOf m p)
    (addressed signature plan operands writable flat) elements

/-- A memory in which the loop over the operands can run. -/
structure Ready (signature : CoreSignature) (plan : Plan) (operands : List Value) (m : Memory) :
    Prop where
  planned : Planned signature (operands.map m.shape) plan
  wellFormed : m.WellFormed
  holds : ∀ v ∈ operands, m.Holds v

section

variable {signature : CoreSignature} {plan : Plan} {operands : List Value} {writable : List Bool}
  {m m' : Memory} {flat : Nat} {callee : Callee} {memories memories' : Memory → Prop}
  {elements : List Contents}

theorem copied_elementsAt (h : memories m) : Copied signature plan operands writable memories flat
    (elementsAt signature plan operands writable m flat) := by
  rw [Copied, elementsAt, List.forall₂_map_right_iff, List.forall₂_same]
  exact fun p _ => ⟨m, h, rfl⟩

theorem Copied.mono (h : Copied signature plan operands writable memories flat elements)
    (hle : ∀ m, memories m → memories' m) :
    Copied signature plan operands writable memories' flat elements :=
  h.imp fun _ _ ⟨m, hm, he⟩ => ⟨m, hle m hm, he⟩

theorem Copied.length_eq (h : Copied signature plan operands writable memories flat elements)
    (m : Memory) :
    elements.length = (elementsAt signature plan operands writable m flat).length := by
  rw [elementsAt, List.length_map]
  exact (List.Forall₂.length_eq h).symm

theorem Copied.getElem? (h : Copied signature plan operands writable memories flat elements) {i : Nat}
    {p : Value × Access} (hp : (addressed signature plan operands writable flat)[i]? = some p) :
    ∃ m, memories m ∧ elements[i]? = some (elementOf m p) := by
  obtain ⟨e, he, m, hm, rfl⟩ := exists_getElem?_of_forall₂ h hp
  exact ⟨m, hm, he⟩

/-- The element at a position is the one that would have been handed over in one of the memories. -/
theorem Copied.elementsAt (h : Copied signature plan operands writable memories flat elements)
    {i : Nat} {e : Contents} (he : elements[i]? = some e) :
    ∃ m, memories m ∧ (elementsAt signature plan operands writable m flat)[i]? = some e := by
  have hlt : i < (addressed signature plan operands writable flat).length := by
    rw [List.Forall₂.length_eq h]
    exact (List.getElem?_eq_some_iff.1 he).1
  have hp := List.getElem?_eq_getElem hlt
  obtain ⟨m, hm, he'⟩ := h.getElem? hp
  refine ⟨m, hm, ?_⟩
  rw [Loop.elementsAt, List.getElem?_map, hp, ← he, he', Option.map_some]

/-- The last operand of a loop is an array. -/
theorem output_of_plan (h : Loop.plan signature (m.contentsOf operands) = .ok plan) :
    operands.length = signature.arity + 1 ∧
      ∃ out, operands[signature.arity]? = some (.array out) := by
  obtain ⟨-, output, hcount, houtput, -⟩ := plan_cases h
  obtain ⟨out, hout, -⟩ := Memory.getElem?_contentsOf_eq_array.1 houtput
  exact ⟨(m.length_contentsOf operands).symm.trans hcount, out, hout⟩

theorem ready_of_plan (hplan : Loop.plan signature (m.contentsOf operands) = .ok plan)
    (hm : m.WellFormed) (hheld : ∀ v ∈ operands, m.Holds v) :
    Ready signature plan operands m := by
  refine ⟨?_, hm, hheld⟩
  have hplanned := plan_eq_ok hplan
  rw [Memory.contentsOf, List.map_map] at hplanned
  exact hplanned

theorem Ready.grows (h : Ready signature plan operands m) (hg : m.Grows m') :
    Ready signature plan operands m' where
  planned := by
    have hshapes : operands.map m'.shape = operands.map m.shape :=
      List.map_congr_left fun v hv => hg.shape (h.holds v hv)
    exact hshapes ▸ h.planned
  wellFormed := hg.wellFormed h.wellFormed
  holds v hv := hg.holds (h.holds v hv)

theorem getElem?_accesses {i rank : Nat} {outer : List Nat}
    (hrank : signature.ranks[i]? = some rank) (houter : plan.operandOuter[i]? = some outer) :
    (accesses signature plan writable flat)[i]? =
      some (accessAt signature plan writable flat i rank outer) := by
  have hzip : (plan.operandOuter.zip signature.ranks)[i]? = some (outer, rank) :=
    List.getElem?_zip_eq_some.2 ⟨houter, hrank⟩
  simp [accesses, List.getElem?_zipIdx, hzip, accessAt]

theorem Ready.access (h : Ready signature plan operands m) (writable : List Bool) (flat : Nat)
    {i : Nat} {v : Value} (hi : operands[i]? = some v) :
    ∃ rank, signature.ranks[i]? = some rank ∧ rank ≤ (m.shape v).length ∧
      plan.operandOuter[i]? = some (outerOf (m.shape v) rank) ∧
      Shape.Stretches (outerOf (m.shape v) rank) plan.outer ∧
      (addressed signature plan operands writable flat)[i]? =
        some (v, accessAt signature plan writable flat i rank (outerOf (m.shape v) rank)) := by
  have hshape : (operands.map m.shape)[i]? = some (m.shape v) := by
    rw [List.getElem?_map, hi, Option.map_some]
  obtain ⟨rank, hrank, hle, houter, hstretches⟩ := h.planned.operand hshape
  exact ⟨rank, hrank, hle, houter, hstretches,
    List.getElem?_zip_eq_some.2 ⟨hi, getElem?_accesses hrank houter⟩⟩

/-- An operand that the loop's outer axes have been planned for has just these. -/
theorem Ready.outerOf_eq (h : Ready signature plan operands m) {i rank : Nat} {r : Ref}
    (hi : operands[i]? = some (.array r)) (hrank : signature.ranks[i]? = some rank)
    (houter : plan.operandOuter[i]? = some plan.outer) :
    outerOf (m.buffer r).shape rank = plan.outer := by
  obtain ⟨rank', hrank', -, houter', -⟩ := h.access [] 0 hi
  cases hrank.symm.trans hrank'
  exact Option.some.inj (houter'.symm.trans houter)

theorem Ready.outerOf_output (h : Ready signature plan operands m) {out : Ref}
    (hout : operands[signature.arity]? = some (.array out)) :
    outerOf (m.buffer out).shape signature.outputRank = plan.outer :=
  h.outerOf_eq hout getElem?_outputRank h.planned.output

/-- The output's shape is made up of the loop's axes and its core. -/
theorem Ready.output_shape (h : Ready signature plan operands m) {out : Ref}
    (hout : operands[signature.arity]? = some (.array out)) :
    (m.buffer out).shape = plan.outer ++ coreOf (m.buffer out).shape signature.outputRank := by
  rw [← h.outerOf_output hout, outerOf_append_coreOf]

theorem Ready.fits (h : Ready signature plan operands m) (hflat : flat < plan.iterations)
    {p : Value × Access} (hp : p ∈ addressed signature plan operands writable flat) :
    p.1 ∈ operands ∧ p.2.Fits (m.shape p.1) := by
  obtain ⟨i, hi⟩ := List.getElem?_of_mem hp
  have hv := (List.getElem?_zip_eq_some.1 hi).1
  obtain ⟨rank, -, hle, -, hstretches, hp⟩ := h.access writable flat hv
  rw [Option.some.inj (hi.symm.trans hp)]
  exact ⟨List.mem_of_getElem? hv, hle, hstretches.inRange_project (Plan.inRange_unravel hflat)⟩

theorem Ready.element_eq (h : Ready signature plan operands m) (hflat : flat < plan.iterations)
    {p : Value × Access} (hp : p ∈ addressed signature plan operands writable flat) :
    element m p.2 p.1 = .ok (elementOf m p) ∧ (elementOf m p).WellFormed := by
  obtain ⟨-, hfits⟩ := h.fits hflat hp
  obtain ⟨v, a⟩ := p
  cases v with
  | scalar s => exact ⟨rfl, trivial⟩
  | array r =>
    exact ⟨Access.Fits.element_eq hfits h.wellFormed,
      Access.Fits.held_wellFormed hfits (h.wellFormed.buffer r)⟩

theorem Ready.element_of_split (h : Ready signature plan operands m) (hflat : flat < plan.iterations)
    {done rest : List (Value × Access)} {p : Value × Access}
    (hsplit : addressed signature plan operands writable flat = done ++ p :: rest) :
    element m p.2 p.1 = .ok (elementOf m p) := by
  have hp : p ∈ addressed signature plan operands writable flat := by
    rw [hsplit]
    exact List.mem_append_right done List.mem_cons_self
  exact (h.element_eq hflat hp).1

theorem Ready.mapM_element (h : Ready signature plan operands m) (writable : List Bool)
    (hflat : flat < plan.iterations) :
    ((addressed signature plan operands writable flat).mapM fun p => element m p.2 p.1) =
      .ok (elementsAt signature plan operands writable m flat) := by
  rw [Effect.mapM_eq_ok, elementsAt, List.forall₂_map_right_iff, List.forall₂_same]
  exact fun p hp => (h.element_eq hflat hp).1

theorem Ready.length_elementsAt (h : Ready signature plan operands m) (writable : List Bool)
    (flat : Nat) :
    (elementsAt signature plan operands writable m flat).length = operands.length := by
  have hcount := h.planned.count
  have hranks := h.planned.rank_le.length_eq
  have houter := h.planned.operandOuter
  simp_all [elementsAt, addressed, accesses]

theorem Copied.wellFormed (hc : Copied signature plan operands writable m.Grows flat elements)
    (h : Ready signature plan operands m) (hflat : flat < plan.iterations) :
    ∀ e ∈ elements, e.WellFormed := by
  intro e he
  obtain ⟨i, hi⟩ := List.getElem?_of_mem he
  obtain ⟨m₁, hgrows, he⟩ := hc.elementsAt hi
  obtain ⟨p, hp, rfl⟩ := List.mem_map.1 (List.mem_of_getElem? he)
  exact ((h.grows hgrows).element_eq hflat hp).2

theorem Ready.elements_wellFormed (h : Ready signature plan operands m) (writable : List Bool)
    (hflat : flat < plan.iterations) :
    ∀ e ∈ elementsAt signature plan operands writable m flat, e.WellFormed :=
  (copied_elementsAt (.refl m)).wellFormed h hflat

theorem Access.Fits.returns {a : Access} {r : Ref} {e : Contents}
    (h : a.Fits (m.buffer r).shape) (he : Memory.Rewrites (a.held (m.buffer r)) e) :
    Returns m a (.array r) e := by
  cases e with
  | scalar s => trivial
  | array core =>
    refine ⟨h, ?_⟩
    unfold Access.held at he
    split at he
    case isTrue hrank =>
      rw [hrank, Access.coreOf_zero]
      split at he
      case isTrue =>
        cases he with
        | array hdtype hshape hcore => exact hcore.1.trans (hshape ▸ rfl)
      case isFalse => cases he
    case isFalse =>
      cases he with
      | array hdtype hshape hcore => exact hcore.1.trans (hshape ▸ rfl)

theorem Copied.returns (hc : Copied signature plan operands writable m.Grows flat elements)
    (h : Ready signature plan operands m) (hcallee : callee.KeepsShapes)
    (hflat : flat < plan.iterations) {t : Return}
    (ht : t ∈ (addressed signature plan operands writable flat).zip (outcome callee elements).after) :
    m.Holds t.1.1 ∧ Returns m t.1.2 t.1.1 t.2 := by
  obtain ⟨i, hi⟩ := List.getElem?_of_mem ht
  obtain ⟨hp, he⟩ := List.getElem?_zip_eq_some.1 hi
  obtain ⟨hv, hfits⟩ := h.fits hflat (List.mem_of_getElem? hp)
  refine ⟨h.holds _ hv, ?_⟩
  obtain ⟨m₁, hgrows, helement⟩ := hc.getElem? hp
  obtain ⟨e, he', hstep⟩ :=
    exists_getElem?_of_forall₂ (hcallee.rewrites (hc.wellFormed h hflat)) helement
  cases he.symm.trans he'
  obtain ⟨⟨v, a⟩, e⟩ := t
  cases v with
  | scalar s => trivial
  | array r =>
    -- The array had its shape already when the element was copied.
    obtain ⟨-, hshape⟩ := hgrows.buffer r (h.holds _ hv)
    have hreturns : Returns m₁ a (.array r) e :=
      Access.Fits.returns (hshape.symm ▸ (hfits : a.Fits (m.buffer r).shape)) hstep
    cases e with
    | scalar s => trivial
    | array core => simpa only [Returns, hshape] using hreturns

/-- Putting back what the kernel has left cannot fail, whatever other iterations have written by then. -/
theorem Copied.put_ok (hc : Copied signature plan operands writable m.Grows flat elements)
    (h : Ready signature plan operands m) (hcallee : callee.KeepsShapes)
    (hflat : flat < plan.iterations) {t : Return}
    (ht : t ∈ (addressed signature plan operands writable flat).zip (outcome callee elements).after)
    {m₁ : Memory} (hgrows : m.Grows m₁) : ∃ m₂, (put t.1.2 t.1.1 t.2).run m₁ = (.ok (), m₂) := by
  obtain ⟨hv, hreturns⟩ := hc.returns h hcallee hflat ht
  exact Loop.put_ok (hgrows.wellFormed h.wellFormed) (hreturns.grows hgrows hv)

/-- What an iteration puts back. -/
def returnsAt (signature : CoreSignature) (plan : Plan) (operands : List Value)
    (writable : List Bool) (callee : Callee) (m : Memory) (flat : Nat) : List Return :=
  (addressed signature plan operands writable flat).zip
    (outcome callee (elementsAt signature plan operands writable m flat)).after

theorem Ready.returns (h : Ready signature plan operands m) (hcallee : callee.KeepsShapes)
    (hflat : flat < plan.iterations) {t : Return}
    (ht : t ∈ returnsAt signature plan operands writable callee m flat) :
    m.Holds t.1.1 ∧ Returns m t.1.2 t.1.1 t.2 :=
  (copied_elementsAt (.refl m)).returns h hcallee hflat ht

theorem iterate_run {elements : List Contents}
    (h : ((addressed signature plan operands writable flat).mapM fun p => element m p.2 p.1) =
      .ok elements) :
    (iterate signature plan operands writable callee flat).run m =
      (Action.ofExcept (outcome callee elements).result >>= fun _ =>
        ((addressed signature plan operands writable flat).zip
          (outcome callee elements).after).forM fun t => put t.1.2 t.1.1 t.2).run
        (m.noting (outcome callee elements).noted) := by
  unfold iterate
  show (Action.ofExcept ((addressed signature plan operands writable flat).mapM fun p =>
    element m p.2 p.1) >>= _).run m = _
  rw [h]
  rfl

/-- An element that cannot be copied ends an iteration before anything has been done. -/
theorem iterate_of_unreadable {e : Error}
    (h : ((addressed signature plan operands writable flat).mapM fun p => element m p.2 p.1) =
      .error e) :
    (iterate signature plan operands writable callee flat).run m = (.error e, m) := by
  unfold iterate
  show (Action.ofExcept ((addressed signature plan operands writable flat).mapM fun p =>
    element m p.2 p.1) >>= _).run m = _
  rw [h]
  rfl

/-- The kernel fails, and nothing of the iteration is put back. -/
theorem Ready.iterate_of_error (h : Ready signature plan operands m)
    (hflat : flat < plan.iterations) {e : Error}
    (he : (outcome callee (elementsAt signature plan operands writable m flat)).result = .error e) :
    (iterate signature plan operands writable callee flat).run m =
      (.error e, m.noting
        (outcome callee (elementsAt signature plan operands writable m flat)).noted) := by
  rw [iterate_run (h.mapM_element writable hflat), he]
  rfl

/-- The kernel succeeds, and so does the iteration. -/
theorem Ready.iterate_of_ok (h : Ready signature plan operands m) (hcallee : callee.KeepsShapes)
    (hflat : flat < plan.iterations)
    (hok : (outcome callee (elementsAt signature plan operands writable m flat)).result = .ok ()) :
    ∃ m', (iterate signature plan operands writable callee flat).run m = (.ok (), m') ∧ m.Grows m' ∧
      m'.invocations = m.invocations ++
        (outcome callee (elementsAt signature plan operands writable m flat)).noted := by
  rw [iterate_run (h.mapM_element writable hflat), hok]
  have hg := Memory.grows_noting (m := m)
    (outcome callee (elementsAt signature plan operands writable m flat)).noted
  have hreturns : ∀ t ∈ returnsAt signature plan operands writable callee m flat,
      (m.noting _).Holds t.1.1 ∧ Returns (m.noting _) t.1.2 t.1.1 t.2 := fun t ht => by
    obtain ⟨hv, hreturns⟩ := h.returns hcallee hflat ht
    exact ⟨hg.holds hv, hreturns.grows hg hv⟩
  obtain ⟨m', hrun, hgrows, hkept⟩ := forM_put_ok (hg.wellFormed h.wellFormed) hreturns
  exact ⟨m', hrun, hg.trans hgrows, hkept⟩

/-- Only the kernel can make a loop fail, and it does so on what the iterations before have left. -/
theorem Ready.runOrder_error (h : Ready signature plan operands m) (hcallee : callee.KeepsShapes)
    {order : List Nat} (horder : ∀ flat ∈ order, flat < plan.iterations) {e : Error}
    (he : (runOrder signature plan operands writable callee order).run m = (.error e, m')) :
    ∃ before flat after m₁, order = before ++ flat :: after ∧
      (runOrder signature plan operands writable callee before).run m = (.ok (), m₁) ∧
      Ready signature plan operands m₁ ∧
      (outcome callee (elementsAt signature plan operands writable m₁ flat)).result = .error e ∧
      m' = m₁.noting
        (outcome callee (elementsAt signature plan operands writable m₁ flat)).noted := by
  induction order generalizing m with
  | nil => cases he
  | cons flat order ih =>
    obtain ⟨hflat, hrest⟩ := List.forall_mem_cons.1 horder
    rcases hresult :
      (outcome callee (elementsAt signature plan operands writable m flat)).result with e' | ⟨⟩
    · rw [show (runOrder signature plan operands writable callee (flat :: order)).run m = _ from
        Effect.run_bind_of_error (h.iterate_of_error hflat hresult)] at he
      cases he
      exact ⟨[], flat, order, m, rfl, rfl, h, hresult, rfl⟩
    · obtain ⟨m₁, hrun, hgrows, -⟩ := h.iterate_of_ok hcallee hflat hresult
      rw [show (runOrder signature plan operands writable callee (flat :: order)).run m = _ from
        Effect.run_bind_of_ok hrun] at he
      obtain ⟨before, i, after, m₂, rfl, hbefore, hfailed⟩ :=
        ih (h.grows hgrows) hrest he
      exact ⟨flat :: before, i, after, m₂, rfl, (Effect.run_bind_of_ok hrun).trans hbefore, hfailed⟩

end

end Corewise.Loop
