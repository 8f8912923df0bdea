import Corewise.Proofs.Kernel
import Corewise.Proofs.Loop.Trace
/-!
Iterations that do not touch each other. When no array that the loop writes is also another operand,
and every such array has the outer shape of the loop, each iteration reads and writes elements that no
other one writes. What a run leaves then says for every iteration what the kernel made of the elements
that were there at the start, and no longer in which order they ran or how they took turns.
-/

namespace Corewise.Loop

/-- The array at this position receives what the kernel writes: the output, and inputs that are
writable and are not handed over as scalars. -/
def Written (signature : CoreSignature) (writable : List Bool) (position : Nat) : Prop :=
  position = signature.arity ∨
    writable.getD position false = true ∧ signature.ranks[position]? ≠ some 0

/-- The array at this position is no other operand. -/
def Unaliased (operands : List Value) (position : Nat) : Prop :=
  ∀ i r, operands[position]? = some (.array r) → operands[i]? = some (.array r) → i = position

structure Independent (signature : CoreSignature) (plan : Plan) (operands : List Value)
    (writable : List Bool) : Prop where
  unaliased : ∀ i, Written signature writable i → Unaliased operands i
  outer : ∀ i r, Written signature writable i → operands[i]? = some (.array r) →
    plan.operandOuter[i]? = some plan.outer

section

variable {signature : CoreSignature} {plan : Plan} {operands : List Value} {writable : List Bool}
  {m m' : Memory} {callee : Callee} {memories : Memory → Prop} {elements : List Contents}

/-- What the kernel leaves in the element of the operand at a position. -/
def writtenAt (signature : CoreSignature) (plan : Plan) (operands : List Value)
    (writable : List Bool) (callee : Callee) (m : Memory) (flat position : Nat) : List Scalar :=
  match (outcome callee (elementsAt signature plan operands writable m flat)).after[position]? with
  | some (.array core) => core.data
  | _ => []

/-- The number of elements of one core of an array. -/
def coreSize (m : Memory) (r : Ref) (rank : Nat) : Nat := Shape.size (coreOf (m.buffer r).shape rank)

/-- The part of an array that belongs to one iteration. -/
def part (m : Memory) (r : Ref) (rank flat : Nat) : List Scalar :=
  (m.buffer r).block (flat * coreSize m r rank) (coreSize m r rank)

/-- How a written operand is handed over. -/
theorem Copied.element_written {flat : Nat}
    (hc : Copied signature plan operands writable memories flat elements)
    (h : Ready signature plan operands m) (hgrows : ∀ m₁, memories m₁ → m.Grows m₁) {i : Nat} {r : Ref}
    (hw : Written signature writable i) (hi : operands[i]? = some (.array r)) :
    ∃ m₁ rank a, memories m₁ ∧ signature.ranks[i]? = some rank ∧ a.rank = rank ∧ a.writable = true ∧
      (addressed signature plan operands writable flat)[i]? = some (.array r, a) ∧
      elements[i]? = some (.array ⟨(m.buffer r).dtype,
        if rank = 0 then [1] else coreOf (m.buffer r).shape rank, a.run (m₁.buffer r)⟩) := by
  obtain ⟨rank, hrank, -, -, -, haddressed⟩ := h.access writable flat hi
  obtain ⟨m₁, hm₁, helement⟩ := hc.getElem? haddressed
  obtain ⟨hdtype, hshape⟩ := (hgrows m₁ hm₁).buffer r (h.holds _ (List.mem_of_getElem? hi))
  refine ⟨m₁, rank, _, hm₁, hrank, rfl, ?_, haddressed, ?_⟩
  case refine_1 =>
    rcases hw with rfl | ⟨hflag, -⟩
    · simp [accessAt]
    · simp only [accessAt, hflag, Bool.or_true]
  case refine_2 =>
    rw [helement, ← hdtype, ← hshape]
    apply congrArg some
    show Access.held _ (m₁.buffer r) = _
    unfold Access.held
    by_cases hzero : rank = 0
    · -- only the output is handed over as an array although it has no core
      have hout : i = signature.arity := hw.resolve_right fun hflag => hflag.2 (hzero ▸ hrank)
      simp [accessAt, hzero, hout]
    · simp [accessAt, hzero]

theorem Ready.element_written (h : Ready signature plan operands m) (flat : Nat) {i : Nat} {r : Ref}
    (hw : Written signature writable i) (hi : operands[i]? = some (.array r)) :
    ∃ rank a, signature.ranks[i]? = some rank ∧ a.rank = rank ∧ a.writable = true ∧
      (addressed signature plan operands writable flat)[i]? = some (.array r, a) ∧
      (elementsAt signature plan operands writable m flat)[i]? = some (.array ⟨(m.buffer r).dtype,
        if rank = 0 then [1] else coreOf (m.buffer r).shape rank, a.run (m.buffer r)⟩) := by
  have hcopied : Copied signature plan operands writable (m = ·) flat
      (elementsAt signature plan operands writable m flat) := copied_elementsAt rfl
  obtain ⟨m₁, rank, a, rfl, hwritten⟩ :=
    hcopied.element_written h (fun m₁ hm₁ => hm₁ ▸ .refl m) hw hi
  exact ⟨rank, a, hwritten⟩

/-- The array that a written operand is handed over as. -/
theorem Ready.written_after (h : Ready signature plan operands m) (hcallee : callee.KeepsShapes)
    {flat i rank : Nat} {r : Ref} (hflat : flat < plan.iterations)
    (hw : Written signature writable i) (hi : operands[i]? = some (.array r))
    (hrank : signature.ranks[i]? = some rank) :
    ∃ core, (outcome callee (elementsAt signature plan operands writable m flat)).after[i]? =
        some (.array core) ∧
      core.dtype = (m.buffer r).dtype ∧ core.WellFormed ∧ core.size = coreSize m r rank ∧
      core.shape = if rank = 0 then [1] else coreOf (m.buffer r).shape rank := by
  obtain ⟨rank', a, hrank', harank, -, haddressed, helement⟩ := h.element_written flat hw hi
  cases hrank.symm.trans hrank'
  obtain ⟨-, hfits⟩ := h.fits hflat (List.mem_of_getElem? haddressed)
  have hheld : a.held (m.buffer r) = .array ⟨(m.buffer r).dtype,
      if rank = 0 then [1] else coreOf (m.buffer r).shape rank, a.run (m.buffer r)⟩ := by
    rw [elementsAt, List.getElem?_map, haddressed] at helement
    exact Option.some.inj helement
  obtain ⟨e, he, hrewrites⟩ :=
    exists_getElem?_of_forall₂ (hcallee.rewrites (h.elements_wellFormed writable hflat)) helement
  have hreturns := Access.Fits.returns hfits (hheld ▸ hrewrites)
  cases hrewrites with
  | array hdtype hshape hcore =>
    refine ⟨_, he, hdtype, hcore, ?_, hshape⟩
    rw [coreSize, ← harank]
    exact hreturns.2

/-- The index of an iteration in an operand with the outer shape of the loop. -/
theorem start_of_outer {flat i rank : Nat} {shape : List Nat} (hflat : flat < plan.iterations)
    (houter : outerOf shape rank = plan.outer) :
    (accessAt signature plan writable flat i rank (outerOf shape rank)).start shape =
      flat * Shape.size (coreOf shape rank) := by
  simp only [Access.start, accessAt, houter]
  rw [Shape.project_self (Plan.inRange_unravel hflat), Shape.offset?_unravel (Plan.lt_size hflat),
    Option.getD_some]

/-- An array that is put back is one that the loop writes. -/
theorem Copied.written_of_return {flat i : Nat} {r : Ref} {a : Access} {core : Buffer}
    (hc : Copied signature plan operands writable m.Grows flat elements)
    (h : Ready signature plan operands m) (hcallee : callee.KeepsShapes) (hflat : flat < plan.iterations)
    (haddressed : (addressed signature plan operands writable flat)[i]? = some (.array r, a))
    (hafter : (outcome callee elements).after[i]? = some (.array core)) (hwritable : a.writable = true) :
    Written signature writable i := by
  have hv : operands[i]? = some (.array r) := (List.getElem?_zip_eq_some.1 haddressed).1
  obtain ⟨rank, hrank, -, -, -, haccess⟩ := h.access writable flat hv
  cases Option.some.inj (haddressed.symm.trans haccess)
  by_contra hnot
  have hout : (i == signature.arity) = false := beq_eq_false_iff_ne.2 fun h => hnot (.inl h)
  have hflag : writable.getD i false = true := by
    simpa only [accessAt, hout, Bool.false_or] using hwritable
  -- without a core it has been handed over as a scalar
  have hzero : rank = 0 := by
    by_contra hne
    exact hnot (.inr ⟨hflag, fun h => hne (Option.some.inj (hrank.symm.trans h))⟩)
  obtain ⟨m₁, -, helement⟩ := hc.getElem? haccess
  replace helement := helement.trans (congrArg some (Access.held_of_bare hzero hout _))
  obtain ⟨e, he, hrewrites⟩ :=
    exists_getElem?_of_forall₂ (hcallee.rewrites (hc.wellFormed h hflat)) helement
  cases hrewrites
  cases hafter.symm.trans he

/-- What the memory has become when the iterations in `done` have run, in terms of the memory before
them. -/
structure Progress (signature : CoreSignature) (plan : Plan) (operands : List Value)
    (writable : List Bool) (callee : Callee) (m : Memory) (done : List Nat) (m' : Memory) :
    Prop where
  grows : m.Grows m'
  length_eq : m'.buffers.length = m.buffers.length
  invocations : m'.invocations = m.invocations ++
    done.flatMap fun k => (outcome callee (elementsAt signature plan operands writable m k)).noted
  unwritten : ∀ r, (∀ i, Written signature writable i → operands[i]? ≠ some (.array r)) →
    m'.buffer r = m.buffer r
  parts : ∀ i r rank k, Written signature writable i → operands[i]? = some (.array r) →
    signature.ranks[i]? = some rank → k < Shape.size plan.outer →
    part m' r rank k =
      if k ∈ done then writtenAt signature plan operands writable callee m k i
      else part m r rank k

theorem coreSize_eq_of_grows (h : m.Grows m') {r : Ref} (hr : r < m.buffers.length) (rank : Nat) :
    coreSize m' r rank = coreSize m r rank := by
  rw [coreSize, coreSize, (h.buffer r hr).2]

theorem part_congr {r : Ref} (h : m'.buffer r = m.buffer r) (rank flat : Nat) :
    part m' r rank flat = part m r rank flat := by
  rw [part, part, coreSize, coreSize, h]

section Store

variable {r : Ref} {rank flat k : Nat} {values : List Scalar}

theorem coreSize_store (hr : r < m.buffers.length) (start : Nat) :
    coreSize (m.store r ((m.buffer r).overlay start values)) r rank = coreSize m r rank := by
  rw [coreSize, coreSize, Memory.buffer_store_self hr, Buffer.overlay_shape]

/-- The parts of other iterations stay when one of them is replaced. -/
theorem part_store_of_ne (hr : r < m.buffers.length) (hlength : values.length = coreSize m r rank)
    (hle : flat * coreSize m r rank + values.length ≤ (m.buffer r).size) (hne : k ≠ flat) :
    part (m.store r ((m.buffer r).overlay (flat * coreSize m r rank) values)) r rank k =
      part m r rank k := by
  rw [part, part, coreSize_store hr, Memory.buffer_store_self hr]
  apply Buffer.block_overlay_of_disjoint hle
  rw [hlength]
  exact Buffer.run_disjoint _ hne

theorem part_store_self (hr : r < m.buffers.length) (hlength : values.length = coreSize m r rank)
    (hle : flat * coreSize m r rank + values.length ≤ (m.buffer r).size)
    (hdtype : ∀ s ∈ values, s.dtype = (m.buffer r).dtype) :
    part (m.store r ((m.buffer r).overlay (flat * coreSize m r rank) values)) r rank flat = values := by
  have hself := Buffer.block_overlay_self hle
  rw [hlength, Buffer.map_cast_of_dtype hdtype] at hself
  rw [part, coreSize_store hr, Memory.buffer_store_self hr]
  exact hself

end Store

/-- What the kernel leaves fits the part that it is written to. -/
theorem Ready.writtenAt_spec (h : Ready signature plan operands m) (hcallee : callee.KeepsShapes)
    {flat i rank : Nat} {r : Ref} (hflat : flat < plan.iterations)
    (hw : Written signature writable i) (hi : operands[i]? = some (.array r))
    (hrank : signature.ranks[i]? = some rank) :
    (writtenAt signature plan operands writable callee m flat i).length = coreSize m r rank ∧
      ∀ s ∈ writtenAt signature plan operands writable callee m flat i,
        s.dtype = (m.buffer r).dtype := by
  obtain ⟨core, hafter, hdtype, hwf, hsize, -⟩ := h.written_after hcallee hflat hw hi hrank
  simp only [writtenAt, hafter]
  exact ⟨hsize, fun s hs => (hwf.2 s hs).trans hdtype⟩

/-! One iteration among others. -/

/-- What the iteration numbered `flat` has of the written arrays: what the kernel has made of it in those
before position `count`, and what was there at the start in the others. -/
def Restored (signature : CoreSignature) (plan : Plan) (operands : List Value) (writable : List Bool)
    (callee : Callee) (m m' : Memory) (flat count : Nat) : Prop :=
  ∀ i r rank, Written signature writable i → operands[i]? = some (.array r) →
    signature.ranks[i]? = some rank → part m' r rank flat =
      if i < count then writtenAt signature plan operands writable callee m flat i
      else part m r rank flat

/-- What a step of the iteration numbered `flat` leaves alone: arrays that are not written, and the parts of
other iterations. -/
structure Beside (signature : CoreSignature) (plan : Plan) (operands : List Value) (writable : List Bool)
    (flat : Nat) (m m' : Memory) : Prop where
  length_eq : m'.buffers.length = m.buffers.length
  unwritten : ∀ r, (∀ i, Written signature writable i → operands[i]? ≠ some (.array r)) →
    m'.buffer r = m.buffer r
  parts : ∀ i r rank k, Written signature writable i → operands[i]? = some (.array r) →
    signature.ranks[i]? = some rank → k < Shape.size plan.outer → k ≠ flat →
    part m' r rank k = part m r rank k

theorem beside_noting (flat : Nat) (noted : List (List Contents)) :
    Beside signature plan operands writable flat m (m.noting noted) :=
  ⟨rfl, fun _ _ => rfl, fun _ _ _ _ _ _ _ _ _ => rfl⟩

theorem Beside.refl (flat : Nat) (m : Memory) : Beside signature plan operands writable flat m m :=
  ⟨rfl, fun _ _ => rfl, fun _ _ _ _ _ _ _ _ _ => rfl⟩

theorem Restored.beside {m₁ m₂ : Memory} {k count flat : Nat}
    (h : Restored signature plan operands writable callee m m₁ k count)
    (hbeside : Beside signature plan operands writable flat m₁ m₂) (hk : k < Shape.size plan.outer)
    (hne : k ≠ flat) : Restored signature plan operands writable callee m m₂ k count := by
  intro i r rank hw hi hrank
  rw [hbeside.parts i r rank k hw hi hrank hk hne]
  exact h i r rank hw hi hrank

/-- An iteration that has put nothing back is handed what it would have been handed at the start. -/
theorem Restored.elementOf_eq {m₁ : Memory} {flat : Nat}
    (hr : Restored signature plan operands writable callee m m₁ flat 0)
    (h : Ready signature plan operands m) (hI : Independent signature plan operands writable)
    (hgrows : m.Grows m₁)
    (hunwritten : ∀ r, (∀ i, Written signature writable i → operands[i]? ≠ some (.array r)) →
      m₁.buffer r = m.buffer r) (hflat : flat < plan.iterations) {p : Value × Access}
    (hp : p ∈ addressed signature plan operands writable flat) : elementOf m₁ p = elementOf m p := by
  obtain ⟨v, a⟩ := p
  obtain ⟨i, hi⟩ := List.getElem?_of_mem hp
  have hv : operands[i]? = some v := (List.getElem?_zip_eq_some.1 hi).1
  obtain ⟨rank, hrank, -, houter, -, haccess⟩ := h.access writable flat hv
  cases Option.some.inj (hi.symm.trans haccess)
  cases v with
  | scalar s => rfl
  | array r =>
    show Access.held _ (m₁.buffer r) = Access.held _ (m.buffer r)
    by_cases hwritten : ∀ j, Written signature writable j → operands[j]? ≠ some (.array r)
    · rw [hunwritten r hwritten]
    · push Not at hwritten
      obtain ⟨j, hw, hj⟩ := hwritten
      cases hI.unaliased j hw i r hj hv
      obtain ⟨hdtype, hshape⟩ := hgrows.buffer r (h.holds _ (List.mem_of_getElem? hv))
      have hplan : outerOf (m.buffer r).shape rank = plan.outer :=
        Option.some.inj (houter.symm.trans (hI.outer i r hw hv))
      have hpart := hr i r rank hw hv hrank
      rw [if_neg (Nat.not_lt_zero i)] at hpart
      have hrun (b : Buffer) (hb : b.shape = (m.buffer r).shape) :
          (accessAt signature plan writable flat i rank (outerOf (m.buffer r).shape rank)).run b =
            b.block (flat * coreSize m r rank) (coreSize m r rank) := by
        rw [Access.run, hb, start_of_outer hflat hplan]
        rfl
      apply Access.held_congr hdtype hshape
      rw [part, part, coreSize, hshape] at hpart
      exact (hrun _ hshape).trans (hpart.trans (hrun _ rfl).symm)

/-- Putting an element back to an operand that is not written changes nothing. -/
theorem Ready.patch_unwritten (h : Ready signature plan operands m) (hcallee : callee.KeepsShapes)
    {flat i : Nat} (hflat : flat < plan.iterations) {r : Ref} {a : Access} {e : Contents}
    (ht : (returnsAt signature plan operands writable callee m flat)[i]? = some ((.array r, a), e))
    (hnot : ¬ Written signature writable i) (b : Buffer) : a.patch e b = b := by
  obtain ⟨haddressed, hafter⟩ := List.getElem?_zip_eq_some.1 ht
  cases e with
  | scalar s => rfl
  | array core =>
    unfold Access.patch
    dsimp only
    refine if_neg fun hwritable => hnot ?_
    exact (copied_elementsAt (.refl m)).written_of_return h hcallee hflat haddressed hafter hwritable

/-- Putting an element back to an operand that is written replaces the part of the iteration. -/
theorem Ready.patch_written (h : Ready signature plan operands m) (hcallee : callee.KeepsShapes)
    (hI : Independent signature plan operands writable) {flat i rank : Nat} {r : Ref} {a : Access}
    {e : Contents} (hflat : flat < plan.iterations) (hw : Written signature writable i)
    (hrank : signature.ranks[i]? = some rank)
    (ht : (returnsAt signature plan operands writable callee m flat)[i]? = some ((.array r, a), e))
    {b : Buffer} (hb : b.shape = (m.buffer r).shape) :
    a.patch e b = b.overlay (flat * coreSize m r rank)
      (writtenAt signature plan operands writable callee m flat i) := by
  obtain ⟨haddressed, hafter⟩ := List.getElem?_zip_eq_some.1 ht
  have hi : operands[i]? = some (.array r) := (List.getElem?_zip_eq_some.1 haddressed).1
  obtain ⟨core, hcore, -⟩ := h.written_after hcallee hflat hw hi hrank
  cases hafter.symm.trans hcore
  obtain ⟨rank', a', hrank', -, hwritable, haddressed', -⟩ := h.element_written flat hw hi
  cases hrank.symm.trans hrank'
  cases haddressed.symm.trans haddressed'
  obtain ⟨rank', hrank', -, houter, -, haccess⟩ := h.access writable flat hi
  cases hrank.symm.trans hrank'
  cases haddressed.symm.trans haccess
  have hplan : outerOf (m.buffer r).shape rank = plan.outer :=
    Option.some.inj (houter.symm.trans (hI.outer i r hw hi))
  simp only [Access.patch, hwritable, if_true, writtenAt, hafter, hb]
  exact congrArg (b.overlay · core.data) (start_of_outer hflat hplan)

/-- What it does to a memory to put an element back. -/
theorem Ready.put_beside (h : Ready signature plan operands m) (hcallee : callee.KeepsShapes)
    (hI : Independent signature plan operands writable) {m₁ m₂ : Memory} (hgrows : m.Grows m₁)
    {flat i : Nat} (hflat : flat < plan.iterations) {t : Return}
    (ht : (returnsAt signature plan operands writable callee m flat)[i]? = some t)
    (hput : (put t.1.2 t.1.1 t.2).run m₁ = (.ok (), m₂)) :
    Beside signature plan operands writable flat m₁ m₂ ∧
      (Restored signature plan operands writable callee m m₁ flat i →
        Restored signature plan operands writable callee m m₂ flat (i + 1)) := by
  have hoperand := (List.getElem?_zip_eq_some.1 (List.getElem?_zip_eq_some.1 ht).1).1
  obtain ⟨hv, hreturns⟩ := h.returns hcallee hflat (List.mem_of_getElem? ht)
  rw [put_run (hgrows.wellFormed h.wellFormed) (hreturns.grows hgrows hv)] at hput
  obtain ⟨⟨v, a⟩, e⟩ := t
  by_cases hwritten : Written signature writable i ∧ ∃ r, v = .array r
  case neg =>
    have hsame : m₂ = m₁ := by
      cases v with
      | scalar s =>
        cases hput
        rfl
      | array r =>
        cases hput
        dsimp only
        rw [h.patch_unwritten hcallee hflat ht fun hw => hwritten ⟨hw, r, rfl⟩, Memory.store_buffer_self]
    subst hsame
    refine ⟨.refl flat m₂, fun hrestored j r rank hw hj hrank => ?_⟩
    have hne : j ≠ i := by
      rintro rfl
      exact hwritten ⟨hw, r, Option.some.inj (hoperand.symm.trans hj)⟩
    rw [hrestored j r rank hw hj hrank]
    simp only [Nat.lt_succ_iff_lt_or_eq, hne, or_false]
  case pos =>
    obtain ⟨hw, r, rfl⟩ := hwritten
    cases hput
    dsimp only
    obtain ⟨rank, hrank, -, -, -, -⟩ := h.access writable flat hoperand
    have hlt : r < m.buffers.length := hv
    have hr : r < m₁.buffers.length := Nat.lt_of_lt_of_le hlt hgrows.length_le
    obtain ⟨hkind, hshape⟩ := hgrows.buffer r hlt
    have hsize := coreSize_eq_of_grows hgrows hlt rank
    obtain ⟨hlength, hdtype⟩ := h.writtenAt_spec hcallee hflat hw hoperand hrank
    rw [h.patch_written hcallee hI hflat hw hrank ht hshape, ← hsize]
    rw [← hsize] at hlength
    rw [← hkind] at hdtype
    have hle : flat * coreSize m₁ r rank +
        (writtenAt signature plan operands writable callee m flat i).length ≤ (m₁.buffer r).size := by
      have houter := (h.grows hgrows).outerOf_eq hoperand hrank (hI.outer i r hw hoperand)
      rw [hlength]
      exact ((h.grows hgrows).wellFormed.buffer r).run_le (outerOf_append_coreOf _ rank).symm
        (houter ▸ Plan.lt_size hflat)
    -- The array at position `i` is no other operand, and its parts do not overlap.
    have hother {j : Nat} {r' : Ref} (hj : operands[j]? = some (.array r')) (hne : j ≠ i) : r ≠ r' := by
      rintro rfl
      exact hne (hI.unaliased i hw j r hoperand hj)
    refine ⟨⟨Memory.length_store, fun r' hr' => ?_, fun j r' rank' k hw' hj hrank' hk hkf => ?_⟩,
      fun hrestored j r' rank' hw' hj hrank' => ?_⟩
    case refine_1 =>
      exact Memory.buffer_store_of_ne fun heq => hr' i hw (heq ▸ hoperand)
    case refine_2 =>
      by_cases hij : j = i
      · subst hij
        cases hoperand.symm.trans hj
        cases hrank.symm.trans hrank'
        exact part_store_of_ne hr hlength hle hkf
      · exact part_congr (Memory.buffer_store_of_ne (hother hj hij)) rank' k
    case refine_3 =>
      by_cases hij : j = i
      · subst hij
        cases hoperand.symm.trans hj
        cases hrank.symm.trans hrank'
        rw [if_pos (Nat.lt_succ_self j)]
        exact part_store_self hr hlength hle hdtype
      · rw [part_congr (Memory.buffer_store_of_ne (hother hj hij)), hrestored j r' rank' hw' hj hrank']
        simp only [Nat.lt_succ_iff_lt_or_eq, hij, or_false]

theorem elementsAt_of_split {flat : Nat} {done : List (Value × Access)}
    (hsplit : addressed signature plan operands writable flat = done ++ []) :
    done.map (elementOf m) = elementsAt signature plan operands writable m flat := by
  rw [elementsAt, hsplit, List.append_nil]

theorem getElem?_of_drop {α : Type} {l rest : List α} {count : Nat} {a : α} (h : l.drop count = a :: rest) :
    l[count]? = some a ∧ l.drop (count + 1) = rest := by
  rw [← List.head?_drop, ← List.tail_drop, h]
  exact ⟨rfl, rfl⟩

/-- What an iteration has come to when no other one touches what it touches. -/
inductive Task.Apart (signature : CoreSignature) (plan : Plan) (operands : List Value)
    (writable : List Bool) (callee : Callee) (m m' : Memory) (flat : Nat) : Task → Prop
  | waiting (restored : Restored signature plan operands writable callee m m' flat 0) :
      Apart signature plan operands writable callee m m' flat (.waiting flat)
  | reading {done rest : List (Value × Access)}
      (split : addressed signature plan operands writable flat = done ++ rest)
      (restored : Restored signature plan operands writable callee m m' flat 0) :
      Apart signature plan operands writable callee m m' flat
        (.reading flat (done.map (elementOf m)) rest)
  | returning (count : Nat)
      (succeeded : (outcome callee (elementsAt signature plan operands writable m flat)).result = .ok ())
      (restored : Restored signature plan operands writable callee m m' flat count) :
      Apart signature plan operands writable callee m m' flat
        (.returning ((returnsAt signature plan operands writable callee m flat).drop count))
  | failed {e : Error}
      (raised : (outcome callee (elementsAt signature plan operands writable m flat)).result = .error e) :
      Apart signature plan operands writable callee m m' flat (.failed e)

/-- An iteration that has come to its end without an error has put all its elements back. -/
theorem Task.Apart.of_returned {flat : Nat}
    (h : Task.Apart signature plan operands writable callee m m' flat (.returning [])) :
    (outcome callee (elementsAt signature plan operands writable m flat)).result = .ok () ∧
      ∃ count, (returnsAt signature plan operands writable callee m flat).length ≤ count ∧
        Restored signature plan operands writable callee m m' flat count := by
  generalize hreturned : Task.returning [] = task at h
  cases h with
  | waiting => cases hreturned
  | reading => cases hreturned
  | failed => cases hreturned
  | returning count succeeded restored =>
    have hnone := (Task.returning.inj hreturned).symm
    exact ⟨succeeded, count, List.drop_eq_nil_iff.1 hnone, restored⟩

theorem Task.Apart.beside {m₁ m₂ : Memory} {k flat : Nat} {task : Task}
    (h : task.Apart signature plan operands writable callee m m₁ k)
    (hbeside : Beside signature plan operands writable flat m₁ m₂) (hk : k < Shape.size plan.outer)
    (hne : k ≠ flat) : task.Apart signature plan operands writable callee m m₂ k := by
  cases h with
  | waiting restored => exact .waiting (restored.beside hbeside hk hne)
  | reading split restored => exact .reading split (restored.beside hbeside hk hne)
  | returning count succeeded restored => exact .returning count succeeded (restored.beside hbeside hk hne)
  | failed raised => exact .failed raised

/-- What iterations that do not touch each other have come to, and what they have handed to the kernel. -/
structure Apart (signature : CoreSignature) (plan : Plan) (operands : List Value) (writable : List Bool)
    (callee : Callee) (m : Memory) (order : List Nat) (s : Memory × List Task) (calls : List Handover) :
    Prop where
  grows : m.Grows s.1
  length_eq : s.1.buffers.length = m.buffers.length
  unwritten : ∀ r, (∀ i, Written signature writable i → operands[i]? ≠ some (.array r)) →
    s.1.buffer r = m.buffer r
  task : ∀ (i : Nat) flat task, order[i]? = some flat → s.2[i]? = some task →
    task.Apart signature plan operands writable callee m s.1 flat
  idle : ∀ k < Shape.size plan.outer, k ∉ order →
    Restored signature plan operands writable callee m s.1 k 0
  handed : ∀ c ∈ calls, c.2 = elementsAt signature plan operands writable m c.1

section Apart

variable (h : Ready signature plan operands m) (hcallee : callee.KeepsShapes)
  (hI : Independent signature plan operands writable) {m₁ m₂ : Memory} {order : List Nat} {flat : Nat}
  {calls : List Handover}
include h hcallee hI

/-- A step of an iteration that has been handed what was there at the start. -/
theorem Task.Apart.step (hgrows : m.Grows m₁)
    (hunwritten : ∀ r, (∀ i, Written signature writable i → operands[i]? ≠ some (.array r)) →
      m₁.buffer r = m.buffer r) (hflat : flat < plan.iterations) {task task' : Task}
    (htask : task.Apart signature plan operands writable callee m m₁ flat)
    (hstep : Task.Step signature plan operands writable callee (m₁, task) (m₂, task')) :
    task'.Apart signature plan operands writable callee m m₂ flat ∧
      Beside signature plan operands writable flat m₁ m₂ ∧
      ∀ c ∈ task.handover, c.2 = elementsAt signature plan operands writable m c.1 := by
  have hready := h.grows hgrows
  cases htask with
  | waiting restored =>
    cases hstep with
    | start =>
      have hsplit : addressed signature plan operands writable flat =
        [] ++ addressed signature plan operands writable flat := rfl
      exact ⟨.reading hsplit restored, .refl flat m₁, List.forall_mem_nil _⟩
  | @reading done rest split restored =>
    cases hstep with
    | @read _ _ _ p rest e copied =>
      cases copied.symm.trans (hready.element_of_split hflat split)
      have hp : p ∈ addressed signature plan operands writable flat := by
        rw [split]
        exact List.mem_append_right done List.mem_cons_self
      rw [restored.elementOf_eq h hI hgrows hunwritten hflat hp]
      refine ⟨?_, .refl flat m₁, List.forall_mem_nil _⟩
      rw [← List.map_singleton, ← List.map_append]
      exact .reading (split.trans (List.append_cons done p rest)) restored
    | unreadable refused => cases refused.symm.trans (hready.element_of_split hflat split)
    | work succeeded =>
      rw [elementsAt_of_split split] at succeeded ⊢
      exact ⟨.returning 0 succeeded restored, beside_noting flat _, List.forall_mem_singleton.2 rfl⟩
    | raise raised =>
      rw [elementsAt_of_split split] at raised ⊢
      exact ⟨.failed raised, beside_noting flat _, List.forall_mem_singleton.2 rfl⟩
  | returning count succeeded restored =>
    generalize hdrop : (returnsAt signature plan operands writable callee m flat).drop count = returns
      at hstep
    cases hstep with
    | @putBack _ _ t rest done =>
      obtain ⟨ht, rfl⟩ := getElem?_of_drop hdrop
      obtain ⟨hbeside, hrestored⟩ := h.put_beside hcallee hI hgrows hflat ht done
      exact ⟨.returning (count + 1) succeeded (hrestored restored), hbeside, List.forall_mem_nil _⟩
    | refuse refused =>
      have ht := List.mem_of_getElem? (getElem?_of_drop hdrop).1
      obtain ⟨_, hput⟩ := (copied_elementsAt (.refl m)).put_ok h hcallee hflat ht hgrows
      cases refused.symm.trans hput
  | failed raised => cases hstep

/-- A turn of one iteration, with the others standing by. -/
theorem Apart.turn {before after : List Task} {task task' : Task}
    (ha : Apart signature plan operands writable callee m order (m₁, before ++ task :: after) calls)
    (hcounted : Counted order (before ++ task :: after) calls) (hnodup : order.Nodup)
    (horder : ∀ k ∈ order, k < plan.iterations)
    (hstep : Task.Step signature plan operands writable callee (m₁, task) (m₂, task')) :
    Apart signature plan operands writable callee m order (m₂, before ++ task' :: after)
      (calls ++ task.handover) := by
  obtain ⟨flat, hflat, -⟩ := hcounted.exists_number
  have hmem := List.mem_of_getElem? hflat
  have htask := ha.task before.length flat task hflat (getElem?_middle before after task)
  obtain ⟨htask', hbeside, hhanded⟩ :=
    htask.step h hcallee hI ha.grows ha.unwritten (horder flat hmem) hstep
  constructor
  case grows => exact ha.grows.trans hstep.grows
  case length_eq => exact hbeside.length_eq.trans ha.length_eq
  case unwritten =>
    intro r hr
    exact (hbeside.unwritten r hr).trans (ha.unwritten r hr)
  case task =>
    intro i flat' other hflat' hother
    rcases cases_of_getElem?_middle task hother with ⟨rfl, rfl⟩ | ⟨hne, hsame⟩
    · cases hflat.symm.trans hflat'
      exact htask'
    · have hbelow := Plan.lt_size (horder flat' (List.mem_of_getElem? hflat'))
      refine (ha.task i flat' other hflat' hsame).beside hbeside hbelow ?_
      rintro rfl
      exact hne (eq_of_getElem?_of_nodup hnodup hflat' hflat)
  case idle =>
    intro k hk hidle
    exact (ha.idle k hk hidle).beside hbeside hk fun heq => hidle (heq ▸ hmem)
  case handed => exact List.forall_mem_append.2 ⟨ha.handed, hhanded⟩

/-- Each iteration is handed what was there at the start, however they take turns. -/
theorem Traced.apart {s : Memory × List Task}
    (ht : Traced signature plan operands writable callee m order s calls) (hnodup : order.Nodup)
    (horder : ∀ k ∈ order, k < plan.iterations) :
    Apart signature plan operands writable callee m order s calls := by
  induction ht with
  | start =>
    have hstart (k : Nat) : Restored signature plan operands writable callee m m k 0 :=
      fun i _ _ _ _ _ => (if_neg (Nat.not_lt_zero i)).symm
    refine ⟨.refl m, rfl, fun _ _ => rfl, fun i flat task hflat htask => ?_, fun k _ _ => hstart k,
      List.forall_mem_nil _⟩
    rw [List.getElem?_map, hflat] at htask
    cases htask
    exact .waiting (hstart flat)
  | turn earlier step ih => exact ih.turn h hcallee hI (earlier.counted hnodup) hnodup horder step

end Apart

section Ended

variable {order : List Nat} {tasks : List Task} {calls : List Handover} {result : Except Error Unit}

/-- Iterations that do not touch each other succeed if the kernel succeeds on what was there at the start, and
only then. -/
theorem Apart.ok_iff (h : Apart signature plan operands writable callee m order (m', tasks) calls)
    (hlength : tasks.length = order.length) (hended : Ended result tasks) :
    result = .ok () ↔ ∀ k ∈ order,
      (outcome callee (elementsAt signature plan operands writable m k)).result = .ok () := by
  cases hended with
  | completed returned =>
    refine ⟨fun _ k hk => ?_, fun _ => rfl⟩
    obtain ⟨i, hi⟩ := List.getElem?_of_mem hk
    have hlt : i < tasks.length := hlength ▸ (List.getElem?_eq_some_iff.1 hi).1
    have htask := h.task i k _ hi (List.getElem?_eq_getElem hlt)
    rw [returned _ (List.getElem_mem hlt)] at htask
    exact htask.of_returned.1
  | @stopped _ e raised _ =>
    refine ⟨nofun, fun hok => ?_⟩
    obtain ⟨i, hi⟩ := List.getElem?_of_mem raised
    have hlt : i < order.length := hlength ▸ (List.getElem?_eq_some_iff.1 hi).1
    have htask := h.task i _ _ (List.getElem?_eq_getElem hlt) hi
    cases htask with
    | failed raised => cases raised.symm.trans (hok _ (List.getElem_mem hlt))

/-- What iterations leave that have all come to their ends. -/
theorem Apart.progress (h : Apart signature plan operands writable callee m order (m', tasks) calls)
    (hready : Ready signature plan operands m) (hcallee : callee.KeepsShapes)
    (ht : Traced signature plan operands writable callee m order (m', tasks) calls) (hnodup : order.Nodup)
    (horder : ∀ k ∈ order, k < plan.iterations) (hended : Ended (.ok ()) tasks) :
    Progress signature plan operands writable callee m (calls.map Prod.fst) m' := by
  have hcounted := ht.counted hnodup
  have hmem (k : Nat) : k ∈ calls.map Prod.fst ↔ k ∈ order := (hcounted.perm hnodup hended).mem_iff
  refine ⟨h.grows, h.length_eq, ?_, h.unwritten, fun i r rank k hw hi hrank hk => ?_⟩
  case refine_1 =>
    rw [ht.invocations, List.flatMap_map]
    congr 1
    exact List.flatMap_congr fun c hc => by rw [h.handed c hc]
  case refine_2 =>
    simp only [hmem]
    split
    case isFalse hidle =>
      rw [h.idle k hk hidle i r rank hw hi hrank, if_neg (Nat.not_lt_zero i)]
    case isTrue hdone =>
      obtain ⟨j, hj⟩ := List.getElem?_of_mem hdone
      have hlt : j < tasks.length := hcounted.length_eq ▸ (List.getElem?_eq_some_iff.1 hj).1
      have htask := h.task j k _ hj (List.getElem?_eq_getElem hlt)
      cases hended with
      | completed returned =>
        rw [returned _ (List.getElem_mem hlt)] at htask
        obtain ⟨-, count, hall, restored⟩ := htask.of_returned
        obtain ⟨core, hafter, -⟩ := hready.written_after hcallee (horder k hdone) hw hi hrank
        obtain ⟨rank', a, -, -, -, haddressed, -⟩ := hready.element_written k hw hi
        have hreturn : (returnsAt signature plan operands writable callee m k)[i]? =
            some ((.array r, a), .array core) := List.getElem?_zip_eq_some.2 ⟨haddressed, hafter⟩
        rw [restored i r rank hw hi hrank,
          if_pos (Nat.lt_of_lt_of_le (List.getElem?_eq_some_iff.1 hreturn).1 hall)]

end Ended

section Run

variable (h : Ready signature plan operands m) (hcallee : callee.KeepsShapes)
  (hI : Independent signature plan operands writable)
include h hcallee hI

/-- A run succeeds if the kernel succeeds on what was there at the start, and only then. -/
theorem Ready.runOrder_ok_iff {order : List Nat} (hnodup : order.Nodup)
    (horder : ∀ k ∈ order, k < plan.iterations) :
    ((runOrder signature plan operands writable callee order).run m).1 = .ok () ↔ ∀ k ∈ order,
      (outcome callee (elementsAt signature plan operands writable m k)).result = .ok () := by
  obtain ⟨tasks, calls, htraced, hended, -⟩ :=
    @traced_runOrder signature plan operands writable callee order m
  exact (htraced.apart h hcallee hI hnodup horder).ok_iff (htraced.counted hnodup).length_eq hended

/-- Iterations that do not touch each other, in any order. -/
theorem Ready.runOrder_progress {order : List Nat} (hnodup : order.Nodup)
    (horder : ∀ k ∈ order, k < plan.iterations)
    (hok : ∀ k ∈ order,
      (outcome callee (elementsAt signature plan operands writable m k)).result = .ok ()) :
    ∃ m', (runOrder signature plan operands writable callee order).run m = (.ok (), m') ∧
      Progress signature plan operands writable callee m order m' := by
  have hresult := (h.runOrder_ok_iff hcallee hI hnodup horder).2 hok
  obtain ⟨tasks, calls, htraced, hended, hflats⟩ :=
    @traced_runOrder signature plan operands writable callee order m
  rw [hresult] at hended
  have hprogress := (htraced.apart h hcallee hI hnodup horder).progress h hcallee htraced hnodup horder hended
  rw [hflats hresult] at hprogress
  exact ⟨_, Prod.ext hresult rfl, hprogress⟩

theorem Ready.runAll_ok_iff (parallel : Bool) :
    ((runAll signature plan operands writable callee parallel).run m).1 = .ok () ↔
      ∀ k < plan.iterations,
        (outcome callee (elementsAt signature plan operands writable m k)).result = .ok () := by
  obtain ⟨tasks, calls, htraced, hended, -⟩ :=
    @traced_runAll signature plan operands writable callee parallel m
  have hiff := (htraced.apart h hcallee hI List.nodup_range fun k hk => List.mem_range.1 hk).ok_iff
    (htraced.counted List.nodup_range).length_eq hended
  simpa only [List.mem_range] using hiff

/-- All iterations, in a row or at the same time. -/
theorem Ready.runAll_progress (parallel : Bool)
    (hok : ∀ k < plan.iterations,
      (outcome callee (elementsAt signature plan operands writable m k)).result = .ok ()) :
    ∃ m' done, (runAll signature plan operands writable callee parallel).run m = (.ok (), m') ∧
      done.Perm (List.range plan.iterations) ∧
      Progress signature plan operands writable callee m done m' := by
  have hresult := (h.runAll_ok_iff hcallee hI parallel).2 hok
  obtain ⟨tasks, calls, htraced, hended, -⟩ :=
    @traced_runAll signature plan operands writable callee parallel m
  rw [hresult] at hended
  have hbelow : ∀ k ∈ List.range plan.iterations, k < plan.iterations := fun k hk => List.mem_range.1 hk
  exact ⟨_, _, Prod.ext hresult rfl, (htraced.counted List.nodup_range).perm List.nodup_range hended,
    (htraced.apart h hcallee hI List.nodup_range hbelow).progress h hcallee htraced List.nodup_range hbelow
      hended⟩

end Run

/-- The memory that iterations leave is determined by which of them have run. -/
theorem Progress.buffer_eq (h : Ready signature plan operands m)
    (hI : Independent signature plan operands writable) {done done' : List Nat} {m'' : Memory}
    (hp : Progress signature plan operands writable callee m done m')
    (hp' : Progress signature plan operands writable callee m done' m'')
    (hdone : ∀ k, k ∈ done ↔ k ∈ done') (r : Ref) : m'.buffer r = m''.buffer r := by
  by_cases hr : ∀ i, Written signature writable i → operands[i]? ≠ some (.array r)
  · rw [hp.unwritten r hr, hp'.unwritten r hr]
  · push Not at hr
    obtain ⟨i, hw, hi⟩ := hr
    have hheld := h.holds _ (List.mem_of_getElem? hi)
    obtain ⟨rank, hrank, -, -, -, -⟩ := h.access writable 0 hi
    have hplan := h.outerOf_eq hi hrank (hI.outer i r hw hi)
    have hsplit : (m.buffer r).shape = plan.outer ++ coreOf (m.buffer r).shape rank := by
      rw [← hplan, outerOf_append_coreOf]
    obtain ⟨hdtype, hshape⟩ := hp.grows.buffer r hheld
    obtain ⟨hdtype', hshape'⟩ := hp'.grows.buffer r hheld
    apply Buffer.ext_blocks ((hp.grows.wellFormed h.wellFormed).buffer r)
      ((hp'.grows.wellFormed h.wellFormed).buffer r) (hdtype.trans hdtype'.symm)
      (hshape.trans hsplit) (hshape'.trans hsplit)
    intro k hk
    have hpart := hp.parts i r rank k hw hi hrank hk
    have hpart' := hp'.parts i r rank k hw hi hrank hk
    rw [part, coreSize, hshape] at hpart
    rw [part, coreSize, hshape'] at hpart'
    rw [hpart, hpart']
    simp only [hdone]

theorem Ready.independent_of_unaliased (h : Ready signature plan operands m)
    (hout : Unaliased operands signature.arity)
    (hinputs : ∀ i core r, signature.inputs[i]? = some core → core ≠ [] →
      writable.getD i false = true → operands[i]? = some (.array r) →
      Unaliased operands i ∧ plan.operandOuter[i]? = some plan.outer) :
    Independent signature plan operands writable := by
  have hwritten {i : Nat} {r : Ref} (hw : Written signature writable i)
      (hi : operands[i]? = some (.array r)) :
      Unaliased operands i ∧ plan.operandOuter[i]? = some plan.outer := by
    rcases hw with rfl | ⟨hflag, hcore⟩
    · exact ⟨hout, h.planned.output⟩
    · obtain ⟨rank, hrank, -⟩ := h.access writable 0 hi
      rw [hrank] at hcore
      rw [CoreSignature.ranks, List.getElem?_map, Option.map_eq_some_iff] at hrank
      obtain ⟨core, hcores, rfl⟩ := hrank
      rcases Nat.lt_or_ge i signature.arity with hlt | hge
      · rw [CoreSignature.cores, List.getElem?_append_left hlt] at hcores
        refine hinputs i core r hcores ?_ hflag hi
        rintro rfl
        exact hcore rfl
      · have hbound := (List.getElem?_eq_some_iff.1 hcores).1
        rw [CoreSignature.length_cores] at hbound
        cases Nat.le_antisymm (Nat.le_of_lt_succ hbound) hge
        exact ⟨hout, h.planned.output⟩
  constructor
  case unaliased =>
    intro i hw j r hi hj
    exact (hwritten hw hi).1 j r hi hj
  case outer =>
    intro i r hw hi
    exact (hwritten hw hi).2

/-- The order of iterations does not matter: run in any order they succeed or fail together, and when
they succeed they leave the same elements. -/
theorem runOrder_perm (hplan : Loop.plan signature (m.contentsOf operands) = .ok plan)
    (hm : m.WellFormed) (hheld : ∀ v ∈ operands, m.Holds v) (hcallee : callee.KeepsShapes)
    (hout : Unaliased operands signature.arity)
    (hinputs : ∀ i core r, signature.inputs[i]? = some core → core ≠ [] →
      writable.getD i false = true → operands[i]? = some (.array r) →
      Unaliased operands i ∧ plan.operandOuter[i]? = some plan.outer)
    {order : List Nat} (horder : order.Perm (List.range plan.iterations)) :
    (((runOrder signature plan operands writable callee order).run m).1 = .ok () ↔
        ((run signature plan operands writable callee).run m).1 = .ok ()) ∧
      (((run signature plan operands writable callee).run m).1 = .ok () →
        ((runOrder signature plan operands writable callee order).run m).2.contentsOf operands =
          ((run signature plan operands writable callee).run m).2.contentsOf operands) := by
  have hready := ready_of_plan hplan hm hheld
  have hI := hready.independent_of_unaliased hout hinputs
  have hnodup : order.Nodup := horder.nodup_iff.2 List.nodup_range
  have hmem (k : Nat) : k ∈ order ↔ k ∈ List.range plan.iterations := horder.mem_iff
  have hbelow : ∀ k ∈ order, k < plan.iterations := fun k hk => List.mem_range.1 ((hmem k).1 hk)
  have hok := hready.runOrder_ok_iff hcallee hI hnodup hbelow
  have hok' := hready.runOrder_ok_iff hcallee hI List.nodup_range
    fun k (hk : k ∈ List.range plan.iterations) => List.mem_range.1 hk
  have hsame : ((runOrder signature plan operands writable callee order).run m).1 = .ok () ↔
      ((run signature plan operands writable callee).run m).1 = .ok () := by
    unfold run
    rw [hok, hok']
    simp only [hmem]
  refine ⟨hsame, fun hrun => ?_⟩
  obtain ⟨m₁, hrun₁, hp₁⟩ := hready.runOrder_progress hcallee hI hnodup hbelow
    (hok.1 (hsame.2 hrun))
  obtain ⟨m₂, hrun₂, hp₂⟩ := hready.runOrder_progress hcallee hI List.nodup_range
    (fun k hk => List.mem_range.1 hk) (hok'.1 hrun)
  rw [run, hrun₁, hrun₂]
  refine List.map_congr_left fun v _ => ?_
  cases v with
  | scalar s => rfl
  | array r => exact congrArg Contents.array (hp₁.buffer_eq hready hI hp₂ hmem r)

/-- Moves the first element of its input to its output and leaves a zero. -/
def moveFirst : Body := .native fun _ =>
  .read 0 0 fun s => .write 1 0 (s.getD default) fun _ => .write 0 0 (.int64 0) fun _ => .done

def twoRows : Memory :=
  .holding [⟨.int64, [2, 1], [.int64 7, .int64 8]⟩, .zeros .int64 [2, 1]]

def twoRowsPlan : Plan := ⟨[2], [[2], [2]], [("n", 1)]⟩

/-- Two rows of a writable input, taken in descending order. -/
theorem runOrder_perm_moveFirst :
    ((runOrder ⟨[["n"]], ["n"]⟩ twoRowsPlan [.array 0, .array 1] [true] moveFirst.call [1, 0]).run
        twoRows).2.contentsOf [.array 0, .array 1] =
      ((run ⟨[["n"]], ["n"]⟩ twoRowsPlan [.array 0, .array 1] [true] moveFirst.call).run
        twoRows).2.contentsOf [.array 0, .array 1] := by
  have hout : Unaliased [.array 0, .array 1] 1 := by
    intro i r hr hi
    cases hr
    match i with
    | 0 => cases hi
    | 1 => rfl
  have hinputs : ∀ i core r, [["n"]][i]? = some core → core ≠ [] → [true].getD i false = true →
      [Value.array 0, .array 1][i]? = some (.array r) →
      Unaliased [.array 0, .array 1] i ∧ twoRowsPlan.operandOuter[i]? = some twoRowsPlan.outer := by
    intro i core r hcore _ _ _
    cases i with
    | succ i => cases hcore
    | zero =>
      refine ⟨?_, rfl⟩
      intro j r hr hj
      cases hr
      match j with
      | 0 => rfl
      | 1 => cases hj
  have hperm : [1, 0].Perm (List.range twoRowsPlan.iterations) := by decide
  exact (@runOrder_perm ⟨[["n"]], ["n"]⟩ twoRowsPlan [.array 0, .array 1] [true] twoRows
    moveFirst.call (by decide) (by decide) (by decide) moveFirst.call_grows hout hinputs [1, 0]
    hperm).2 (by decide +kernel)

end

end Corewise.Loop
