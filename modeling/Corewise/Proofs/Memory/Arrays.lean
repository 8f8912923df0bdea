import Corewise.Proofs.Buffer.Cells
import Corewise.Proofs.Memory
/-!
Arrays that have been made and written in any way. However that was, an array has as many elements as its shape
has indexes, all of its type; a sub-array shows the elements behind its leading index, and writing one sets those
and no others.
-/

namespace Corewise

namespace Memory

/-- What is asked of the arrays in a memory. -/
inductive Request where
  | zeros (dtype : DType) (shape : List Nat)
  | ofScalars (dtype : DType) (shape : List Nat) (values : List Scalar)
  | copy (source : Ref)
  | cast (source : Ref) (dtype : DType)
  | slice (source : Ref) (index : List Nat)
  | set (target : Ref) (index : List Nat) (value : Scalar)
  | setFlat (target : Ref) (offset : Nat) (value : Scalar)
  | fill (target : Ref) (value : Scalar)
  | assign (target : Ref) (index : List Nat) (source : Ref)

/-- Puts what is made of the memory into a fresh array. -/
def make (f : Memory → Except ShapeError Buffer) : Action Unit := do
  let b ← Action.ofShape (f (← get))
  let _ ← Action.newArray b

def Request.action : Request → Action Unit
  | zeros dtype shape => make fun _ => .ok (.zeros dtype shape)
  | ofScalars dtype shape values => make fun _ => Buffer.ofScalars dtype shape values
  | copy source => make fun m => .ok (m.buffer source)
  | cast source dtype => make fun m => .ok ((m.buffer source).cast dtype)
  | slice source index => make fun m => (m.buffer source).slice index
  | set target index value => Action.update target (·.set index value)
  | setFlat target offset value => Action.update target (·.setFlat offset value)
  | fill target value => Action.update target fun b => .ok (b.fill value)
  | assign target index source => Action.assign target index source

def serve (m : Memory) (r : Request) : Except Error Unit × Memory := r.action.run m

/-- The memory after requests, some of which may have failed. -/
def after (m : Memory) (requests : List Request) : Memory :=
  requests.foldl (fun m r => (m.serve r).2) m

/-- Either nothing is changed, or arrays are made and elements are written. -/
inductive Serves (m : Memory) : Except Error Unit × Memory → Prop
  | failed (e : Error) : Serves m (.error e, m)
  | done {m' : Memory} (grows : m.Grows m') : Serves m (.ok (), m')

variable {m m' : Memory}

theorem make_of_ok {f : Memory → Except ShapeError Buffer} {b : Buffer} (h : f m = .ok b) :
    (make f).run m = (.ok (), (m.alloc b).2) := by
  show (Action.ofShape (f m) >>= fun b => Action.newArray b >>= fun _ => pure ()).run m = _
  rw [h]
  rfl

theorem make_of_error {f : Memory → Except ShapeError Buffer} {e : ShapeError} (h : f m = .error e) :
    (make f).run m = (.error (.shape e), m) := by
  show (Action.ofShape (f m) >>= fun b => Action.newArray b >>= fun _ => pure ()).run m = _
  rw [h]
  rfl

theorem make_serves {f : Memory → Except ShapeError Buffer}
    (hf : ∀ b, f m = .ok b → m.WellFormed → b.WellFormed) : m.Serves ((make f).run m) := by
  rcases hb : f m with e | b
  case error =>
    rw [make_of_error hb]
    exact .failed _
  case ok =>
    rw [make_of_ok hb]
    exact .done (grows_alloc (hf b hb))

theorem update_serves {target : Ref} {f : Buffer → Except ShapeError Buffer}
    (hf : ∀ b b', f b = .ok b' → b'.dtype = b.dtype ∧ b'.shape = b.shape ∧
      (b.WellFormed → b'.WellFormed)) : m.Serves ((Action.update target f).run m) := by
  have hgrows := Action.update_grows hf m (r := target)
  rw [Action.update_run] at hgrows ⊢
  split at hgrows
  · exact .done hgrows
  · exact .failed _

theorem serves (m : Memory) (r : Request) : m.Serves (m.serve r) := by
  unfold serve
  cases r with
  | zeros dtype shape =>
    refine make_serves fun b hb _ => ?_
    cases hb
    exact Buffer.wellFormed_zeros dtype shape
  | ofScalars dtype shape values => exact make_serves fun b hb _ => Buffer.wellFormed_ofScalars hb
  | copy source =>
    refine make_serves fun b hb hm => ?_
    cases hb
    exact hm.buffer source
  | cast source dtype =>
    refine make_serves fun b hb hm => ?_
    cases hb
    exact (hm.buffer source).cast dtype
  | slice source index => exact make_serves fun b hb hm => (hm.buffer source).slice hb
  | set target index value =>
    show m.Serves ((Action.update target (·.set index value)).run m)
    exact update_serves fun _ _ => Buffer.set_eq_ok
  | setFlat target offset value =>
    show m.Serves ((Action.update target (·.setFlat offset value)).run m)
    exact update_serves fun _ _ => Buffer.setFlat_eq_ok
  | fill target value =>
    show m.Serves ((Action.update target fun b => .ok (b.fill value)).run m)
    refine update_serves fun b b' hb => ?_
    cases hb
    exact ⟨rfl, rfl, fun h => h.fill value⟩
  | assign target index source =>
    show m.Serves ((Action.assign target index source).run m)
    rcases eq_or_ne target source with rfl | hne
    · rw [Action.assign_run_self]
      exact .done (.refl m)
    · rw [Action.assign_run hne]
      exact update_serves fun _ _ => Buffer.assign_eq_ok

theorem Serves.grows {result : Except Error Unit × Memory} (h : m.Serves result) : m.Grows result.2 := by
  cases h with
  | failed e => exact .refl m
  | done grows => exact grows

theorem Serves.eq_of_error {e : Error} (h : m.Serves (.error e, m')) : m' = m := by
  cases h with
  | failed e => rfl

theorem after_grows (m : Memory) (requests : List Request) : m.Grows (m.after requests) := by
  induction requests generalizing m with
  | nil => exact .refl m
  | cons r requests ih => exact (m.serves r).grows.trans (ih _)

theorem wellFormed_after (requests : List Request) : (empty.after requests).WellFormed :=
  (after_grows empty requests).wellFormed wellFormed_empty

/-- The elements of the source stand behind the leading index of the target, and nothing else has changed. -/
structure Written (m : Memory) (target : Ref) (index : List Nat) (source : Ref) (m' : Memory) : Prop where
  dtype : (m'.buffer target).dtype = (m.buffer target).dtype
  shape : (m'.buffer target).shape = (m.buffer target).shape
  behind : ∀ i l, Shape.offset? ((m.buffer target).shape.drop index.length) i = some l →
    ∃ s, (m.buffer source).data[l]? = some s ∧
      (m'.buffer target).get? (index ++ i) = some (s.cast (m.buffer target).dtype)
  elsewhere : ∀ i, ¬ index <+: i → (m'.buffer target).get? i = (m.buffer target).get? i
  others : ∀ r, r ≠ target → m'.buffer r = m.buffer r
  length : m'.buffers.length = m.buffers.length

/-- Writing a sub-array: it is done exactly if there is one at the leading index and the source has as many
elements, and if it is not done nothing is changed. -/
structure Assigns (m : Memory) (target : Ref) (index : List Nat) (source : Ref) : Prop where
  ok_iff : (m.serve (.assign target index source)).1 = .ok () ↔
    Shape.Leads (m.buffer target).shape index ∧
      (m.buffer source).data.length = Shape.size ((m.buffer target).shape.drop index.length)
  written : ∀ m', m.serve (.assign target index source) = (.ok (), m') → m.Written target index source m'
  failed : ∀ e m', m.serve (.assign target index source) = (.error e, m') → m' = m

theorem serve_assign {target source : Ref} (h : target ≠ source) (index : List Nat) (m : Memory) :
    m.serve (.assign target index source) =
      match (m.buffer target).assign index (m.buffer source) with
      | .ok b => (.ok (), m.store target b)
      | .error e => (.error (.shape e), m) := by
  show (Action.assign target index source).run m = _
  rw [Action.assign_run h]
  exact Action.update_run ..

theorem WellFormed.written (hm : m.WellFormed) {target source : Ref} (ht : target < m.buffers.length)
    {index : List Nat} {b : Buffer} (h : (m.buffer target).assign index (m.buffer source) = .ok b) :
    m.Written target index source (m.store target b) := by
  obtain ⟨hdtype, hshape, -⟩ := Buffer.assign_eq_ok h
  have hstored : (m.store target b).buffer target = b := buffer_store_self ht
  constructor
  case dtype => rw [hstored, hdtype]
  case shape => rw [hstored, hshape]
  case behind =>
    rw [hstored]
    exact fun i l hi => (hm.buffer target).get?_assign h hi
  case elsewhere =>
    rw [hstored]
    exact fun i hi => (hm.buffer target).get?_assign_elsewhere h hi
  case others => exact fun r hr => buffer_store_of_ne hr.symm
  case length => exact length_store

theorem WellFormed.assigns (hm : m.WellFormed) {target source : Ref} (ht : target < m.buffers.length)
    (h : target ≠ source) (index : List Nat) : m.Assigns target index source := by
  have hrun := serve_assign h index m
  rcases hassign : (m.buffer target).assign index (m.buffer source) with e | b
  all_goals rw [hassign] at hrun
  case error =>
    constructor
    case ok_iff =>
      rw [← Buffer.assign_ok_iff, hassign, hrun]
      exact ⟨nofun, nofun⟩
    case written =>
      intro m' hm'
      cases hrun.symm.trans hm'
    case failed =>
      intro e' m' hm'
      cases hrun.symm.trans hm'
      rfl
  case ok =>
    constructor
    case ok_iff =>
      rw [← Buffer.assign_ok_iff, hassign, hrun]
      exact ⟨fun _ => ⟨b, rfl⟩, fun _ => rfl⟩
    case written =>
      intro m' hm'
      cases hrun.symm.trans hm'
      exact hm.written ht hassign
    case failed =>
      intro e m' hm'
      cases hrun.symm.trans hm'

end Memory

namespace Buffer

/-- There is one element for each index in range, all of them of the buffer's type, and the elements and
sub-arrays that are looked up lie among them. -/
structure Intact (b : Buffer) : Prop where
  length : b.data.length = Shape.size b.shape
  dtype : ∀ s ∈ b.data, s.dtype = b.dtype
  offset_lt : ∀ index k, Shape.offset? b.shape index = some k → k < b.data.length
  locate_le : ∀ index start core, b.locate index = .ok (start, core) →
    start + Shape.size core ≤ b.data.length
  get?_isSome : ∀ index, (b.get? index).isSome = true ↔ Shape.InRange b.shape index

/-- Copying a sub-array out: there is one at every leading index in range, of the elements behind that. -/
structure Shows (b : Buffer) (index : List Nat) : Prop where
  ok_iff : (∃ part, b.slice index = .ok part) ↔ Shape.Leads b.shape index
  part : ∀ part, b.slice index = .ok part → part.dtype = b.dtype ∧
    part.shape = b.shape.drop index.length ∧ ∀ i, part.get? i = b.get? (index ++ i)

theorem WellFormed.intact {b : Buffer} (h : b.WellFormed) : b.Intact where
  length := h.1
  dtype := h.2
  offset_lt _ _ hk := h.offset_lt hk
  locate_le _ _ _ hplace := h.locate_le hplace
  get?_isSome _ := h.get?_isSome_iff

theorem shows (b : Buffer) (index : List Nat) : b.Shows index where
  ok_iff := slice_ok_iff
  part part hpart := by
    obtain ⟨outer, core, k, hs, hk, rfl⟩ := slice_cases hpart
    exact ⟨rfl, (Shape.leads_of_offset hs hk).2.symm, get?_slice hpart⟩

end Buffer

/-- Arrays that have been made and written in any way have the elements that their shape asks for. Sub-arrays of
them show and set the elements behind their leading index, and what fails changes nothing. -/
theorem Memory.arrays_intact (requests : List Request) :
    (∀ r, ((empty.after requests).buffer r).Intact) ∧
    (∀ r index, ((empty.after requests).buffer r).Shows index) ∧
    (∀ target < (empty.after requests).buffers.length, ∀ source, target ≠ source →
      ∀ index, (empty.after requests).Assigns target index source) ∧
    ∀ request e m', (empty.after requests).serve request = (.error e, m') →
      m' = empty.after requests := by
  have hm := wellFormed_after requests
  refine ⟨fun r => (hm.buffer r).intact, fun r index => Buffer.shows _ index, ?_, ?_⟩
  · exact fun target ht source h index => hm.assigns ht h index
  · intro request e m' h
    have hserved := (empty.after requests).serves request
    rw [h] at hserved
    exact hserved.eq_of_error

/-- Two rows of three integers and one of wider ones; the copy of a row that is not there has failed, and so has
writing three elements over six. -/
def rowRequests : List Memory.Request :=
  [.ofScalars .int32 [2, 3] [.int8 1, .int8 2, .int8 3, .int8 4, .int8 5, .int8 6], .zeros .int64 [3],
    .slice 0 [2], .assign 0 [] 1, .fill 1 (.int8 7)]

/-- The second row can be written over, and there is no third. -/
theorem Memory.arrays_intact_rows :
    (empty.after rowRequests).buffers.length = 2 ∧
    (empty.after rowRequests).Written 0 [1] 1
      ((empty.after rowRequests).serve (.assign 0 [1] 1)).2 ∧
    (((empty.after rowRequests).serve (.assign 0 [1] 1)).2.buffer 0).data =
      [.int32 1, .int32 2, .int32 3, .int32 7, .int32 7, .int32 7] ∧
    (empty.after rowRequests).serve (.assign 0 [2] 1) =
      (.error (.shape (.outOfBounds [2] [2, 3])), empty.after rowRequests) := by
  obtain ⟨-, -, hassigns, hfailing⟩ := Memory.arrays_intact rowRequests
  have hdone : ((empty.after rowRequests).serve (.assign 0 [1] 1)).1 = .ok () := by decide +kernel
  have herror : ((empty.after rowRequests).serve (.assign 0 [2] 1)).1 =
      .error (.shape (.outOfBounds [2] [2, 3])) := by decide +kernel
  refine ⟨by decide +kernel, ?_, by decide +kernel, ?_⟩
  · exact (hassigns 0 (by decide +kernel) 1 (by decide) [1]).written _ (Prod.ext hdone rfl)
  · exact Prod.ext herror (hfailing _ _ _ (Prod.ext herror rfl))

end Corewise
