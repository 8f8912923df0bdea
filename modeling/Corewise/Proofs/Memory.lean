import Corewise.Memory
import Corewise.Proofs.Buffer
import Corewise.Proofs.Effect
/-!
Memories while arrays are written and made. A buffer never changes its type or its shape, stays well
formed, and is not freed: each action leaves a memory that the memory before it grows to.
-/

namespace Corewise

/-- As the buffer of an array should be. -/
def Contents.WellFormed : Contents → Prop
  | .scalar _ => True
  | .array b => b.WellFormed

namespace Memory

variable {m m' : Memory} {r r' : Ref} {b : Buffer}

def WellFormed (m : Memory) : Prop := ∀ b ∈ m.buffers, b.WellFormed

/-- The operand is a scalar or one of the arrays in memory. -/
def Holds (m : Memory) : Value → Prop
  | .scalar _ => True
  | .array r => r < m.buffers.length

instance decidableWellFormed (m : Memory) : Decidable m.WellFormed :=
  inferInstanceAs (Decidable (∀ b ∈ m.buffers, b.WellFormed))

instance decidableHolds (m : Memory) : (v : Value) → Decidable (m.Holds v)
  | .scalar _ => inferInstanceAs (Decidable True)
  | .array r => inferInstanceAs (Decidable (r < m.buffers.length))

theorem WellFormed.buffer (h : m.WellFormed) (r : Ref) : (m.buffer r).WellFormed := by
  rw [Memory.buffer, List.getD_eq_getElem?_getD]
  rcases hr : m.buffers[r]? with _ | b
  · exact ⟨rfl, by simp [default]⟩
  · exact h b (List.mem_of_getElem? hr)

theorem WellFormed.contents (h : m.WellFormed) (v : Value) : (m.contents v).WellFormed := by
  cases v with
  | scalar s => trivial
  | array r => exact h.buffer r

@[simp] theorem length_contentsOf (m : Memory) (values : List Value) :
    (m.contentsOf values).length = values.length := List.length_map _

theorem getElem?_contentsOf (m : Memory) (values : List Value) (i : Nat) :
    (m.contentsOf values)[i]? = values[i]?.map m.contents := List.getElem?_map

theorem getElem?_contentsOf_eq_array {values : List Value} {i : Nat} :
    (m.contentsOf values)[i]? = some (.array b) ↔
      ∃ r, values[i]? = some (.array r) ∧ m.buffer r = b := by
  rw [getElem?_contentsOf, Option.map_eq_some_iff]
  constructor
  case mp =>
    rintro ⟨v, hv, hcontents⟩
    cases v with
    | scalar s => cases hcontents
    | array r => exact ⟨r, hv, Contents.array.inj hcontents⟩
  case mpr =>
    rintro ⟨r, hr, rfl⟩
    exact ⟨.array r, hr, rfl⟩

theorem buffer_store_self (h : r < m.buffers.length) : (m.store r b).buffer r = b := by
  simp [store, Memory.buffer, h]

theorem buffer_store_of_ne (h : r ≠ r') : (m.store r b).buffer r' = m.buffer r' := by
  simp [store, Memory.buffer, h]

theorem store_buffer_self : m.store r (m.buffer r) = m := by
  rw [store, Memory.buffer, List.getD_eq_getElem?_getD]
  congr 1
  refine List.ext_getElem? fun i => ?_
  rw [List.getElem?_set]
  by_cases hi : r = i
  · subst hi
    rw [if_pos rfl]
    split
    case isTrue hlt => rw [List.getElem?_eq_getElem hlt, Option.getD_some]
    case isFalse hge => rw [List.getElem?_eq_none (Nat.le_of_not_lt hge)]
  · rw [if_neg hi]

@[simp] theorem length_store : (m.store r b).buffers.length = m.buffers.length := List.length_set

theorem WellFormed.store (h : m.WellFormed) (hb : b.WellFormed) : (m.store r b).WellFormed := by
  intro c hc
  rcases List.mem_or_eq_of_mem_set hc with hc | rfl
  · exact h c hc
  · exact hb

theorem buffer_alloc_of_lt (h : r < m.buffers.length) : (m.alloc b).2.buffer r = m.buffer r := by
  simp only [alloc, Memory.buffer, List.getD_eq_getElem?_getD]
  rw [List.getElem?_append_left h]

@[simp] theorem buffer_alloc_new : (m.alloc b).2.buffer m.buffers.length = b := by
  simp [alloc, Memory.buffer]

@[simp] theorem length_alloc : (m.alloc b).2.buffers.length = m.buffers.length + 1 := by
  simp [alloc]

theorem WellFormed.alloc (h : m.WellFormed) (hb : b.WellFormed) : (m.alloc b).2.WellFormed := by
  intro c hc
  rcases List.mem_append.1 hc with hc | hc
  · exact h c hc
  · exact List.mem_singleton.1 hc ▸ hb

/-- The new array comes behind what was there. -/
theorem holds_alloc {values : List Value} (h : ∀ v ∈ values, m.Holds v) :
    ∀ v ∈ values ++ [.array m.buffers.length], (m.alloc b).2.Holds v := by
  intro v hv
  rcases List.mem_append.1 hv with hv | hv
  · cases v with
    | scalar s => trivial
    | array r =>
      show r < (m.alloc b).2.buffers.length
      rw [length_alloc]
      exact Nat.lt_succ_of_lt (h _ hv)
  · cases List.mem_singleton.1 hv
    show m.buffers.length < (m.alloc b).2.buffers.length
    rw [length_alloc]
    exact Nat.lt_succ_self _

theorem contents_alloc {v : Value} (h : m.Holds v) :
    (m.alloc b).2.contents v = m.contents v := by
  cases v with
  | scalar s => rfl
  | array r => exact congrArg Contents.array (buffer_alloc_of_lt h)

/-- What was there before an array was made is as it was, and the array is there behind it. -/
theorem contentsOf_alloc {values : List Value} (h : ∀ v ∈ values, m.Holds v)
    (b : Buffer) : (m.alloc b).2.contentsOf (values ++ [.array m.buffers.length]) =
      m.contentsOf values ++ [.array b] := by
  have hnew : (m.alloc b).2.contents (.array m.buffers.length) = .array b :=
    congrArg Contents.array buffer_alloc_new
  rw [contentsOf, List.map_append, List.map_singleton, hnew]
  congr 1
  exact List.map_congr_left fun v hv => contents_alloc (h v hv)

theorem wellFormed_empty : empty.WellFormed := fun _ hb => absurd hb List.not_mem_nil

/-- What actions do to a memory besides writing elements: they make arrays. -/
structure Grows (m m' : Memory) : Prop where
  length_le : m.buffers.length ≤ m'.buffers.length
  buffer : ∀ r < m.buffers.length,
    (m'.buffer r).dtype = (m.buffer r).dtype ∧ (m'.buffer r).shape = (m.buffer r).shape
  wellFormed : m.WellFormed → m'.WellFormed

theorem Grows.refl (m : Memory) : m.Grows m := ⟨Nat.le_refl _, fun _ _ => ⟨rfl, rfl⟩, id⟩

theorem Grows.trans {m'' : Memory} (h : m.Grows m') (h' : m'.Grows m'') : m.Grows m'' where
  length_le := Nat.le_trans h.length_le h'.length_le
  buffer r hr := by
    obtain ⟨hd, hs⟩ := h.buffer r hr
    obtain ⟨hd', hs'⟩ := h'.buffer r (Nat.lt_of_lt_of_le hr h.length_le)
    exact ⟨hd'.trans hd, hs'.trans hs⟩
  wellFormed hw := h'.wellFormed (h.wellFormed hw)

instance : Std.Refl Grows := ⟨Grows.refl⟩

instance : Trans Grows Grows Grows := ⟨Grows.trans⟩

theorem Grows.holds (h : m.Grows m') {v : Value} (hv : m.Holds v) : m'.Holds v := by
  cases v with
  | scalar s => trivial
  | array r => exact Nat.lt_of_lt_of_le hv h.length_le

theorem Grows.shape (h : m.Grows m') {v : Value} (hv : m.Holds v) : m'.shape v = m.shape v := by
  cases v with
  | scalar s => rfl
  | array r => exact (h.buffer r hv).2

theorem Grows.dtype (h : m.Grows m') {v : Value} (hv : m.Holds v) :
    (m'.contents v).dtype = (m.contents v).dtype := by
  cases v with
  | scalar s => rfl
  | array r => exact (h.buffer r hv).1

/-- An array whose elements are all what they were is what it was. -/
theorem Grows.buffer_eq (h : m.Grows m') (hm : m.WellFormed) (hr : r < m.buffers.length)
    (hdata : ∀ (offset : Nat) v, (m.buffer r).data[offset]? = some v →
      (m'.buffer r).data[offset]? = some v) :
    m'.buffer r = m.buffer r := by
  obtain ⟨hdtype, hshape⟩ := h.buffer r hr
  have hlength : (m'.buffer r).data.length = (m.buffer r).data.length :=
    ((h.wellFormed hm).buffer r).1.trans ((congrArg Shape.size hshape).trans (hm.buffer r).1.symm)
  have hsame : (m'.buffer r).data = (m.buffer r).data := by
    refine List.ext_getElem? fun offset => ?_
    rcases hv : (m.buffer r).data[offset]? with _ | v
    · rw [List.getElem?_eq_none_iff] at hv ⊢
      rwa [hlength]
    · exact hdata offset v hv
  rcases hbefore : m.buffer r with ⟨dtype, shape, data⟩
  rcases hafter : m'.buffer r with ⟨dtype', shape', data'⟩
  rw [hbefore, hafter] at hdtype hshape hsame
  cases hdtype
  cases hshape
  cases hsame
  rfl

/-- The second is what the first may have become: elements of an array are written, and nothing else
changes. -/
inductive Rewrites : Contents → Contents → Prop
  | scalar (s : Scalar) : Rewrites (.scalar s) (.scalar s)
  | array {b b' : Buffer} (dtype : b'.dtype = b.dtype) (shape : b'.shape = b.shape)
    (wellFormed : b'.WellFormed) : Rewrites (.array b) (.array b')

theorem Grows.rewrites (h : m.Grows m') (hm : m.WellFormed) {v : Value} (hv : m.Holds v) :
    Rewrites (m.contents v) (m'.contents v) := by
  cases v with
  | scalar s => exact .scalar s
  | array r =>
    obtain ⟨hd, hs⟩ := h.buffer r hv
    exact .array hd hs ((h.wellFormed hm).buffer r)

/-- Elements of one buffer are written. -/
theorem grows_store (hd : b.dtype = (m.buffer r).dtype) (hs : b.shape = (m.buffer r).shape)
    (hb : m.WellFormed → b.WellFormed) : m.Grows (m.store r b) where
  length_le := Nat.le_of_eq length_store.symm
  buffer r' hr' := by
    rcases Nat.decEq r r' with h | h
    · rw [buffer_store_of_ne h]
      exact ⟨rfl, rfl⟩
    · subst h
      rw [buffer_store_self hr']
      exact ⟨hd, hs⟩
  wellFormed hm := hm.store (hb hm)

/-- An array is made. -/
theorem grows_alloc (hb : m.WellFormed → b.WellFormed) : m.Grows (m.alloc b).2 where
  length_le := length_alloc ▸ Nat.le_succ _
  buffer r' hr' := by
    rw [buffer_alloc_of_lt hr']
    exact ⟨rfl, rfl⟩
  wellFormed hm := hm.alloc (hb hm)

@[simp] theorem buffers_noting (noted : List (List Contents)) :
    (m.noting noted).buffers = m.buffers := rfl

@[simp] theorem buffer_noting (noted : List (List Contents)) :
    (m.noting noted).buffer r = m.buffer r := rfl

theorem grows_noting (noted : List (List Contents)) : m.Grows (m.noting noted) :=
  ⟨Nat.le_refl _, fun _ _ => ⟨rfl, rfl⟩, id⟩

end Memory

namespace Action

variable {m : Memory}

theorem newArray_grows {b : Buffer} (hb : m.WellFormed → b.WellFormed) :
    m.Grows ((newArray b).run m).2 := Memory.grows_alloc hb

theorem update_run (r : Ref) (f : Buffer → Except ShapeError Buffer) (m : Memory) :
    (update r f).run m = match f (m.buffer r) with
      | .ok b => (.ok (), m.store r b)
      | .error e => (.error (.shape e), m) := by
  show (ofShape (f (m.buffer r)) >>= fun b => modify (·.store r b)).run m = _
  rcases f (m.buffer r) with e | b <;> rfl

theorem update_grows {r : Ref} {f : Buffer → Except ShapeError Buffer}
    (hf : ∀ b b', f b = .ok b' → b'.dtype = b.dtype ∧ b'.shape = b.shape ∧
      (b.WellFormed → b'.WellFormed)) : Effect.Keeps Memory.Grows (update r f) := by
  intro m
  rw [update_run]
  rcases hb : f (m.buffer r) with e | b
  · exact .refl m
  · obtain ⟨hdtype, hshape, hwf⟩ := hf _ _ hb
    exact Memory.grows_store hdtype hshape fun hm => hwf (hm.buffer r)

theorem assign_run_self (r : Ref) (index : List Nat) (m : Memory) :
    (assign r index r).run m = (.ok (), m) := by
  rw [assign, if_neg (not_not.2 rfl)]
  rfl

theorem assign_run {target source : Ref} (h : target ≠ source) (index : List Nat) (m : Memory) :
    (assign target index source).run m = (update target (·.assign index (m.buffer source))).run m := by
  rw [assign, if_pos h]
  rfl

theorem assign_grows (target : Ref) (index : List Nat) (source : Ref) :
    Effect.Keeps Memory.Grows (assign target index source) := by
  unfold assign
  split
  case isFalse => exact Effect.Keeps.pure _
  case isTrue => exact Effect.Keeps.get fun m => update_grows fun _ _ => Buffer.assign_eq_ok

end Action

theorem Action.run_ofExcept_ok {α β : Type} (a : α) (f : α → Action β) (m : Memory) :
    (Action.ofExcept (.ok a) >>= f).run m = (f a).run m := rfl

theorem Action.run_ofExcept_error {α β : Type} (e : Error) (f : α → Action β) (m : Memory) :
    (Action.ofExcept (.error e) >>= f).run m = (.error e, m) := rfl

end Corewise
