import Corewise.Proofs.Buffer
/-!
Elements by index. An element of a sub-array is the element of the whole at the leading index and its own put
together, and writing a sub-array sets the elements behind its leading index and no others.
-/

namespace Corewise

namespace Shape

/-- A leading index in range: it has at most as many components as there are axes, each below the size of its
axis. -/
def Leads (shape index : List Nat) : Prop :=
  index.length ≤ shape.length ∧ InRange (shape.take index.length) index

variable {shape outer core index : List Nat} {k : Nat}

theorem Leads.exists_offset (h : Leads shape index) :
    ∃ k, offset? (shape.take index.length) index = some k := by
  obtain ⟨k, hk, -⟩ := h.2.offset
  exact ⟨k, hk⟩

theorem leads_of_offset (hs : shape = outer ++ core) (hk : offset? outer index = some k) :
    Leads shape index ∧ shape.drop index.length = core := by
  have hin := inRange_of_offset hk
  have hlength := hin.length_eq
  subst hs
  rw [Leads, hlength, List.take_left, List.drop_left, List.length_append]
  exact ⟨⟨Nat.le_add_right _ _, hin⟩, rfl⟩

end Shape

namespace Buffer

variable {b b' part source : Buffer} {index : List Nat}

theorem get?_eq_bind (b : Buffer) (index : List Nat) :
    b.get? index = (Shape.offset? b.shape index).bind (b.data[·]?) := rfl

theorem get?_append {outer core : List Nat} {k : Nat} (hs : b.shape = outer ++ core)
    (hk : Shape.offset? outer index = some k) (i : List Nat) : b.get? (index ++ i) =
      (Shape.offset? core i).bind fun l => b.data[k * Shape.size core + l]? := by
  rw [get?_eq_bind, hs, Shape.offset?_append hk, Option.bind_map]
  rfl

theorem WellFormed.offset_lt (hb : b.WellFormed) {k : Nat} (hk : Shape.offset? b.shape index = some k) :
    k < b.data.length := hb.1 ▸ Shape.offset?_lt hk

theorem WellFormed.get?_isSome_iff (hb : b.WellFormed) :
    (b.get? index).isSome = true ↔ Shape.InRange b.shape index := by
  constructor
  case mp =>
    intro h
    obtain ⟨s, hs⟩ := Option.isSome_iff_exists.1 h
    obtain ⟨k, hk, -⟩ := Option.bind_eq_some_iff.1 hs
    exact Shape.inRange_of_offset hk
  case mpr =>
    intro h
    obtain ⟨k, hk, -⟩ := h.offset
    obtain ⟨s, hs, -⟩ := hb.get?_eq hk
    rw [hs, Option.isSome_some]

theorem WellFormed.locate_le (hb : b.WellFormed) {start : Nat} {core : List Nat}
    (h : b.locate index = .ok (start, core)) : start + Shape.size core ≤ b.data.length := by
  obtain ⟨outer, core, k, hs, hk, hplace⟩ := locate_cases h
  cases hplace
  exact hb.run_le hs (Shape.offset?_lt hk)

theorem slice_ok_iff : (∃ part, b.slice index = .ok part) ↔ Shape.Leads b.shape index := by
  constructor
  case mp =>
    rintro ⟨part, h⟩
    obtain ⟨outer, core, k, hs, hk, -⟩ := slice_cases h
    exact (Shape.leads_of_offset hs hk).1
  case mpr =>
    intro h
    obtain ⟨k, hk⟩ := h.exists_offset
    exact ⟨_, slice_eq (List.take_append_drop _ _).symm hk⟩

theorem get?_slice (h : b.slice index = .ok part) (i : List Nat) :
    part.get? i = b.get? (index ++ i) := by
  obtain ⟨outer, core, k, hs, hk, rfl⟩ := slice_cases h
  rw [get?_append hs hk, get?_eq_bind]
  apply Option.bind_congr
  intro l hl
  rw [getElem?_block, if_pos (Shape.offset?_lt hl)]

theorem assign_ok_iff : (∃ b', b.assign index source = .ok b') ↔
    Shape.Leads b.shape index ∧ source.data.length = Shape.size (b.shape.drop index.length) := by
  constructor
  case mp =>
    rintro ⟨b', h⟩
    obtain ⟨outer, core, k, hs, hk, hsize, -⟩ := assign_cases h
    obtain ⟨hleads, hcore⟩ := Shape.leads_of_offset hs hk
    exact ⟨hleads, hcore ▸ hsize⟩
  case mpr =>
    rintro ⟨hleads, hsize⟩
    obtain ⟨k, hk⟩ := hleads.exists_offset
    exact ⟨_, assign_eq (List.take_append_drop _ _).symm hk hsize⟩

/-- Behind the leading index are the elements of the source, cast, in their order. -/
theorem WellFormed.get?_assign (hb : b.WellFormed) (h : b.assign index source = .ok b') {i : List Nat}
    {l : Nat} (hi : Shape.offset? (b.shape.drop index.length) i = some l) :
    ∃ s, source.data[l]? = some s ∧ b'.get? (index ++ i) = some (s.cast b.dtype) := by
  obtain ⟨outer, core, k, hs, hk, hsize, rfl⟩ := assign_cases h
  rw [(Shape.leads_of_offset hs hk).2] at hi
  have hshape : (b.overlay (k * Shape.size core) source.data).shape = outer ++ core := hs
  have hlt : l < source.data.length := Nat.lt_of_lt_of_eq (Shape.offset?_lt hi) hsize.symm
  refine ⟨source.data[l], List.getElem?_eq_getElem hlt, ?_⟩
  rw [get?_append hshape hk, hi, Option.bind_some, getElem?_overlay (hb.source_le hs hk hsize),
    if_neg (by omega), Nat.add_sub_cancel_left, List.getElem?_eq_getElem hlt, Option.map_some]

/-- An element that the index does not lead to is in another sub-array. -/
theorem WellFormed.get?_assign_elsewhere (hb : b.WellFormed) (h : b.assign index source = .ok b')
    {i : List Nat} (hi : ¬ index <+: i) : b'.get? i = b.get? i := by
  obtain ⟨outer, core, k, hs, hk, hsize, rfl⟩ := assign_cases h
  rw [get?_eq_bind, get?_eq_bind, overlay_shape]
  apply Option.bind_congr
  intro n hn
  rw [hs] at hn
  obtain ⟨i₁, i₂, k', l, rfl, hk', hl, rfl⟩ := Shape.exists_of_offset_append hn
  have hne : k' ≠ k := by
    rintro rfl
    cases (Shape.unravel_of_offset hk').symm.trans (Shape.unravel_of_offset hk)
    exact hi (List.prefix_append _ _)
  have hlt := Shape.offset?_lt hl
  have hlength : source.data.length = Shape.size core := hsize
  have hdisjoint := run_disjoint (Shape.size core) hne
  rw [getElem?_overlay (hb.source_le hs hk hsize), if_pos (by omega)]

end Buffer

end Corewise
