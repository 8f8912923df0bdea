import Corewise.Buffer
import Corewise.Proofs.Effect
import Corewise.Proofs.Shape
/-!
Sub-arrays as runs of elements. Copying a sub-array out gives a run (`Buffer.block`) and writing one
replaces it (`Buffer.overlay`); runs that do not overlap are independent, and the runs of all leading
indexes make up the whole buffer. Every operation keeps buffers well formed.
-/

namespace Corewise

namespace Buffer

/-- The `count` elements from `start` on. -/
def block (b : Buffer) (start count : Nat) : List Scalar := (b.data.drop start).take count

/-- The buffer with `values` written from `start` on, cast to its type. -/
def overlay (b : Buffer) (start : Nat) (values : List Scalar) : Buffer :=
  { b with
    data := b.data.take start ++ values.map (·.cast b.dtype) ++
      b.data.drop (start + values.length) }

instance decidableWellFormed (b : Buffer) : Decidable b.WellFormed :=
  inferInstanceAs (Decidable (_ ∧ _))

variable {b : Buffer} {start count : Nat} {values : List Scalar}

@[simp] theorem overlay_dtype : (b.overlay start values).dtype = b.dtype := rfl

@[simp] theorem overlay_shape : (b.overlay start values).shape = b.shape := rfl

theorem overlay_size (h : start + values.length ≤ b.size) :
    (b.overlay start values).size = b.size := by
  simp only [size, overlay, List.length_append, List.length_take, List.length_map,
    List.length_drop] at *
  omega

theorem length_block (h : start + count ≤ b.size) : (b.block start count).length = count := by
  simp only [size, block, List.length_take, List.length_drop] at *
  omega

theorem getElem?_block (i : Nat) :
    (b.block start count)[i]? = if i < count then b.data[start + i]? else none := by
  simp [block, List.getElem?_take]

theorem getElem?_overlay (h : start + values.length ≤ b.size) (i : Nat) :
    (b.overlay start values).data[i]? =
      if i < start ∨ start + values.length ≤ i then b.data[i]?
      else (values[i - start]?).map (·.cast b.dtype) := by
  simp only [size] at h
  have hstart : (b.data.take start).length = start := by
    rw [List.length_take]
    omega
  simp only [overlay, List.append_assoc]
  rcases Nat.lt_or_ge i start with hlt | hge
  · rw [List.getElem?_append_left (by omega), List.getElem?_take, if_pos hlt, if_pos (.inl hlt)]
  · rw [List.getElem?_append_right (by omega), hstart]
    rcases Nat.lt_or_ge (i - start) values.length with hin | hout
    · rw [List.getElem?_append_left (by simpa using hin), if_neg (by omega), List.getElem?_map]
    · rw [List.getElem?_append_right (by simpa using hout), if_pos (by omega), List.length_map,
        List.getElem?_drop]
      congr 1
      omega

/-- What was written is read back, cast. -/
theorem block_overlay_self (h : start + values.length ≤ b.size) :
    (b.overlay start values).block start values.length = values.map (·.cast b.dtype) := by
  refine List.ext_getElem? fun i => ?_
  rw [getElem?_block, getElem?_overlay h, List.getElem?_map]
  split
  case isTrue => rw [if_neg (by omega), Nat.add_sub_cancel_left]
  case isFalse hi => rw [List.getElem?_eq_none (by omega), Option.map_none]

/-- A run keeps its elements when one beside it is written. -/
theorem block_overlay_of_disjoint {start' count' : Nat} (h : start + values.length ≤ b.size)
    (hd : start' + count' ≤ start ∨ start + values.length ≤ start') :
    (b.overlay start values).block start' count' = b.block start' count' := by
  refine List.ext_getElem? fun i => ?_
  rw [getElem?_block, getElem?_block]
  split
  case isTrue => rw [getElem?_overlay h, if_pos (by omega)]
  case isFalse => rfl

theorem mem_block {s : Scalar} (h : s ∈ b.block start count) : s ∈ b.data :=
  List.mem_of_mem_drop (List.mem_of_mem_take h)

theorem map_cast_of_dtype {dtype : DType} (h : ∀ s ∈ values, s.dtype = dtype) :
    values.map (·.cast dtype) = values := by
  rw [List.map_congr_left (g := id), List.map_id]
  intro s hs
  rw [← h s hs, Scalar.cast_dtype_self, id]

theorem wellFormed_zeros (dtype : DType) (shape : List Nat) : (zeros dtype shape).WellFormed := by
  refine ⟨List.length_replicate, fun s hs => ?_⟩
  rw [List.eq_of_mem_replicate hs]
  exact Scalar.dtype_ofNumber dtype _

theorem WellFormed.overlay (hb : b.WellFormed) (h : start + values.length ≤ b.size) :
    (b.overlay start values).WellFormed := by
  refine ⟨(overlay_size h).trans hb.1, ?_⟩
  intro s hs
  simp only [Buffer.overlay, List.mem_append, List.mem_map] at hs
  rcases hs with (hs | ⟨v, -, rfl⟩) | hs
  · exact hb.2 s (List.mem_of_mem_take hs)
  · exact Scalar.dtype_cast v b.dtype
  · exact hb.2 s (List.mem_of_mem_drop hs)

theorem WellFormed.cast (h : b.WellFormed) (dtype : DType) :
    (b.cast dtype).WellFormed := by
  refine ⟨(List.length_map _).trans h.1, ?_⟩
  intro s hs
  obtain ⟨s', -, rfl⟩ := List.mem_map.1 hs
  exact s'.dtype_cast dtype

theorem wellFormed_ofScalars {dtype : DType} {shape : List Nat}
    (h : ofScalars dtype shape values = .ok b) : b.WellFormed := by
  unfold ofScalars at h
  split at h
  case isTrue hlength =>
    cases h
    refine ⟨(List.length_map _).trans hlength, fun s hs => ?_⟩
    obtain ⟨v, -, rfl⟩ := List.mem_map.1 hs
    exact v.dtype_cast dtype
  case isFalse => cases h

theorem WellFormed.fill (h : b.WellFormed) (value : Scalar) : (b.fill value).WellFormed := by
  refine ⟨(List.length_map _).trans h.1, fun s hs => ?_⟩
  obtain ⟨-, -, rfl⟩ := List.mem_map.1 hs
  exact value.dtype_cast b.dtype

theorem put_eq_overlay {offset : Nat} (h : offset < b.size) (value : Scalar) :
    b.put offset value = b.overlay offset [value] := by
  simp only [put, Buffer.overlay, List.map_cons, List.map_nil, List.length_singleton]
  congr 1
  rw [List.set_eq_take_append_cons_drop, if_pos (show offset < b.data.length from h)]
  simp

theorem setFlat_eq_ok {b' : Buffer} {offset : Nat} {value : Scalar}
    (h : b.setFlat offset value = .ok b') :
    b'.dtype = b.dtype ∧ b'.shape = b.shape ∧ (b.WellFormed → b'.WellFormed) := by
  unfold setFlat at h
  split at h
  case isTrue hlt =>
    cases h
    refine ⟨rfl, rfl, fun hb => ?_⟩
    rw [put_eq_overlay hlt]
    exact hb.overlay hlt
  case isFalse => cases h

/-! Leading indexes. -/

section Index

variable {outer core index : List Nat} {k : Nat}

/-- The sub-arrays of a well-formed buffer lie within it. -/
theorem WellFormed.run_le (hb : b.WellFormed) (hs : b.shape = outer ++ core)
    (hk : k < Shape.size outer) : k * Shape.size core + Shape.size core ≤ b.size := by
  have hsize : b.size = Shape.size outer * Shape.size core := by
    rw [size, hb.1, hs, Shape.size_append]
  rw [hsize, ← Nat.succ_mul]
  exact Nat.mul_le_mul_right _ hk

theorem locate_eq (hs : b.shape = outer ++ core) (hk : Shape.offset? outer index = some k) :
    b.locate index = .ok (k * Shape.size core, core) := by
  have hlen := (Shape.inRange_of_offset hk).length_eq
  simp only [locate, hs, hlen, List.take_left, List.drop_left, hk]

theorem locate_cases {place : Nat × List Nat} (h : b.locate index = .ok place) :
    ∃ outer core k, b.shape = outer ++ core ∧ Shape.offset? outer index = some k ∧
      place = (k * Shape.size core, core) := by
  unfold locate at h
  dsimp only at h
  split at h
  case h_1 k hk =>
    cases h
    exact ⟨_, _, k, (List.take_append_drop _ _).symm, hk, rfl⟩
  case h_2 => cases h

theorem slice_eq (hs : b.shape = outer ++ core) (hk : Shape.offset? outer index = some k) :
    b.slice index =
      .ok ⟨b.dtype, core, b.block (k * Shape.size core) (Shape.size core)⟩ := by
  rw [slice, locate_eq hs hk]
  rfl

theorem slice_cases {part : Buffer} (h : b.slice index = .ok part) :
    ∃ outer core k, b.shape = outer ++ core ∧ Shape.offset? outer index = some k ∧
      part = ⟨b.dtype, core, b.block (k * Shape.size core) (Shape.size core)⟩ := by
  obtain ⟨place, hplace, h⟩ := Effect.bind_eq_ok.1 h
  obtain ⟨outer, core, k, hs, hk, rfl⟩ := locate_cases hplace
  cases h
  exact ⟨outer, core, k, hs, hk, rfl⟩

theorem WellFormed.slice {part : Buffer} (hb : b.WellFormed) (h : b.slice index = .ok part) :
    part.WellFormed := by
  obtain ⟨outer, core, k, hs, hk, rfl⟩ := slice_cases h
  exact ⟨length_block (hb.run_le hs (Shape.offset?_lt hk)), fun s hs => hb.2 s (mem_block hs)⟩

theorem assign_eq {source : Buffer} (hs : b.shape = outer ++ core)
    (hk : Shape.offset? outer index = some k) (hsize : source.size = Shape.size core) :
    b.assign index source = .ok (b.overlay (k * Shape.size core) source.data) := by
  rw [assign, locate_eq hs hk]
  show (if Shape.size core = source.size then _ else _) = _
  rw [if_pos hsize.symm]
  rfl

theorem assign_cases {b' source : Buffer} (h : b.assign index source = .ok b') :
    ∃ outer core k, b.shape = outer ++ core ∧ Shape.offset? outer index = some k ∧
      source.size = Shape.size core ∧ b' = b.overlay (k * Shape.size core) source.data := by
  obtain ⟨place, hplace, h⟩ := Effect.bind_eq_ok.1 h
  obtain ⟨outer, core, k, hs, hk, rfl⟩ := locate_cases hplace
  dsimp only at h
  split at h
  case isFalse => cases h
  case isTrue hsize =>
    cases h
    exact ⟨outer, core, k, hs, hk, hsize.symm, rfl⟩

/-- What is written over a sub-array lies within the buffer. -/
theorem WellFormed.source_le {source : Buffer} (hb : b.WellFormed) (hs : b.shape = outer ++ core)
    (hk : Shape.offset? outer index = some k) (hsize : source.size = Shape.size core) :
    k * Shape.size core + source.data.length ≤ b.size := by
  rw [show source.data.length = Shape.size core from hsize]
  exact hb.run_le hs (Shape.offset?_lt hk)

theorem WellFormed.assign {b' source : Buffer} (hb : b.WellFormed)
    (h : b.assign index source = .ok b') : b'.WellFormed := by
  obtain ⟨outer, core, k, hs, hk, hsize, rfl⟩ := assign_cases h
  exact hb.overlay (hb.source_le hs hk hsize)

theorem assign_eq_ok {b' source : Buffer} (h : b.assign index source = .ok b') :
    b'.dtype = b.dtype ∧ b'.shape = b.shape ∧ (b.WellFormed → b'.WellFormed) := by
  have hkept : b'.dtype = b.dtype ∧ b'.shape = b.shape := by
    obtain ⟨-, -, -, -, -, -, rfl⟩ := assign_cases h
    exact ⟨rfl, rfl⟩
  exact ⟨hkept.1, hkept.2, fun hb => hb.assign h⟩

theorem WellFormed.get?_eq (hb : b.WellFormed) (hk : Shape.offset? b.shape index = some k) :
    ∃ s, b.get? index = some s ∧ s.dtype = b.dtype ∧ b.block k 1 = [s] := by
  have hlt : k < b.data.length := hb.1 ▸ Shape.offset?_lt hk
  refine ⟨b.data[k], ?_, hb.2 _ (List.getElem_mem hlt), ?_⟩
  · simp [get?, hk, List.getElem?_eq_getElem hlt]
  · rw [block, List.drop_eq_getElem_cons hlt]
    rfl

theorem WellFormed.set_eq (hb : b.WellFormed) (hk : Shape.offset? b.shape index = some k)
    (value : Scalar) : b.set index value = .ok (b.overlay k [value]) := by
  have hlt : k < b.size := (hb.1 ▸ Shape.offset?_lt hk : k < b.data.length)
  simp only [set, hk, put_eq_overlay hlt]

theorem set_eq_ok {b' : Buffer} {value : Scalar} (h : b.set index value = .ok b') :
    b'.dtype = b.dtype ∧ b'.shape = b.shape ∧ (b.WellFormed → b'.WellFormed) := by
  unfold set at h
  split at h
  case h_1 offset hoffset =>
    cases h
    refine ⟨rfl, rfl, fun hb => ?_⟩
    have hlt : offset < b.size := (hb.1 ▸ Shape.offset?_lt hoffset : offset < b.data.length)
    rw [put_eq_overlay hlt]
    exact hb.overlay hlt
  case h_2 => cases h

/-- Runs of equal length that are numbered differently do not overlap. -/
theorem run_disjoint {i j : Nat} (c : Nat) (h : i ≠ j) : i * c + c ≤ j * c ∨ j * c + c ≤ i * c := by
  rcases Nat.lt_or_gt_of_ne h with h | h
  · exact .inl (Nat.succ_mul i c ▸ Nat.mul_le_mul_right c h)
  · exact .inr (Nat.succ_mul j c ▸ Nat.mul_le_mul_right c h)

/-- A buffer is made up of its sub-arrays at all leading indexes. -/
theorem ext_blocks {a : Buffer} (ha : a.WellFormed) (hb : b.WellFormed) (hd : a.dtype = b.dtype)
    (hsa : a.shape = outer ++ core) (hsb : b.shape = outer ++ core)
    (h : ∀ k < Shape.size outer,
      a.block (k * Shape.size core) (Shape.size core) =
        b.block (k * Shape.size core) (Shape.size core)) :
    a = b := by
  have hsize : a.data.length = Shape.size outer * Shape.size core := by
    rw [ha.1, hsa, Shape.size_append]
  have hsize' : b.data.length = Shape.size outer * Shape.size core := by
    rw [hb.1, hsb, Shape.size_append]
  have hdata : a.data = b.data := by
    refine List.ext_getElem? fun i => ?_
    rcases Nat.lt_or_ge i (Shape.size outer * Shape.size core) with hi | hi
    · have hpos : 0 < Shape.size core := Nat.pos_of_mul_pos_left (Nat.zero_lt_of_lt hi)
      have hrun := congrArg (·[i % Shape.size core]?)
        (h (i / Shape.size core) (Nat.div_lt_of_lt_mul (by rwa [Nat.mul_comm])))
      simpa only [getElem?_block, if_pos (Nat.mod_lt _ hpos), Nat.div_add_mod'] using hrun
    · rw [List.getElem?_eq_none (by omega), List.getElem?_eq_none (by omega)]
  cases a
  cases b
  simp_all

end Index

end Buffer

end Corewise
