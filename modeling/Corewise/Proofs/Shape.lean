import Corewise.Shape
/-!
Indexes in row-major order. `Shape.unravel` and `Shape.offset?` are inverse to each other between the
numbers below the size of a shape and the indexes in its range, and the offset of an index that is
put together from two is the offset of the first, scaled, plus the offset of the second.
-/

namespace Corewise.Shape

/-- One component for each axis, below the size of the axis. -/
def InRange : List Nat → List Nat → Prop
  | [], [] => True
  | d :: ds, i :: is => i < d ∧ InRange ds is
  | _, _ => False

instance decidableInRange : (shape index : List Nat) → Decidable (InRange shape index)
  | [], [] => inferInstanceAs (Decidable True)
  | _ :: ds, _ :: is =>
    have := decidableInRange ds is
    inferInstanceAs (Decidable (_ ∧ _))
  | [], _ :: _ => inferInstanceAs (Decidable False)
  | _ :: _, [] => inferInstanceAs (Decidable False)

@[simp] theorem size_nil : size [] = 1 := rfl

@[simp] theorem size_cons (d : Nat) (ds : List Nat) : size (d :: ds) = d * size ds := rfl

@[simp] theorem size_append (s t : List Nat) : size (s ++ t) = size s * size t := by
  induction s with
  | nil => simp
  | cons d ds ih => simp [ih, Nat.mul_assoc]

theorem word_pos : 0 < word := by decide

theorem foldl_count {n : Nat} (hn : n < word) (shape : List Nat) :
    shape.foldl (fun n d => n * d % word) n = n * size shape % word := by
  induction shape generalizing n with
  | nil => rw [List.foldl_nil, size_nil, Nat.mul_one, Nat.mod_eq_of_lt hn]
  | cons d ds ih =>
    rw [List.foldl_cons, ih (Nat.mod_lt _ word_pos), Nat.mod_mul_mod, size_cons, Nat.mul_assoc]

/-- One reduction of the product is what all of them come to. -/
theorem count_eq (shape : List Nat) : count shape = size shape % word := by
  rw [count, foldl_count (by decide), Nat.one_mul]

theorem count_of_lt {shape : List Nat} (h : size shape < word) : count shape = size shape := by
  rw [count_eq, Nat.mod_eq_of_lt h]

theorem lt_size_of_lt_count {shape : List Nat} {flat : Nat} (h : flat < count shape) : flat < size shape :=
  Nat.lt_of_lt_of_le h (count_eq shape ▸ Nat.mod_le _ _)

@[simp] theorem inRange_nil : InRange [] [] := trivial

@[simp] theorem inRange_cons {d i : Nat} {ds is : List Nat} :
    InRange (d :: ds) (i :: is) ↔ i < d ∧ InRange ds is := Iff.rfl

theorem InRange.length_eq {shape index : List Nat} (h : InRange shape index) :
    index.length = shape.length := by
  induction shape generalizing index with
  | nil =>
    cases index with
    | nil => rfl
    | cons i is => exact h.elim
  | cons d ds ih =>
    cases index with
    | nil => exact h.elim
    | cons i is => simp [ih h.2]

theorem inRange_append {s t i j : List Nat} (h : i.length = s.length) :
    InRange (s ++ t) (i ++ j) ↔ InRange s i ∧ InRange t j := by
  induction s generalizing i with
  | nil =>
    cases i with
    | nil => simp
    | cons => simp at h
  | cons d ds ih =>
    cases i with
    | nil => simp at h
    | cons a as =>
      simp only [List.cons_append, inRange_cons, ih (by simpa using h)]
      exact and_assoc.symm

/-- The offset of an index in range is below the size. -/
theorem InRange.offset {shape index : List Nat} (h : InRange shape index) :
    ∃ k, offset? shape index = some k ∧ k < size shape := by
  induction shape generalizing index with
  | nil =>
    cases index with
    | nil => exact ⟨0, rfl, Nat.one_pos⟩
    | cons i is => exact h.elim
  | cons d ds ih =>
    cases index with
    | nil => exact h.elim
    | cons i is =>
      obtain ⟨k, hk, hlt⟩ := ih h.2
      refine ⟨i * size ds + k, by simp [offset?, h.1, hk], ?_⟩
      calc i * size ds + k < i * size ds + size ds := by omega
        _ = (i + 1) * size ds := by rw [Nat.add_mul, Nat.one_mul]
        _ ≤ d * size ds := Nat.mul_le_mul_right _ h.1

theorem inRange_of_offset {shape index : List Nat} {k : Nat} (h : offset? shape index = some k) :
    InRange shape index := by
  induction shape generalizing index k with
  | nil =>
    cases index with
    | nil => trivial
    | cons i is => simp [offset?] at h
  | cons d ds ih =>
    cases index with
    | nil => simp [offset?] at h
    | cons i is =>
      simp only [offset?] at h
      split at h
      case isTrue hi =>
        obtain ⟨k', hk', -⟩ := Option.map_eq_some_iff.1 h
        exact ⟨hi, ih hk'⟩
      case isFalse => simp at h

theorem offset?_lt {shape index : List Nat} {k : Nat} (h : offset? shape index = some k) :
    k < size shape := by
  obtain ⟨k', hk', hlt⟩ := (inRange_of_offset h).offset
  rw [h] at hk'
  cases hk'
  exact hlt

/-- The offset of an index that is put together from two is the offset of the first, scaled, plus that of the
second. -/
theorem offset?_append {s t i j : List Nat} {k : Nat} (h : offset? s i = some k) :
    offset? (s ++ t) (i ++ j) = (offset? t j).map (k * size t + ·) := by
  induction s generalizing i k with
  | nil =>
    cases i with
    | nil =>
      cases h
      simp
    | cons x xs => simp [offset?] at h
  | cons d ds ih =>
    cases i with
    | nil => simp [offset?] at h
    | cons x xs =>
      obtain ⟨hx, hxs⟩ := inRange_of_offset h
      obtain ⟨k', hk', -⟩ := hxs.offset
      simp only [offset?, if_pos hx, hk', Option.map_some, Option.some.injEq] at h
      subst h
      simp only [List.cons_append, offset?, if_pos hx, ih hk', Option.map_map, size_append]
      congr 1
      funext l
      rw [Function.comp_apply, Nat.add_mul, Nat.mul_assoc, Nat.add_assoc]

theorem exists_of_offset_append {s t index : List Nat} {n : Nat} (h : offset? (s ++ t) index = some n) :
    ∃ i j k l, index = i ++ j ∧ offset? s i = some k ∧ offset? t j = some l ∧ n = k * size t + l := by
  have hin := inRange_of_offset h
  have hlength := hin.length_eq
  rw [List.length_append] at hlength
  have htake : (index.take s.length).length = s.length := by
    rw [List.length_take]
    omega
  rw [← List.take_append_drop s.length index] at hin h
  obtain ⟨hi, hj⟩ := (inRange_append htake).1 hin
  obtain ⟨k, hk, -⟩ := hi.offset
  obtain ⟨l, hl, -⟩ := hj.offset
  rw [offset?_append hk, hl, Option.map_some, Option.some.injEq] at h
  exact ⟨_, _, k, l, (List.take_append_drop _ _).symm, hk, hl, h.symm⟩

/-- Multiples of the size do not show in an index. -/
theorem unravel_add_mul_size (a b : Nat) (shape : List Nat) :
    unravel (a * size shape + b) shape = unravel b shape := by
  induction shape generalizing a with
  | nil => rfl
  | cons d ds ih =>
    have hsplit : a * size (d :: ds) + b = a * d * size ds + b := by
      rw [size_cons, Nat.mul_assoc]
    rw [hsplit]
    simp only [unravel]
    rw [ih (a * d)]
    congr 1
    rcases Nat.eq_zero_or_pos (size ds) with h | h
    · simp [h]
    · rw [Nat.add_comm, Nat.add_mul_div_right _ _ h, Nat.add_mul_mod_self_right]

theorem unravel_mod_size (flat : Nat) (shape : List Nat) :
    unravel (flat % size shape) shape = unravel flat shape := by
  have h := unravel_add_mul_size (flat / size shape) (flat % size shape) shape
  rw [Nat.div_add_mod'] at h
  exact h.symm

theorem inRange_unravel {flat : Nat} {shape : List Nat} (h : flat < size shape) :
    InRange shape (unravel flat shape) := by
  induction shape generalizing flat with
  | nil => trivial
  | cons d ds ih =>
    have hpos : 0 < size (d :: ds) := Nat.zero_lt_of_lt h
    rw [size_cons] at hpos
    refine ⟨Nat.mod_lt _ (Nat.pos_of_mul_pos_right hpos), ?_⟩
    have hds : 0 < size ds := Nat.pos_of_mul_pos_left hpos
    rw [← unravel_mod_size]
    exact ih (Nat.mod_lt _ hds)

theorem offset?_unravel {flat : Nat} {shape : List Nat} (h : flat < size shape) :
    offset? shape (unravel flat shape) = some flat := by
  induction shape generalizing flat with
  | nil => simp_all [unravel, offset?]
  | cons d ds ih =>
    have hr := inRange_unravel h
    have hds : 0 < size ds := by
      rw [size_cons] at h
      exact Nat.pos_of_mul_pos_left (Nat.zero_lt_of_lt h)
    have hq : flat / size ds < d := Nat.div_lt_of_lt_mul (by rwa [Nat.mul_comm])
    have htail : offset? ds (unravel flat ds) = some (flat % size ds) := by
      rw [← unravel_mod_size]
      exact ih (Nat.mod_lt _ hds)
    simp only [unravel, offset?, Nat.mod_eq_of_lt hq, if_pos hq, htail, Option.map_some,
      Nat.div_add_mod']

theorem unravel_of_offset {shape index : List Nat} {k : Nat} (h : offset? shape index = some k) :
    unravel k shape = index := by
  induction shape generalizing index k with
  | nil =>
    cases index with
    | nil => rfl
    | cons i is => simp [offset?] at h
  | cons d ds ih =>
    cases index with
    | nil => simp [offset?] at h
    | cons i is =>
      obtain ⟨hi, his⟩ := inRange_of_offset h
      obtain ⟨k', hk', hlt⟩ := his.offset
      simp only [offset?, if_pos hi, hk', Option.map_some, Option.some.injEq] at h
      subst h
      have hpos : 0 < size ds := Nat.zero_lt_of_lt hlt
      simp only [unravel]
      rw [unravel_add_mul_size, ih hk', Nat.add_comm, Nat.add_mul_div_right _ _ hpos,
        Nat.div_eq_of_lt hlt, Nat.zero_add, Nat.mod_eq_of_lt hi]

end Corewise.Shape
