import Corewise.Loop.Plan
import Corewise.Proofs.Effect
import Corewise.Proofs.Shape.Broadcast
/-!
What shapes broadcast to. Stretching orders shapes, and the broadcast of some shapes is the least that they all
stretch to; so it depends neither on their order nor on how they are grouped. Axis by axis it has the one size
other than one that is found there, and where there are two such sizes there is no broadcast.
-/

namespace Corewise

namespace Shape

variable {shapes shapes' : List (List Nat)} {inner shape outer result : List Nat} {k d : Nat}

/-- Sizes on the axis that is `k` places before the last, in the shapes that have it. -/
def sizesOn (shapes : List (List Nat)) (k : Nat) : List Nat :=
  shapes.filterMap fun shape => shape.reverse[k]?

/-- No axis has two sizes other than one. -/
def Agree (shapes : List (List Nat)) : Prop :=
  ∀ k, ∀ d ∈ sizesOn shapes k, ∀ e ∈ sizesOn shapes k, d ≠ 1 → e ≠ 1 → d = e

/-- The greatest number of axes. -/
def maxRank (shapes : List (List Nat)) : Nat := (shapes.map List.length).foldr max 0

/-- The size other than one on an axis, or one where there is none. -/
def commonSize (shapes : List (List Nat)) (k : Nat) : Nat :=
  ((sizesOn shapes k).find? (· != 1)).getD 1

/-- As many axes as the longest of the shapes has, each with the common size on it. -/
def common (shapes : List (List Nat)) : List Nat :=
  ((List.range (maxRank shapes)).map (commonSize shapes)).reverse

/-- The least shape that all of the shapes stretch to. -/
structure IsBroadcast (shapes : List (List Nat)) (result : List Nat) : Prop where
  above : ∀ shape ∈ shapes, Stretches shape result
  least : ∀ outer, (∀ shape ∈ shapes, Stretches shape outer) → Stretches result outer

section Axes

theorem mem_sizesOn : d ∈ sizesOn shapes k ↔ ∃ shape ∈ shapes, shape.reverse[k]? = some d :=
  List.mem_filterMap

theorem length_le_maxRank (h : shape ∈ shapes) : shape.length ≤ maxRank shapes := by
  induction shapes with
  | nil => exact absurd h List.not_mem_nil
  | cons first shapes ih =>
    rcases List.mem_cons.1 h with rfl | h
    · exact Nat.le_max_left ..
    · exact Nat.le_trans (ih h) (Nat.le_max_right ..)

theorem exists_axis_of_lt_maxRank (h : k < maxRank shapes) : ∃ shape ∈ shapes, k < shape.length := by
  induction shapes with
  | nil => exact absurd h (Nat.not_lt_zero k)
  | cons first shapes ih =>
    have hmax : k < max first.length (maxRank shapes) := h
    rcases Nat.lt_or_ge k first.length with hlt | hge
    · exact ⟨first, List.mem_cons_self, hlt⟩
    · obtain ⟨shape, hmem, hlt⟩ := ih (by omega)
      exact ⟨shape, List.mem_cons_of_mem first hmem, hlt⟩

theorem commonSize_eq_one_or_mem (shapes : List (List Nat)) (k : Nat) :
    commonSize shapes k = 1 ∨ commonSize shapes k ∈ sizesOn shapes k := by
  unfold commonSize
  rcases hfound : (sizesOn shapes k).find? (· != 1) with _ | d
  · exact .inl rfl
  · exact .inr (List.mem_of_find?_eq_some hfound)

theorem Agree.commonSize_eq (h : Agree shapes) (hd : d ∈ sizesOn shapes k) (hone : d ≠ 1) :
    commonSize shapes k = d := by
  unfold commonSize
  rcases hfound : (sizesOn shapes k).find? (· != 1) with _ | e
  case none => exact absurd (bne_iff_ne.2 hone) (List.find?_eq_none.1 hfound d hd)
  case some =>
    have he : (e != 1) = true := List.find?_some (p := (· != 1)) hfound
    exact h k e (List.mem_of_find?_eq_some hfound) d hd (bne_iff_ne.1 he) hone

theorem getElem?_reverse_common :
    (common shapes).reverse[k]? = some d ↔ k < maxRank shapes ∧ commonSize shapes k = d := by
  rw [common, List.reverse_reverse, List.getElem?_map, Option.map_eq_some_iff]
  simp only [List.getElem?_eq_some_iff, List.length_range, List.getElem_range]
  constructor
  · rintro ⟨_, ⟨hk, rfl⟩, hd⟩
    exact ⟨hk, hd⟩
  · rintro ⟨hk, hd⟩
    exact ⟨k, ⟨hk, rfl⟩, hd⟩

theorem stretchesReversed_iff_axes {as bs : List Nat} : StretchesReversed as bs ↔
    ∀ (k a : Nat), as[k]? = some a → ∃ b, bs[k]? = some b ∧ (a = 1 ∨ a = b) := by
  induction as generalizing bs with
  | nil => exact ⟨fun _ k a ha => (nomatch ha), fun _ => trivial⟩
  | cons a as ih =>
    cases bs with
    | nil => exact ⟨False.elim, fun h => nomatch h 0 a rfl⟩
    | cons b bs =>
      constructor
      · rintro ⟨hab, hrest⟩ k d hd
        cases k with
        | zero =>
          cases hd
          exact ⟨b, rfl, hab⟩
        | succ k => exact ih.1 hrest k d hd
      · intro h
        obtain ⟨e, he, hae⟩ := h 0 a rfl
        cases he
        exact ⟨hae, ih.2 fun k d hd => h (k + 1) d hd⟩

/-- Every axis, counted from the last, has size one or the size that it has in the other shape. -/
theorem stretches_iff_axes : Stretches inner outer ↔
    ∀ (k a : Nat), inner.reverse[k]? = some a → ∃ b, outer.reverse[k]? = some b ∧ (a = 1 ∨ a = b) := by
  rw [stretches_iff_reversed, stretchesReversed_iff_axes]

/-- What stretches to one shape has at most one size other than one on each axis. -/
theorem agree_of_stretches (h : ∀ shape ∈ shapes, Stretches shape outer) : Agree shapes := by
  intro k d hd e he hd1 he1
  obtain ⟨shape, hshape, hd⟩ := mem_sizesOn.1 hd
  obtain ⟨shape', hshape', he⟩ := mem_sizesOn.1 he
  obtain ⟨b, hb, hdb⟩ := stretches_iff_axes.1 (h shape hshape) k d hd
  obtain ⟨b', hb', heb⟩ := stretches_iff_axes.1 (h shape' hshape') k e he
  cases hb.symm.trans hb'
  exact (hdb.resolve_left hd1).trans (heb.resolve_left he1).symm

theorem Agree.stretches_common (h : Agree shapes) (hmem : shape ∈ shapes) :
    Stretches shape (common shapes) := by
  rw [stretches_iff_axes]
  intro k a ha
  have hk : k < maxRank shapes := by
    have hlt := (List.getElem?_eq_some_iff.1 ha).1
    rw [List.length_reverse] at hlt
    exact Nat.lt_of_lt_of_le hlt (length_le_maxRank hmem)
  refine ⟨commonSize shapes k, getElem?_reverse_common.2 ⟨hk, rfl⟩, ?_⟩
  by_cases hone : a = 1
  · exact .inl hone
  · exact .inr (h.commonSize_eq (mem_sizesOn.2 ⟨shape, hmem, ha⟩) hone).symm

theorem common_stretches (h : ∀ shape ∈ shapes, Stretches shape outer) :
    Stretches (common shapes) outer := by
  rw [stretches_iff_axes]
  intro k c hc
  obtain ⟨hk, rfl⟩ := getElem?_reverse_common.1 hc
  rcases commonSize_eq_one_or_mem shapes k with hone | hsize
  · -- Some shape has the axis, so the other has it, too.
    obtain ⟨shape, hmem, hlt⟩ := exists_axis_of_lt_maxRank hk
    have hlt' : k < shape.reverse.length := by rwa [List.length_reverse]
    have hat := List.getElem?_eq_getElem hlt'
    obtain ⟨b, hb, -⟩ := stretches_iff_axes.1 (h shape hmem) k _ hat
    exact ⟨b, hb, .inl hone⟩
  · obtain ⟨shape, hmem, hat⟩ := mem_sizesOn.1 hsize
    exact stretches_iff_axes.1 (h shape hmem) k _ hat

theorem Agree.isBroadcast (h : Agree shapes) : IsBroadcast shapes (common shapes) :=
  ⟨fun _ hmem => h.stretches_common hmem, fun _ => common_stretches⟩

end Axes

section Order

theorem Stretches.trans (h : Stretches inner shape) (h' : Stretches shape outer) :
    Stretches inner outer := by
  rw [stretches_iff_reversed] at h h' ⊢
  exact StretchesReversed.trans h h'

theorem IsBroadcast.unique (h : IsBroadcast shapes result) (h' : IsBroadcast shapes outer) :
    result = outer :=
  (h.least outer h'.above).antisymm (h'.least result h.above)

theorem isBroadcast_iff : IsBroadcast shapes result ↔ Agree shapes ∧ result = common shapes := by
  constructor
  · intro h
    have hagree := agree_of_stretches h.above
    exact ⟨hagree, h.unique hagree.isBroadcast⟩
  · rintro ⟨hagree, rfl⟩
    exact hagree.isBroadcast

theorem broadcast?_eq_some_iff : broadcast? shapes = some result ↔ IsBroadcast shapes result := by
  constructor
  · intro h
    refine ⟨stretches_of_broadcast h, fun outer houter => ?_⟩
    obtain ⟨joined, hjoined, hle⟩ := broadcast_of_stretches houter
    cases h.symm.trans hjoined
    exact hle
  · intro h
    obtain ⟨joined, hjoined, hle⟩ := broadcast_of_stretches h.above
    rw [hjoined, hle.antisymm (h.least joined (stretches_of_broadcast hjoined))]

/-- Only which shapes there are matters. -/
theorem isBroadcast_congr (h : ∀ shape, shape ∈ shapes' ↔ shape ∈ shapes) :
    IsBroadcast shapes' result ↔ IsBroadcast shapes result := by
  have habove (outer : List Nat) :
      (∀ shape ∈ shapes', Stretches shape outer) ↔ ∀ shape ∈ shapes, Stretches shape outer :=
    forall_congr' fun shape => by rw [h shape]
  constructor
  · exact fun hb => ⟨(habove _).1 hb.above, fun outer houter => hb.least outer ((habove _).2 houter)⟩
  · exact fun hb => ⟨(habove _).2 hb.above, fun outer houter => hb.least outer ((habove _).1 houter)⟩

theorem stretches_of_groups {groups : List (List (List Nat))} {bounds : List (List Nat)}
    (h : List.Forall₂ IsBroadcast groups bounds) :
    (∀ shape ∈ groups.flatten, Stretches shape outer) ↔ ∀ bound ∈ bounds, Stretches bound outer := by
  induction h with
  | nil => exact ⟨fun _ => nofun, fun _ => nofun⟩
  | @cons group bound groups bounds hgroup _ ih =>
    rw [List.flatten_cons, List.forall_mem_append, List.forall_mem_cons, ih]
    refine and_congr_left fun _ => ⟨hgroup.least outer, fun hbound shape hmem => ?_⟩
    exact (hgroup.above shape hmem).trans hbound

/-- Shapes have a broadcast exactly if each group of them has one and these have one, and it is the same. -/
theorem isBroadcast_flatten {groups : List (List (List Nat))} :
    IsBroadcast groups.flatten result ↔
      ∃ bounds, List.Forall₂ IsBroadcast groups bounds ∧ IsBroadcast bounds result := by
  constructor
  case mp =>
    intro h
    have hagree : ∀ group ∈ groups, Agree group := fun group hgroup =>
      agree_of_stretches fun shape hmem => h.above shape (List.mem_flatten_of_mem hgroup hmem)
    have hbounds : List.Forall₂ IsBroadcast groups (groups.map common) := by
      rw [List.forall₂_map_right_iff, List.forall₂_same]
      exact fun group hgroup => (hagree group hgroup).isBroadcast
    refine ⟨groups.map common, hbounds, (stretches_of_groups hbounds).1 h.above, ?_⟩
    exact fun outer houter => h.least outer ((stretches_of_groups hbounds).2 houter)
  case mpr =>
    rintro ⟨bounds, hbounds, h⟩
    refine ⟨(stretches_of_groups hbounds).2 h.above, ?_⟩
    exact fun outer houter => h.least outer ((stretches_of_groups hbounds).1 houter)

theorem IsBroadcast.cons_self (h : IsBroadcast shapes result) :
    IsBroadcast (result :: shapes) result where
  above := List.forall_mem_cons.2 ⟨stretches_refl result, h.above⟩
  least _ houter := houter result List.mem_cons_self

end Order

end Shape

namespace Loop

open Shape

theorem broadcast_eq_ok_iff {shapes : List (List Nat)} {result : List Nat} :
    broadcast shapes = .ok result ↔ IsBroadcast shapes result := by
  rw [← broadcast?_eq_some_iff, broadcast]
  split
  case h_1 shape hshape => rw [hshape, Except.ok.injEq, Option.some.injEq]
  case h_2 hnone => exact ⟨nofun, fun hsome => nomatch hnone.symm.trans hsome⟩

theorem broadcast_groups_eq_ok_iff {groups : List (List (List Nat))} {result : List Nat} :
    groups.mapM broadcast >>= broadcast = .ok result ↔ IsBroadcast groups.flatten result := by
  rw [Effect.bind_eq_ok, isBroadcast_flatten]
  refine exists_congr fun bounds => ?_
  rw [Effect.mapM_eq_ok, broadcast_eq_ok_iff]
  simp only [broadcast_eq_ok_iff]

/-- Shapes broadcast exactly if there is one size other than one at most on each axis, and then to the least
shape that they all stretch to. In which order they come, how often each of them does, and whether some of them
have been broadcast before makes no difference, nor does it to add the result. -/
theorem broadcast_joins (shapes : List (List Nat)) :
    (∀ result, broadcast shapes = .ok result ↔ Agree shapes ∧ result = common shapes) ∧
    (∀ result, broadcast shapes = .ok result ↔ IsBroadcast shapes result) ∧
    (∀ shapes', (∀ shape, shape ∈ shapes' ↔ shape ∈ shapes) →
      ∀ result, broadcast shapes' = .ok result ↔ broadcast shapes = .ok result) ∧
    (∀ groups : List (List (List Nat)), (∀ shape, shape ∈ groups.flatten ↔ shape ∈ shapes) →
      ∀ result, groups.mapM broadcast >>= broadcast = .ok result ↔ broadcast shapes = .ok result) ∧
    ∀ result, broadcast shapes = .ok result → broadcast (result :: shapes) = .ok result := by
  refine ⟨fun result => ?_, fun result => broadcast_eq_ok_iff, ?_, ?_, ?_⟩
  · rw [broadcast_eq_ok_iff, isBroadcast_iff]
  · intro shapes' hsame result
    rw [broadcast_eq_ok_iff, broadcast_eq_ok_iff, isBroadcast_congr hsame]
  · intro groups hsame result
    rw [broadcast_groups_eq_ok_iff, broadcast_eq_ok_iff, isBroadcast_congr hsame]
  · intro result h
    exact broadcast_eq_ok_iff.2 (broadcast_eq_ok_iff.1 h).cons_self

/-- An axis without elements goes with axes of size one, and is the size that the other shapes are stretched
to. -/
theorem broadcast_joins_empty :
    broadcast [[0, 1], [3], [1, 1, 1]] = .ok [1, 0, 3] ∧
    [[[1, 1, 1], [3]], [[3], [0, 1]]].mapM broadcast >>= broadcast = .ok [1, 0, 3] ∧
    broadcast [[1, 0, 3], [0, 1], [3], [1, 1, 1]] = .ok [1, 0, 3] := by
  have h : broadcast [[0, 1], [3], [1, 1, 1]] = .ok [1, 0, 3] := by rfl
  obtain ⟨-, -, -, hgroups, hadded⟩ := broadcast_joins [[0, 1], [3], [1, 1, 1]]
  refine ⟨h, (hgroups [[[1, 1, 1], [3]], [[3], [0, 1]]] ?_ _).2 h, hadded _ h⟩
  intro shape
  simp only [List.flatten_cons, List.flatten_nil, List.cons_append, List.nil_append, List.mem_cons,
    List.not_mem_nil, or_false]
  tauto

end Loop

end Corewise
