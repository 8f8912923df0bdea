import Corewise.Proofs.Shape
import Mathlib.Data.List.Forall2
/-!
Broadcasting. Shapes are compared from their last axes on. Every shape that takes part in a broadcast
stretches to the result, and a loop index in range of the result leads to an index in range of each of
them.
-/

namespace Corewise.Shape

/-- Axes of size one stretch to any size, and axes that are not there to any number of axes. -/
def Stretches (inner outer : List Nat) : Prop :=
  ∃ leading aligned, outer = leading ++ aligned ∧
    List.Forall₂ (fun d e => d = 1 ∨ d = e) inner aligned

/-- Where a loop index leads in an operand with the outer shape `outer`. The components of axes that
the operand does not have are ignored, and an axis of size one is read at 0. -/
def ReadsAt (outer index inner : List Nat) : Prop :=
  ∃ leading aligned, index = leading ++ aligned ∧ aligned.length = outer.length ∧
    inner = List.zipWith (fun d i => if d = 1 then 0 else i) outer aligned

/-- `Stretches` for shapes whose axes are listed from the last to the first. -/
def StretchesReversed : List Nat → List Nat → Prop
  | [], _ => True
  | _ :: _, [] => False
  | a :: as, b :: bs => (a = 1 ∨ a = b) ∧ StretchesReversed as bs

theorem stretchesReversed_refl (as : List Nat) : StretchesReversed as as := by
  induction as with
  | nil => trivial
  | cons a as ih => exact ⟨.inr rfl, ih⟩

theorem StretchesReversed.trans {as bs cs : List Nat} (h : StretchesReversed as bs)
    (h' : StretchesReversed bs cs) : StretchesReversed as cs := by
  induction as generalizing bs cs with
  | nil => trivial
  | cons a as ih =>
    cases bs with
    | nil => exact h.elim
    | cons b bs =>
      cases cs with
      | nil => exact h'.elim
      | cons c cs =>
        obtain ⟨hab, hs⟩ := h
        obtain ⟨hbc, hs'⟩ := h'
        refine ⟨?_, ih hs hs'⟩
        rcases hab with ha | rfl
        · exact .inl ha
        · exact hbc

theorem joinAxis_eq_some {a b c : Nat} (h : joinAxis a b = some c) :
    (a = 1 ∨ a = c) ∧ (b = 1 ∨ b = c) := by
  unfold joinAxis at h
  split at h
  case isTrue ha => exact ⟨.inl ha, .inr (Option.some.inj h)⟩
  case isFalse =>
    split at h
    case isTrue hb =>
      cases h
      exact ⟨.inr rfl, hb⟩
    case isFalse => simp at h

theorem joinReversed_eq_some {as bs cs : List Nat} (h : joinReversed as bs = some cs) :
    StretchesReversed as cs ∧ StretchesReversed bs cs := by
  induction as generalizing bs cs with
  | nil =>
    cases h
    exact ⟨trivial, stretchesReversed_refl bs⟩
  | cons a as ih =>
    cases bs with
    | nil =>
      cases h
      exact ⟨stretchesReversed_refl _, trivial⟩
    | cons b bs =>
      simp only [joinReversed, Option.bind_eq_bind, Option.bind_eq_some_iff] at h
      obtain ⟨c, hc, cs, hcs, heq⟩ := h
      cases heq
      obtain ⟨hac, hbc⟩ := joinAxis_eq_some hc
      obtain ⟨has, hbs⟩ := ih hcs
      exact ⟨⟨hac, has⟩, ⟨hbc, hbs⟩⟩

theorem stretchesReversed_of_foldlM {shapes : List (List Nat)} {joined result : List Nat}
    (h : shapes.foldlM (fun joined shape => joinReversed joined shape.reverse) joined = some result) :
    StretchesReversed joined result ∧
      ∀ shape ∈ shapes, StretchesReversed shape.reverse result := by
  induction shapes generalizing joined with
  | nil =>
    cases h
    exact ⟨stretchesReversed_refl _, by simp⟩
  | cons shape shapes ih =>
    simp only [List.foldlM_cons, Option.bind_eq_bind, Option.bind_eq_some_iff] at h
    obtain ⟨next, hnext, hrest⟩ := h
    obtain ⟨hjoined, hshape⟩ := joinReversed_eq_some hnext
    obtain ⟨hres, hall⟩ := ih hrest
    refine ⟨hjoined.trans hres, ?_⟩
    intro s hs
    rcases List.mem_cons.1 hs with rfl | hs
    · exact hshape.trans hres
    · exact hall s hs

theorem stretchesReversed_iff {as bs : List Nat} :
    StretchesReversed as bs ↔
      ∃ aligned rest, bs = aligned ++ rest ∧
        List.Forall₂ (fun d e => d = 1 ∨ d = e) as aligned := by
  constructor
  case mp =>
    intro h
    induction as generalizing bs with
    | nil => exact ⟨[], bs, rfl, .nil⟩
    | cons a as ih =>
      cases bs with
      | nil => exact h.elim
      | cons b bs =>
        obtain ⟨aligned, rest, rfl, hall⟩ := ih h.2
        exact ⟨b :: aligned, rest, rfl, .cons h.1 hall⟩
  case mpr =>
    rintro ⟨aligned, rest, rfl, hall⟩
    induction hall with
    | nil => trivial
    | cons hab _ ih => exact ⟨hab, ih⟩

theorem stretches_iff_reversed {inner outer : List Nat} :
    Stretches inner outer ↔ StretchesReversed inner.reverse outer.reverse := by
  rw [stretchesReversed_iff]
  constructor
  case mp =>
    rintro ⟨leading, aligned, rfl, hall⟩
    exact ⟨aligned.reverse, leading.reverse, by simp, List.forall₂_reverse_iff.2 hall⟩
  case mpr =>
    rintro ⟨aligned, rest, heq, hall⟩
    refine ⟨rest.reverse, aligned.reverse, ?_, ?_⟩
    · rw [← List.reverse_append, ← heq, List.reverse_reverse]
    · exact List.forall₂_reverse_iff.1 (by simpa using hall)

/-- Every shape stretches to the broadcast. -/
theorem stretches_of_broadcast {shapes : List (List Nat)} {result : List Nat}
    (h : broadcast? shapes = some result) : ∀ shape ∈ shapes, Stretches shape result := by
  obtain ⟨reversed, hfold, rfl⟩ := Option.map_eq_some_iff.1 h
  intro shape hs
  rw [stretches_iff_reversed, List.reverse_reverse]
  exact (stretchesReversed_of_foldlM hfold).2 shape hs

theorem stretches_refl (shape : List Nat) : Stretches shape shape := by
  rw [stretches_iff_reversed]
  exact stretchesReversed_refl _

theorem StretchesReversed.antisymm {as bs : List Nat} (h : StretchesReversed as bs)
    (h' : StretchesReversed bs as) : as = bs := by
  induction as generalizing bs with
  | nil =>
    cases bs with
    | nil => rfl
    | cons => exact h'.elim
  | cons a as ih =>
    cases bs with
    | nil => exact h.elim
    | cons b bs =>
      obtain ⟨hab, hs⟩ := h
      obtain ⟨hba, hs'⟩ := h'
      have heq : a = b := by omega
      rw [heq, ih hs hs']

theorem Stretches.antisymm {inner outer : List Nat} (h : Stretches inner outer)
    (h' : Stretches outer inner) : inner = outer := by
  rw [stretches_iff_reversed] at h h'
  exact List.reverse_injective (h.antisymm h')

theorem joinAxis_of_stretches {a b c : Nat} (ha : a = 1 ∨ a = c) (hb : b = 1 ∨ b = c) :
    ∃ d, joinAxis a b = some d ∧ (d = 1 ∨ d = c) := by
  unfold joinAxis
  split
  case isTrue => exact ⟨b, rfl, hb⟩
  case isFalse hone =>
    obtain rfl := ha.resolve_left hone
    rw [if_pos hb]
    exact ⟨a, rfl, ha⟩

theorem joinReversed_of_stretches {as bs cs : List Nat} (ha : StretchesReversed as cs)
    (hb : StretchesReversed bs cs) :
    ∃ ds, joinReversed as bs = some ds ∧ StretchesReversed ds cs := by
  induction as generalizing bs cs with
  | nil => exact ⟨bs, rfl, hb⟩
  | cons a as ih =>
    cases bs with
    | nil => exact ⟨a :: as, rfl, ha⟩
    | cons b bs =>
      cases cs with
      | nil => exact ha.elim
      | cons c cs =>
        obtain ⟨d, hd, hdc⟩ := joinAxis_of_stretches ha.1 hb.1
        obtain ⟨ds, hds, hdcs⟩ := ih ha.2 hb.2
        refine ⟨d :: ds, ?_, hdc, hdcs⟩
        simp only [joinReversed, hd, hds]
        rfl

theorem foldlM_of_stretches {shapes : List (List Nat)} {joined outer : List Nat}
    (hjoined : StretchesReversed joined outer)
    (h : ∀ shape ∈ shapes, StretchesReversed shape.reverse outer) :
    ∃ result, shapes.foldlM (fun joined shape => joinReversed joined shape.reverse) joined =
      some result ∧ StretchesReversed result outer := by
  induction shapes generalizing joined with
  | nil => exact ⟨joined, rfl, hjoined⟩
  | cons shape shapes ih =>
    obtain ⟨hshape, hrest⟩ := List.forall_mem_cons.1 h
    obtain ⟨next, hnext, hle⟩ := joinReversed_of_stretches hjoined hshape
    obtain ⟨result, hresult, hout⟩ := ih hle hrest
    refine ⟨result, ?_, hout⟩
    rw [List.foldlM_cons, hnext]
    exact hresult

/-- Shapes that stretch to one shape have a broadcast, and that stretches to it, too. -/
theorem broadcast_of_stretches {shapes : List (List Nat)} {outer : List Nat}
    (h : ∀ shape ∈ shapes, Stretches shape outer) :
    ∃ joined, broadcast? shapes = some joined ∧ Stretches joined outer := by
  have hreversed (shape : List Nat) (hs : shape ∈ shapes) :
      StretchesReversed shape.reverse outer.reverse := stretches_iff_reversed.1 (h shape hs)
  obtain ⟨result, hresult, hout⟩ := @foldlM_of_stretches shapes [] outer.reverse trivial hreversed
  refine ⟨result.reverse, ?_, ?_⟩
  · rw [broadcast?, hresult]
    rfl
  · rwa [stretches_iff_reversed, List.reverse_reverse]

/-- A shape to which all others stretch is their broadcast. -/
theorem broadcast_of_mem {shapes : List (List Nat)} {outer : List Nat} (hmem : outer ∈ shapes)
    (h : ∀ shape ∈ shapes, Stretches shape outer) : broadcast? shapes = some outer := by
  obtain ⟨joined, hjoined, hle⟩ := broadcast_of_stretches h
  have hge := stretches_of_broadcast hjoined outer hmem
  rw [hjoined, hle.antisymm hge]

theorem Stretches.length_le {inner outer : List Nat} (h : Stretches inner outer) :
    inner.length ≤ outer.length := by
  obtain ⟨leading, aligned, rfl, hall⟩ := h
  simp [hall.length_eq]

theorem readsAt_iff {outer index inner : List Nat} (h : outer.length ≤ index.length) :
    ReadsAt outer index inner ↔ inner = project index outer := by
  constructor
  case mp =>
    rintro ⟨leading, aligned, rfl, hlen, rfl⟩
    have hdrop : (leading ++ aligned).drop ((leading ++ aligned).length - outer.length) = aligned := by
      rw [List.length_append, hlen, Nat.add_sub_cancel]
      exact List.drop_left
    rw [project, hdrop, List.zipWith_comm]
  case mpr =>
    rintro rfl
    refine ⟨index.take (index.length - outer.length), index.drop (index.length - outer.length),
      (List.take_append_drop _ _).symm, ?_, ?_⟩
    · rw [List.length_drop]
      omega
    · rw [project, List.zipWith_comm]

/-- A loop index leads to an index in range of every shape that stretches to the loop's. -/
theorem Stretches.inRange_project {inner outer index : List Nat} (h : Stretches inner outer)
    (hi : InRange outer index) : InRange inner (project index inner) := by
  have hread := (readsAt_iff (hi.length_eq ▸ h.length_le)).2 rfl
  obtain ⟨leading, aligned, rfl, hall⟩ := h
  obtain ⟨before, read, rfl, hlen, heq⟩ := hread
  rw [heq]
  have hsplit : before.length = leading.length := by
    have := hi.length_eq
    have := hall.length_eq
    simp only [List.length_append] at *
    omega
  replace hi := ((inRange_append hsplit).1 hi).2
  clear heq hlen hsplit
  induction hall generalizing read with
  | nil => trivial
  | @cons d e ds es hde _ ih =>
    cases read with
    | nil => exact hi.elim
    | cons i is =>
      refine ⟨?_, ih is hi.2⟩
      rcases hde with rfl | rfl
      · simp
      · show (if d = 1 then 0 else i) < d
        have hlt := hi.1
        split <;> omega

/-- On the axes of the loop itself nothing is stretched. -/
theorem project_self {outer index : List Nat} (hi : InRange outer index) :
    project index outer = index := by
  rw [project, hi.length_eq, Nat.sub_self, List.drop_zero]
  induction outer generalizing index with
  | nil =>
    cases index with
    | nil => rfl
    | cons => exact hi.elim
  | cons d ds ih =>
    cases index with
    | nil => exact hi.elim
    | cons i is =>
      rw [List.zipWith_cons_cons, ih hi.2]
      have hlt := hi.1
      congr 1
      split <;> omega

end Corewise.Shape
