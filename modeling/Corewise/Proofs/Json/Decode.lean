import Corewise.Json.Decode
import Corewise.Proofs.Json.Reader
import Mathlib.Data.List.Nodup
/-!
Records as JSON objects. The fields of a record are found in whatever order they stand, among whatever other
fields, and those that may be left out are found to be absent where they are.
-/

namespace Corewise.Json

/-- A field of a record as it is written. One that holds what is taken when it is absent may be left out. -/
structure Slot where
  name : String
  value : Json
  isDefault : Bool

namespace Slot

def required (name : String) (value : Json) : Slot := ⟨name, value, false⟩

/-- The field of a value `x`, where `absent` is taken when there is no such field. -/
def optional {α : Type} [DecidableEq α] (name : String) (absent x : α) (value : Json) : Slot :=
  ⟨name, value, decide (x = absent)⟩

def field (s : Slot) : String × Json := (s.name, s.value)

@[simp] theorem field_fst (s : Slot) : s.field.1 = s.name := rfl

/-- What a field of a record is found to be: its value, or absent where it may be. -/
def Found (s : Slot) (v : Option Json) : Prop := v = some s.value ∨ v = none ∧ s.isDefault = true

section Reading

variable {α : Type} {name : String} {read : Json → Option α} {x : α} {w : Json} {v : Option Json}

theorem Found.required? (h : (required name w).Found v) (hread : read w = some x) :
    Json.required? read v = some x := by
  obtain rfl | ⟨-, hdefault⟩ := h
  · exact hread
  · cases hdefault

theorem Found.optional? [DecidableEq α] {absent : α} (h : (optional name absent x w).Found v)
    (hread : read w = some x) : Json.optional? absent read v = some x := by
  obtain rfl | ⟨rfl, hdefault⟩ := h
  · exact hread
  · exact congrArg some (of_decide_eq_true hdefault).symm

end Reading

end Slot

/-- An object has the fields of a record, in any order: without some that may be left out, and with some that
the record does not have. -/
def Presents (slots : List Slot) (fields : List (String × Json)) : Prop :=
  ∃ (kept : List Slot) (added : List (String × Json)), kept.Sublist slots ∧
    (∀ s ∈ slots, s ∉ kept → s.isDefault = true) ∧ (∀ f ∈ added, f.1 ∉ slots.map Slot.name) ∧
    fields.Perm (kept.map Slot.field ++ added)

theorem presents_fields (slots : List Slot) : Presents slots (slots.map Slot.field) :=
  ⟨slots, [], List.Sublist.refl slots, fun _ hs hnot => absurd hs hnot, nofun, by rw [List.append_nil]⟩

/-- The fields that may not be left out. -/
def trimmed (slots : List Slot) : List (String × Json) :=
  (slots.filter fun s => !s.isDefault).map Slot.field

theorem presents_trimmed {slots : List Slot} {fields added : List (String × Json)}
    (hperm : fields.Perm (trimmed slots ++ added)) (hadded : ∀ f ∈ added, f.1 ∉ slots.map Slot.name) :
    Presents slots fields := by
  refine ⟨_, added, List.filter_sublist, fun s hs hnot => ?_, hadded, hperm⟩
  by_contra hdefault
  exact hnot (List.mem_filter.2 ⟨hs, by simpa using hdefault⟩)

section Lookup

variable {slots : List Slot} {s : Slot} {fields : List (String × Json)}

theorem map_fst_field (slots : List Slot) :
    (slots.map Slot.field).map Prod.fst = slots.map Slot.name := List.map_map

theorem filter_name_of_not_mem {name : String} (h : name ∉ fields.map Prod.fst) :
    fields.filter (fun f => f.1 == name) = [] := by
  rw [List.filter_eq_nil_iff]
  intro f hf hname
  exact h (beq_iff_eq.1 hname ▸ List.mem_map_of_mem hf)

theorem filter_name_of_mem (hnodup : (slots.map Slot.name).Nodup) (hs : s ∈ slots) :
    (slots.map Slot.field).filter (fun f => f.1 == s.name) = [s.field] := by
  induction slots with
  | nil => cases hs
  | cons k slots ih =>
    obtain ⟨hk, hnodup⟩ := List.nodup_cons.1 hnodup
    rw [List.map_cons, List.filter_cons, Slot.field_fst]
    obtain rfl | hs := List.mem_cons.1 hs
    · rw [← map_fst_field] at hk
      rw [if_pos (beq_self_eq_true s.name), filter_name_of_not_mem hk]
    · have hne : k.name ≠ s.name := by
        intro hname
        exact hk (hname ▸ List.mem_map_of_mem hs)
      rw [if_neg (mt beq_iff_eq.1 hne), ih hnodup hs]

/-- A field of the record is found once, or it is one that may be left out. -/
theorem Presents.field? (h : Presents slots fields) (hnodup : (slots.map Slot.name).Nodup)
    (hs : s ∈ slots) : ∃ v, Json.field? fields s.name = some v ∧ s.Found v := by
  obtain ⟨kept, added, hsub, hdropped, hadded, hperm⟩ := h
  have hothers : s.name ∉ added.map Prod.fst := by
    intro hname
    obtain ⟨f, hf, hname⟩ := List.mem_map.1 hname
    exact hadded f hf (hname ▸ List.mem_map_of_mem hs)
  have hfiltered := hperm.filter fun f => f.1 == s.name
  rw [List.filter_append, filter_name_of_not_mem hothers, List.append_nil] at hfiltered
  unfold Json.field?
  by_cases hkept : s ∈ kept
  case pos =>
    rw [filter_name_of_mem (hnodup.sublist (hsub.map Slot.name)) hkept] at hfiltered
    rw [List.perm_singleton.1 hfiltered]
    exact ⟨some s.value, rfl, .inl rfl⟩
  case neg =>
    have hname : s.name ∉ (kept.map Slot.field).map Prod.fst := by
      rw [map_fst_field]
      intro hname
      obtain ⟨t, ht, hname⟩ := List.mem_map.1 hname
      have heq : t = s := List.inj_on_of_nodup_map hnodup (hsub.subset ht) hs hname
      exact hkept (heq ▸ ht)
    rw [filter_name_of_not_mem hname] at hfiltered
    rw [hfiltered.eq_nil]
    exact ⟨none, rfl, .inr ⟨rfl, hdropped s hs hkept⟩⟩

theorem mapM_field? (h : ∀ s ∈ slots, ∃ v, Json.field? fields s.name = some v ∧ s.Found v) :
    ∃ vs, (slots.map Slot.name).mapM (Json.field? fields) = some vs ∧
      List.Forall₂ Slot.Found slots vs := by
  induction slots with
  | nil => exact ⟨[], rfl, .nil⟩
  | cons s slots ih =>
    obtain ⟨v, hv, hfound⟩ := h s List.mem_cons_self
    obtain ⟨vs, hvs, hrest⟩ := ih fun t ht => h t (List.mem_cons_of_mem s ht)
    refine ⟨v :: vs, ?_, .cons hfound hrest⟩
    rw [List.map_cons, List.mapM_cons, hv, hvs]
    rfl

/-- All fields of a record are found in an object that has them. -/
theorem Presents.record? (h : Presents slots fields) (hnodup : (slots.map Slot.name).Nodup) :
    ∃ vs, (Json.object fields).record? (slots.map Slot.name) = some vs ∧
      List.Forall₂ Slot.Found slots vs :=
  mapM_field? fun _ hs => h.field? hnodup hs

end Lookup

theorem string?_string (s : String) : string? (.string s) = some s := rfl

theorem bool?_bool (b : Bool) : bool? (.bool b) = some b := rfl

theorem word?_natural {n : Nat} (h : n < wordLimit) : word? (.natural n) = some n := if_pos h

/-- A list is read back when its items are. -/
theorem list?_map {α : Type} {write : α → Json} {read : Json → Option α} {xs : List α}
    (h : ∀ x ∈ xs, read (write x) = some x) : list? read (.array (xs.map write)) = some xs :=
  mapM_map_eq h

end Corewise.Json
