import Corewise.Lowering.Module
import Mathlib.Data.List.Nodup
/-!
What a module declares and links. Under each name there is the declaration that was made first, with the
attributes of all that were asked for under it; and no name and no library is listed twice.
-/

namespace Corewise.Lowering

section Listing

variable {α : Type} {l : List α} {a : α} [Decidable (a ∈ l)]

theorem mem_ite_concat {b : α} : b ∈ (if a ∈ l then l else l ++ [a]) ↔ b ∈ l ∨ b = a := by
  split
  case isTrue h => exact ⟨.inl, fun hb => hb.elim id fun heq => heq ▸ h⟩
  case isFalse => rw [List.mem_append, List.mem_singleton]

theorem nodup_ite_concat (h : l.Nodup) : (if a ∈ l then l else l ++ [a]).Nodup := by
  split
  case isTrue => exact h
  case isFalse hmissing =>
    exact h.append (List.nodup_singleton a) (List.disjoint_singleton.2 hmissing)

end Listing

namespace Declaration

theorem name_addAttribute (d : Declaration) (a : Attribute) : (d.addAttribute a).name = d.name := by
  unfold addAttribute
  split <;> rfl

theorem name_foldl_addAttribute (d : Declaration) (attributes : List Attribute) :
    (attributes.foldl addAttribute d).name = d.name := by
  induction attributes generalizing d with
  | nil => rfl
  | cons a attributes ih => rw [List.foldl_cons, ih, name_addAttribute]

end Declaration

namespace Module

variable {m : Module}

theorem find?_eq_none_iff {name : Symbol} : m.find? name = none ↔ name ∉ m.functions.map (·.name) := by
  rw [find?, List.find?_eq_none, List.mem_map]
  simp only [decide_eq_true_eq, not_exists, not_and]

theorem name_of_find? {name : Symbol} {d : Declaration} (h : m.find? name = some d) : d.name = name := by
  rw [find?, List.find?_eq_some_iff_append] at h
  exact of_decide_eq_true h.1

/-- Attributes that are added under a name leave all names as they are. -/
theorem name_ite_addAttribute (name : Symbol) (attributes : List Attribute) (d : Declaration) :
    (if d.name = name then attributes.foldl Declaration.addAttribute d else d).name = d.name := by
  split
  · exact Declaration.name_foldl_addAttribute d attributes
  · rfl

/-- What is asked for under a name is added to what is declared under it. -/
theorem find?_declare (m : Module) (name : Symbol) (type : FunctionType) (attributes : List Attribute)
    (other : Symbol) : (m.declare name type attributes).find? other =
      if other = name then
        some (attributes.foldl Declaration.addAttribute ((m.find? name).getD ⟨name, type, []⟩))
      else m.find? other := by
  unfold declare
  split
  case h_1 hmissing =>
    have hname := Declaration.name_foldl_addAttribute ⟨name, type, []⟩ attributes
    rw [hmissing, find?, List.find?_append, ← find?, Option.getD_none]
    by_cases hother : other = name
    · rw [if_pos hother, hother, hmissing, Option.none_or, List.find?_singleton, hname,
        decide_eq_true rfl]
      rfl
    · rw [if_neg hother, List.find?_singleton, hname, decide_eq_false (Ne.symm hother)]
      exact Option.or_none
  case h_2 d hd =>
    have hsame : (fun d : Declaration => decide (d.name = other)) ∘ (fun d =>
        if d.name = name then attributes.foldl Declaration.addAttribute d else d) =
          fun d => decide (d.name = other) := by
      funext d
      rw [Function.comp_apply, name_ite_addAttribute]
    rw [hd, Option.getD_some, find?, List.find?_map, hsame, ← find?]
    by_cases hother : other = name
    · rw [if_pos hother, hother, hd, Option.map_some, if_pos (name_of_find? hd)]
    · rw [if_neg hother]
      rcases hfound : m.find? other with _ | d'
      · rfl
      · rw [Option.map_some, if_neg (name_of_find? hfound ▸ hother)]

theorem names_declare (m : Module) (name : Symbol) (type : FunctionType) (attributes : List Attribute) :
    (m.declare name type attributes).functions.map (·.name) =
      if name ∈ m.functions.map (·.name) then m.functions.map (·.name)
      else m.functions.map (·.name) ++ [name] := by
  unfold declare
  split
  case h_1 hmissing =>
    rw [if_neg (find?_eq_none_iff.1 hmissing), List.map_append, List.map_singleton,
      Declaration.name_foldl_addAttribute]
  case h_2 d hd =>
    have hmem : name ∈ m.functions.map (·.name) := by
      by_contra hmissing
      cases hd.symm.trans (find?_eq_none_iff.2 hmissing)
    rw [if_pos hmem, List.map_map]
    exact List.map_congr_left fun d _ => name_ite_addAttribute name attributes d

theorem declare_nodup (h : (m.functions.map (·.name)).Nodup) (name : Symbol) (type : FunctionType)
    (attributes : List Attribute) :
    ((m.declare name type attributes).functions.map (·.name)).Nodup := by
  rw [names_declare]
  exact nodup_ite_concat h

@[simp] theorem functions_link (m : Module) (library : String) :
    (m.link library).functions = m.functions := by
  unfold link
  split <;> rfl

@[simp] theorem find?_link (m : Module) (library : String) (name : Symbol) :
    (m.link library).find? name = m.find? name := by
  rw [find?, functions_link, find?]

theorem linked_link (m : Module) (library : String) : (m.link library).linked =
    if library ∈ m.linked then m.linked else m.linked ++ [library] := by
  simp only [link, List.contains_iff_mem]
  split <;> rfl

theorem mem_linked_link {library other : String} :
    other ∈ (m.link library).linked ↔ other ∈ m.linked ∨ other = library := by
  rw [linked_link]
  exact mem_ite_concat

theorem link_nodup (h : m.linked.Nodup) (library : String) : (m.link library).linked.Nodup := by
  rw [linked_link]
  exact nodup_ite_concat h

@[simp] theorem linked_declare (m : Module) (name : Symbol) (type : FunctionType)
    (attributes : List Attribute) : (m.declare name type attributes).linked = m.linked := by
  unfold declare
  split <;> rfl

end Module

end Corewise.Lowering
