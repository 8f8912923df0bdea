import Corewise.Proofs.CoreSignature.Grammar
/-!
Canonical texts of core signatures. The reader takes back what is written of a signature whose names are
identifiers, and it makes no other signatures, so each one has a canonical text that stands for itself.
-/

namespace Corewise.CoreSignature

open Grammar

variable {s : CoreSignature} {cs : List Char} {core : Core} {cores : List Core}

def NamedBy (core : Core) : Prop := ∀ name ∈ core, Identifier name.toList

/-- There is an input, and all names are identifiers. -/
structure WellNamed (s : CoreSignature) : Prop where
  inputs : s.inputs ≠ []
  names : ∀ core ∈ s.cores, NamedBy core

section Written

theorem toList_renderCore (core : Core) :
    (renderCore core).toList = '(' :: ([','].intercalate (core.map String.toList) ++ [')']) := by
  rw [renderCore, String.toList_append, String.toList_append, String.toList_intercalate]
  rfl

theorem toList_render (s : CoreSignature) : s.render.toList =
    [','].intercalate ((s.inputs.map renderCore).map String.toList) ++
      '-' :: '>' :: (renderCore s.output).toList := by
  rw [render, String.toList_append, String.toList_append, String.toList_intercalate,
    List.append_assoc]
  rfl

theorem name_of_identifier {name : String} (h : Identifier name.toList) : Name name.toList name := by
  have hname := Name.intro blanks_nil h blanks_nil
  rwa [List.append_nil, List.nil_append, String.ofList_toList] at hname

theorem names_of_namedBy {name : String} (h : NamedBy (name :: core)) :
    Names ([','].intercalate ((name :: core).map String.toList)) (name :: core) := by
  induction core generalizing name with
  | nil =>
    rw [List.map_singleton, List.intercalate_singleton]
    exact .one (name_of_identifier (h name List.mem_cons_self))
  | cons next core ih =>
    rw [List.map_cons, List.map_cons, List.intercalate_cons_cons, List.append_assoc]
    apply Names.cons (name_of_identifier (h name List.mem_cons_self))
    exact ih fun other hother => h other (List.mem_cons_of_mem name hother)

theorem group_renderCore (h : NamedBy core) : Group (renderCore core).toList core := by
  rw [toList_renderCore]
  cases core with
  | nil => exact .empty
  | cons name core => exact .names (names_of_namedBy h)

theorem paddedGroup_renderCore (h : NamedBy core) : PaddedGroup (renderCore core).toList core := by
  have hgroup := PaddedGroup.intro blanks_nil (group_renderCore h) blanks_nil
  rwa [List.append_nil, List.nil_append] at hgroup

theorem groups_renderCore (h : ∀ other ∈ core :: cores, NamedBy other) :
    Groups ([','].intercalate (((core :: cores).map renderCore).map String.toList)) (core :: cores) := by
  induction cores generalizing core with
  | nil =>
    rw [List.map_singleton, List.map_singleton, List.intercalate_singleton]
    exact .one (paddedGroup_renderCore (h core List.mem_cons_self))
  | cons next cores ih =>
    rw [List.map_cons, List.map_cons, List.map_cons, List.map_cons, List.intercalate_cons_cons,
      List.append_assoc]
    apply Groups.cons (paddedGroup_renderCore (h core List.mem_cons_self))
    exact ih fun other hother => h other (List.mem_cons_of_mem core hother)

theorem WellNamed.arrow_render (h : s.WellNamed) : Arrow s.render.toList s.inputs [s.output] := by
  obtain ⟨inputs, output⟩ := s
  obtain ⟨hinputs, hnames⟩ := h
  have houtput : NamedBy output := hnames output (List.mem_append_right _ List.mem_cons_self)
  rw [toList_render]
  cases inputs with
  | nil => exact absurd rfl hinputs
  | cons core cores =>
    apply Arrow.intro _ (.one (paddedGroup_renderCore houtput))
    exact groups_renderCore fun other hother => hnames other (List.mem_append_left _ hother)

end Written

section Read

theorem Grammar.Names.namedBy (h : Names cs core) : NamedBy core := by
  have hname {ds : List Char} {name : String} (h : Name ds name) : Identifier name.toList := by
    cases h with
    | intro _ hword _ => rwa [String.toList_ofList]
  induction h with
  | one h =>
    intro name hmem
    exact List.mem_singleton.1 hmem ▸ hname h
  | cons h _ ih =>
    intro name hmem
    rcases List.mem_cons.1 hmem with rfl | hmem
    · exact hname h
    · exact ih name hmem

theorem Grammar.PaddedGroup.namedBy (h : PaddedGroup cs core) : NamedBy core := by
  cases h with
  | intro _ hgroup _ =>
    cases hgroup with
    | empty => exact fun name hmem => absurd hmem List.not_mem_nil
    | names hnames => exact hnames.namedBy
    | trailing hnames => exact hnames.namedBy

theorem Grammar.Groups.namedBy (h : Groups cs cores) : ∀ core ∈ cores, NamedBy core := by
  induction h with
  | one h =>
    intro core hmem
    exact List.mem_singleton.1 hmem ▸ h.namedBy
  | cons h _ ih =>
    intro core hmem
    rcases List.mem_cons.1 hmem with rfl | hmem
    · exact h.namedBy
    · exact ih core hmem

theorem Grammar.Arrow.wellNamed (h : Arrow cs s.inputs [s.output]) : s.WellNamed := by
  obtain ⟨inputs, output⟩ := s
  cases h with
  | intro hleft hright =>
    refine ⟨hleft.ne_nil, fun core hmem => ?_⟩
    rcases List.mem_append.1 hmem with hmem | hmem
    · exact hleft.namedBy core hmem
    · exact hright.namedBy core hmem

end Read

/-- The signatures that can be read are those that can be read back from what is written of them, and their
texts stand for themselves. -/
theorem parse_render (s : CoreSignature) :
    (parse s.render = .ok s ↔ s.WellNamed) ∧
    ∀ text, parse text = .ok s →
      s.WellNamed ∧ parse s.render = .ok s ∧ (parse s.render).map render = .ok s.render := by
  have hread : parse s.render = .ok s ↔ s.WellNamed := by
    rw [parse_eq_ok]
    exact ⟨Arrow.wellNamed, WellNamed.arrow_render⟩
  refine ⟨hread, fun text htext => ?_⟩
  have hnamed : s.WellNamed := (parse_eq_ok.1 htext).wellNamed
  have hback := hread.2 hnamed
  refine ⟨hnamed, hback, ?_⟩
  rw [hback]
  rfl

/-- Blanks and the last comma of a group are not part of the canonical text. -/
theorem parse_render_spaced :
    parse " (), ( n , p ,) -> ( p ) " = .ok ⟨[[], ["n", "p"]], ["p"]⟩ ∧
    parse "(),(n,p)->(p)" = .ok ⟨[[], ["n", "p"]], ["p"]⟩ := by
  have hspaced : parse " (), ( n , p ,) -> ( p ) " = .ok ⟨[[], ["n", "p"]], ["p"]⟩ := by rfl
  exact ⟨hspaced, ((parse_render ⟨[[], ["n", "p"]], ["p"]⟩).2 _ hspaced).2.1⟩

end Corewise.CoreSignature
