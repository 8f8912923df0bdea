import Corewise.Proofs.CoreSignature.Parser
import Mathlib.Tactic.SplitIfs
/-!
What the reader of core signatures accepts. A reading holds what the grammar makes of the characters so far,
and over each part of a signature the reader comes to the reading that the grammar says; so it takes exactly
the texts of the grammar, and tells from the others those with several outputs.
-/

namespace Corewise.CoreSignature

open Grammar

namespace Reading

variable {r r' next : Reading} {c : Char} {cs ds word : List Char} {inputs : Option (List Core)}
  {groups : List Core} {names : Core} {n : String}

section Complete

theorem run_name (h : Name cs n) :
    ∃ next, run ⟨.inGroup, inputs, groups, names, []⟩ cs = some next ∧
      EndsName inputs groups names n next := by
  obtain @⟨before, _, after, hbefore, ⟨c, rest, rfl, hstart, hrest⟩, hafter⟩ := h
  have hword : run ⟨.inGroup, inputs, groups, names, []⟩ (before ++ c :: rest) =
      some ⟨.inName, inputs, groups, names, c :: rest⟩ := by
    rw [List.append_cons]
    exact run_append (run_nameStart hbefore hstart) (run_word hrest)
  cases after with
  | nil =>
    have hends : EndsName inputs groups names (String.ofList (c :: rest)) _ := .inName
    rw [String.toList_ofList] at hends
    exact ⟨_, run_append hword rfl, hends⟩
  | cons b bs =>
    have hb : isBlank b = true := hafter b List.mem_cons_self
    have hbs : Blanks bs := fun d hd => hafter d (List.mem_cons_of_mem b hd)
    refine ⟨_, run_append hword ?_, .afterName⟩
    exact run_cons (step_inName_blank hb) (run_blanks trivial hbs)

/-- Names are read up to a comma or the end of their group. -/
theorem run_names {ns : Core} (h : Names cs ns) :
    run ⟨.inGroup, inputs, groups, names, []⟩ (cs ++ [',']) =
        some ⟨.inGroup, inputs, groups, names ++ ns, []⟩ ∧
      run ⟨.inGroup, inputs, groups, names, []⟩ (cs ++ [')']) =
        some ⟨.afterGroup, inputs, groups ++ [names ++ ns], [], []⟩ := by
  induction h generalizing names with
  | one hname =>
    obtain ⟨next, hrun, hends⟩ := run_name hname
    constructor
    · exact run_append hrun (run_cons hends.step_comma rfl)
    · exact run_append hrun (run_cons hends.step_close rfl)
  | @cons cs rest n ns hname _ ih =>
    obtain ⟨next, hrun, hends⟩ := @run_name _ inputs groups names _ hname
    obtain ⟨hcomma, hclose⟩ := @ih (names ++ [n])
    rw [List.append_cons names n ns, List.append_assoc cs, List.append_assoc cs]
    constructor
    · exact run_append hrun (run_cons hends.step_comma hcomma)
    · exact run_append hrun (run_cons hends.step_comma hclose)

theorem run_group {core : Core} (h : Group cs core) :
    run ⟨.beforeGroup, inputs, groups, [], []⟩ cs =
      some ⟨.afterGroup, inputs, groups ++ [core], [], []⟩ := by
  cases h with
  | empty => rfl
  | names hnames => exact run_cons rfl (run_names hnames).2
  | trailing hnames =>
    rw [List.append_cons]
    exact run_cons rfl (run_append (run_names hnames).1 (run_cons rfl rfl))

theorem run_paddedGroup {core : Core} (h : PaddedGroup cs core) :
    run ⟨.beforeGroup, inputs, groups, [], []⟩ cs =
      some ⟨.afterGroup, inputs, groups ++ [core], [], []⟩ := by
  obtain ⟨hbefore, hgroup, hafter⟩ := h
  have hread := run_append
    (run_blanks (r := ⟨.beforeGroup, inputs, groups, [], []⟩) trivial hbefore) (run_group hgroup)
  exact run_append hread
    (run_blanks (r := ⟨.afterGroup, inputs, groups ++ [core], [], []⟩) trivial hafter)

theorem run_groups {cores : List Core} (h : Groups cs cores) :
    run ⟨.beforeGroup, inputs, groups, [], []⟩ cs =
      some ⟨.afterGroup, inputs, groups ++ cores, [], []⟩ := by
  induction h generalizing groups with
  | one hgroup => exact run_paddedGroup hgroup
  | @cons cs rest core cores hgroup _ ih =>
    rw [List.append_cons groups core cores]
    exact run_append (run_paddedGroup hgroup) (run_cons rfl ih)

/-- The reader comes to the end of a text of the grammar. -/
theorem run_arrow {left right : List Core} (h : Arrow cs left right) :
    start.run cs = some ⟨.afterGroup, some left, right, [], []⟩ := by
  obtain ⟨hleft, hright⟩ := h
  have hread := @run_groups _ none [] _ hleft
  exact run_append hread (run_cons rfl (run_cons rfl (run_groups hright)))

end Complete

end Reading

namespace Grammar

variable {cs ds : List Char} {n : String} {ns : Core} {core : Core} {cores : List Core}

theorem blanks_nil : Blanks [] := fun _ hc => absurd hc List.not_mem_nil

theorem Blanks.snoc {c : Char} (h : Blanks cs) (hc : isBlank c = true) : Blanks (cs ++ [c]) := by
  intro d hd
  rcases List.mem_append.1 hd with hd | hd
  · exact h d hd
  · exact List.mem_singleton.1 hd ▸ hc

theorem Name.snoc {c : Char} (h : Name cs n) (hc : isBlank c = true) : Name (cs ++ [c]) n := by
  obtain ⟨hbefore, hword, hafter⟩ := h
  rw [List.append_assoc]
  exact .intro hbefore hword (hafter.snoc hc)

theorem Names.blank {c : Char} (h : Names cs ns) (hc : isBlank c = true) : Names (cs ++ [c]) ns := by
  induction h with
  | one hname => exact .one (hname.snoc hc)
  | cons hname _ ih =>
    rw [List.append_assoc, List.cons_append]
    exact .cons hname ih

theorem Names.snoc (h : Names cs ns) (hn : Name ds n) : Names (cs ++ ',' :: ds) (ns ++ [n]) := by
  induction h with
  | one hname => exact .cons hname (.one hn)
  | cons hname _ ih =>
    rw [List.append_assoc, List.cons_append]
    exact .cons hname ih

theorem PaddedGroup.blank {c : Char} (h : PaddedGroup cs core) (hc : isBlank c = true) :
    PaddedGroup (cs ++ [c]) core := by
  obtain ⟨hbefore, hgroup, hafter⟩ := h
  rw [List.append_assoc]
  exact .intro hbefore hgroup (hafter.snoc hc)

theorem Groups.blank {c : Char} (h : Groups cs cores) (hc : isBlank c = true) :
    Groups (cs ++ [c]) cores := by
  induction h with
  | one hgroup => exact .one (hgroup.blank hc)
  | cons hgroup _ ih =>
    rw [List.append_assoc, List.cons_append]
    exact .cons hgroup ih

theorem Groups.snoc (h : Groups cs cores) (hgroup : PaddedGroup ds core) :
    Groups (cs ++ ',' :: ds) (cores ++ [core]) := by
  induction h with
  | one hfirst => exact .cons hfirst (.one hgroup)
  | cons hfirst _ ih =>
    rw [List.append_assoc, List.cons_append]
    exact .cons hfirst ih

/-- Groups with a comma behind each, and blanks. -/
inductive GroupsOpen : List Char → List Core → Prop
  | first {cs : List Char} (h : Blanks cs) : GroupsOpen cs []
  | next {cs ds : List Char} {cores : List Core} (h : Groups cs cores) (hblanks : Blanks ds) :
      GroupsOpen (cs ++ ',' :: ds) cores

/-- Names with a comma behind each. -/
inductive NamesOpen : List Char → Core → Prop
  | first : NamesOpen [] []
  | next {cs : List Char} {ns : Core} (h : Names cs ns) : NamesOpen (cs ++ [',']) ns

theorem GroupsOpen.blank {c : Char} (h : GroupsOpen cs cores) (hc : isBlank c = true) :
    GroupsOpen (cs ++ [c]) cores := by
  cases h with
  | first hblanks => exact .first (hblanks.snoc hc)
  | next hgroups hblanks =>
    rw [List.append_assoc, List.cons_append]
    exact .next hgroups (hblanks.snoc hc)

theorem GroupsOpen.close (h : GroupsOpen cs cores) (hgroup : Group ds core) :
    Groups (cs ++ ds) (cores ++ [core]) := by
  have hpadded {before : List Char} (hbefore : Blanks before) :
      PaddedGroup (before ++ ds) core := by
    have hpadded := PaddedGroup.intro hbefore hgroup blanks_nil
    rwa [List.append_nil] at hpadded
  cases h with
  | first hblanks => exact .one (hpadded hblanks)
  | next hgroups hblanks =>
    rw [List.append_assoc, List.cons_append]
    exact hgroups.snoc (hpadded hblanks)

theorem NamesOpen.close (h : NamesOpen cs ns) : Group ('(' :: (cs ++ [')'])) ns := by
  cases h with
  | first => exact .empty
  | next hnames =>
    rw [List.append_assoc]
    exact .trailing hnames

theorem NamesOpen.snoc (h : NamesOpen cs ns) (hn : Name ds n) : Names (cs ++ ds) (ns ++ [n]) := by
  cases h with
  | first => exact .one hn
  | next hnames =>
    rw [List.append_assoc]
    exact hnames.snoc hn

end Grammar

namespace Reading

variable {r r' : Reading} {c : Char} {cs : List Char}

/-- What has been read on one side of the arrow. -/
inductive Side : List Char → Reading → Prop
  | beforeGroup {cs : List Char} {inputs : Option (List Core)} {groups : List Core}
      (hgroups : GroupsOpen cs groups) : Side cs ⟨.beforeGroup, inputs, groups, [], []⟩
  | inGroup {cs ds : List Char} {inputs : Option (List Core)} {groups : List Core} {names : Core}
      (hgroups : GroupsOpen cs groups) (hnames : NamesOpen ds names) :
      Side (cs ++ '(' :: ds) ⟨.inGroup, inputs, groups, names, []⟩
  | beforeName {cs ds es : List Char} {inputs : Option (List Core)} {groups : List Core}
      {names : Core} (hgroups : GroupsOpen cs groups) (hnames : NamesOpen ds names)
      (hblanks : Blanks es) :
      Side (cs ++ '(' :: (ds ++ es)) ⟨.beforeName, inputs, groups, names, []⟩
  | inName {cs ds es word : List Char} {inputs : Option (List Core)} {groups : List Core}
      {names : Core} (hgroups : GroupsOpen cs groups) (hnames : NamesOpen ds names)
      (hblanks : Blanks es) (hword : Identifier word) :
      Side (cs ++ '(' :: (ds ++ (es ++ word))) ⟨.inName, inputs, groups, names, word⟩
  | afterName {cs ds : List Char} {inputs : Option (List Core)} {groups : List Core} {names : Core}
      (hgroups : GroupsOpen cs groups) (hnames : Names ds names) :
      Side (cs ++ '(' :: ds) ⟨.afterName, inputs, groups, names, []⟩
  | afterGroup {cs : List Char} {inputs : Option (List Core)} {groups : List Core}
      (hgroups : Groups cs groups) : Side cs ⟨.afterGroup, inputs, groups, [], []⟩

/-- What has been read of the whole text. -/
inductive Holds : List Char → Reading → Prop
  | left {cs : List Char} {r : Reading} (hinputs : r.inputs = none) (hside : Side cs r) : Holds cs r
  | arrow {cs : List Char} {groups : List Core} (hgroups : Groups cs groups) :
      Holds (cs ++ ['-']) ⟨.inArrow, none, groups, [], []⟩
  | right {left cs : List Char} {inputs : List Core} {r : Reading} (hleft : Groups left inputs)
      (hinputs : r.inputs = some inputs) (hside : Side cs r) : Holds (left ++ '-' :: '>' :: cs) r

theorem Side.step (h : Side cs r) (hstep : r.step c = some r') :
    (Side (cs ++ [c]) r' ∧ r'.inputs = r.inputs) ∨
      (c = '-' ∧ r.inputs = none ∧ Groups cs r.groups ∧ r' = ⟨.inArrow, none, r.groups, [], []⟩) := by
  unfold Reading.step at hstep
  cases h with
  | beforeGroup hgroups =>
    dsimp only at hstep
    split_ifs at hstep with hblank hopen
    · cases hstep
      exact .inl ⟨.beforeGroup (hgroups.blank hblank), rfl⟩
    · cases hstep
      subst hopen
      exact .inl ⟨.inGroup hgroups .first, rfl⟩
  | @inGroup cs ds _ _ names hgroups hnames =>
    dsimp only at hstep
    rw [List.append_assoc, List.cons_append]
    split_ifs at hstep with hclose hblank hstart
    · cases hstep
      subst hclose
      exact .inl ⟨.afterGroup (hgroups.close hnames.close), rfl⟩
    · cases hstep
      exact .inl ⟨.beforeName hgroups hnames (blanks_nil.snoc hblank), rfl⟩
    · cases hstep
      exact .inl ⟨.inName hgroups hnames blanks_nil ⟨c, [], rfl, hstart, nofun⟩, rfl⟩
  | @beforeName cs ds es _ _ names hgroups hnames hblanks =>
    dsimp only at hstep
    rw [List.append_assoc, List.cons_append, List.append_assoc]
    split_ifs at hstep with hblank hstart
    · cases hstep
      exact .inl ⟨.beforeName hgroups hnames (hblanks.snoc hblank), rfl⟩
    · cases hstep
      exact .inl ⟨.inName hgroups hnames hblanks ⟨c, [], rfl, hstart, nofun⟩, rfl⟩
  | @inName cs ds es word _ _ names hgroups hnames hblanks hword =>
    dsimp only at hstep
    -- The open name is a whole one, however the text goes on.
    have hended : Names (ds ++ (es ++ word)) (names ++ [String.ofList word]) := by
      have hname := Name.intro hblanks hword blanks_nil
      rw [List.append_nil] at hname
      exact hnames.snoc hname
    rw [List.append_assoc, List.cons_append]
    split_ifs at hstep with hrest hblank hcomma hclose
    · cases hstep
      obtain ⟨d, rest, rfl, hstart, hall⟩ := hword
      have hlonger : Identifier (d :: rest ++ [c]) := by
        refine ⟨d, rest ++ [c], rfl, hstart, fun e he => ?_⟩
        rcases List.mem_append.1 he with he | he
        · exact hall e he
        · exact List.mem_singleton.1 he ▸ hrest
      rw [List.append_assoc, List.append_assoc]
      exact .inl ⟨.inName hgroups hnames hblanks hlonger, rfl⟩
    · cases hstep
      exact .inl ⟨.afterName hgroups (hended.blank hblank), rfl⟩
    · cases hstep
      subst hcomma
      exact .inl ⟨.inGroup hgroups (.next hended), rfl⟩
    · cases hstep
      subst hclose
      exact .inl ⟨.afterGroup (hgroups.close (.names hended)), rfl⟩
  | @afterName cs ds _ _ names hgroups hnames =>
    dsimp only at hstep
    rw [List.append_assoc, List.cons_append]
    split_ifs at hstep with hblank hcomma hclose
    · cases hstep
      exact .inl ⟨.afterName hgroups (hnames.blank hblank), rfl⟩
    · cases hstep
      subst hcomma
      exact .inl ⟨.inGroup hgroups (.next hnames), rfl⟩
    · cases hstep
      subst hclose
      exact .inl ⟨.afterGroup (hgroups.close (.names hnames)), rfl⟩
  | afterGroup hgroups =>
    dsimp only at hstep
    split_ifs at hstep with hblank hcomma harrow
    · cases hstep
      exact .inl ⟨.afterGroup (hgroups.blank hblank), rfl⟩
    · cases hstep
      subst hcomma
      exact .inl ⟨.beforeGroup (.next hgroups blanks_nil), rfl⟩
    · cases hstep
      obtain ⟨rfl, rfl⟩ := harrow
      exact .inr ⟨rfl, rfl, hgroups, rfl⟩

/-- One more character is one more of what has been read. -/
theorem Holds.step (h : Holds cs r) (hstep : r.step c = some r') : Holds (cs ++ [c]) r' := by
  cases h with
  | left hinputs hside =>
    rcases hside.step hstep with ⟨hside', hinputs'⟩ | ⟨rfl, -, hgroups, rfl⟩
    · exact .left (hinputs'.trans hinputs) hside'
    · exact .arrow hgroups
  | @arrow cs groups hgroups =>
    have hstep : (if c = '>' then some (⟨.beforeGroup, some groups, [], [], []⟩ : Reading) else none) =
        some r' := hstep
    split_ifs at hstep with hend
    cases hstep
    subst hend
    rw [List.append_assoc]
    exact .right hgroups rfl (.beforeGroup (.first blanks_nil))
  | @right left cs inputs r hleft hinputs hside =>
    rcases hside.step hstep with ⟨hside', hinputs'⟩ | ⟨rfl, hnone, -, -⟩
    · rw [List.append_assoc, List.cons_append, List.cons_append]
      exact .right hleft (hinputs'.trans hinputs) hside'
    · rw [hinputs] at hnone
      cases hnone

theorem Holds.run {ds : List Char} (h : Holds cs r) (hrun : r.run ds = some r') :
    Holds (cs ++ ds) r' := by
  induction ds generalizing cs r with
  | nil =>
    cases hrun
    rwa [List.append_nil]
  | cons d ds ih =>
    obtain ⟨next, hstep, hrest⟩ := run_cons_eq_some.1 hrun
    rw [List.append_cons]
    exact ih (h.step hstep) hrest

/-- Behind the arrow there is one side only. -/
theorem Side.run {ds : List Char} {inputs : List Core} (h : Side cs r) (hinputs : r.inputs = some inputs)
    (hrun : r.run ds = some r') : Side (cs ++ ds) r' := by
  induction ds generalizing cs r with
  | nil =>
    cases hrun
    rwa [List.append_nil]
  | cons d ds ih =>
    obtain ⟨next, hstep, hrest⟩ := run_cons_eq_some.1 hrun
    rcases h.step hstep with ⟨hside, hsame⟩ | ⟨-, hnone, -⟩
    · rw [List.append_cons]
      exact ih hside (hsame.trans hinputs) hrest
    · cases hinputs.symm.trans hnone

theorem Side.groups (h : Side cs r) (hplace : r.place = .afterGroup) : Groups cs r.groups := by
  cases h with
  | afterGroup hgroups => exact hgroups
  | _ => cases hplace

theorem holds_start : Holds [] start := .left rfl (.beforeGroup (.first blanks_nil))

/-- The two sides of an arrow, read one after the other. -/
theorem arrow_of_run {left right : List Char} {inputs outputs : List Core}
    (hleft : start.run left = some ⟨.afterGroup, none, inputs, [], []⟩)
    (hright : run ⟨.beforeGroup, some inputs, [], [], []⟩ right =
      some ⟨.afterGroup, some inputs, outputs, [], []⟩) : Groups left inputs ∧ Groups right outputs := by
  constructor
  case left =>
    cases holds_start.run hleft with
    | left _ hside => exact hside.groups rfl
    | right _ hinputs => cases hinputs
  case right =>
    have hside : Side [] ⟨.beforeGroup, some inputs, [], [], []⟩ := .beforeGroup (.first blanks_nil)
    exact (hside.run rfl hright).groups rfl

theorem Holds.finished {left right : List Core} (h : Holds cs r)
    (hfinished : r.finished? = some (left, right)) : Arrow cs left right := by
  unfold finished? at hfinished
  split_ifs at hfinished with hplace
  cases h with
  | left hinputs =>
    rw [hinputs] at hfinished
    cases hfinished
  | arrow => cases hplace
  | right hleft hinputs hside =>
    rw [hinputs] at hfinished
    cases hside with
    | afterGroup hgroups =>
      cases hfinished
      exact .intro hleft hgroups
    | _ => cases hplace

end Reading

theorem Grammar.Groups.ne_nil {cs : List Char} {cores : List Core} (h : Groups cs cores) :
    cores ≠ [] := by
  cases h with
  | one => exact List.cons_ne_nil _ _
  | cons => exact List.cons_ne_nil _ _

theorem Grammar.Arrow.outputs_ne_nil {cs : List Char} {inputs outputs : List Core}
    (h : Arrow cs inputs outputs) : outputs ≠ [] := by
  cases h with
  | intro _ hright => exact hright.ne_nil

/-- A text is of the grammar in one way at most. -/
theorem Grammar.Arrow.unique {cs : List Char} {inputs outputs inputs' outputs' : List Core}
    (h : Arrow cs inputs outputs) (h' : Arrow cs inputs' outputs') :
    inputs = inputs' ∧ outputs = outputs' := by
  have hread := Reading.run_arrow h
  rw [Reading.run_arrow h'] at hread
  cases hread
  exact ⟨rfl, rfl⟩

/-- How reading a text can end. -/
inductive Parsing (text : String) : Except ParseError CoreSignature → Prop
  | read {inputs : List Core} {output : Core} (h : Arrow text.toList inputs [output]) :
      Parsing text (.ok ⟨inputs, output⟩)
  | several {inputs outputs : List Core} (h : Arrow text.toList inputs outputs)
      (hcount : 2 ≤ outputs.length) (start stop : Nat) :
      Parsing text (.error ⟨text, start, stop, .outputGroups outputs.length⟩)
  | unexpected (h : ∀ inputs outputs, ¬ Arrow text.toList inputs outputs) (start stop : Nat)
      (c : Char) : Parsing text (.error ⟨text, start, stop, .unexpected c⟩)
  | ended (h : ∀ inputs outputs, ¬ Arrow text.toList inputs outputs) (start stop : Nat) :
      Parsing text (.error ⟨text, start, stop, .unexpectedEnd⟩)

theorem parsing (text : String) : Parsing text (parse text) := by
  -- A text of the grammar is read to its end, and nothing else can have come of it.
  have harrow (r : Reading) (hr : Reading.start.run text.toList = some r) (hfinished : r.finished? = none)
      (inputs outputs : List Core) : ¬ Arrow text.toList inputs outputs := by
    intro h
    cases hr.symm.trans (Reading.run_arrow h)
    cases hfinished
  have hparsed := parsed text
  generalize parse text = result at hparsed
  cases hparsed with
  | read whole => exact .read ((Reading.holds_start.run whole).finished rfl)
  | @several left right inputs outputs split count front back =>
    obtain ⟨hleft, hright⟩ := Reading.arrow_of_run front back
    have h : Arrow text.toList inputs outputs := split ▸ .intro hleft hright
    refine .several h ?_ _ _
    match outputs with
    | [] => exact absurd rfl h.outputs_ne_nil
    | [output] => exact absurd rfl count
    | _ :: _ :: _ => exact Nat.le_add_left 2 _
  | @unexpected before after c r split front refused =>
    refine .unexpected (fun inputs outputs h => ?_) _ _ c
    have hread := Reading.run_arrow h
    rw [split] at hread
    obtain ⟨next, hnext, hrest⟩ := Reading.run_append_eq_some.1 hread
    cases front.symm.trans hnext
    obtain ⟨last, hlast, -⟩ := Reading.run_cons_eq_some.1 hrest
    cases refused.symm.trans hlast
  | ended whole unfinished => exact .ended (harrow _ whole unfinished) _ _

theorem parse_eq_ok {text : String} {s : CoreSignature} :
    parse text = .ok s ↔ Arrow text.toList s.inputs [s.output] := by
  have hparsing := parsing text
  generalize parse text = result at hparsing
  cases hparsing with
  | read h =>
    constructor
    · intro hs
      cases hs
      exact h
    · intro hs
      obtain ⟨hinputs, houtput⟩ := h.unique hs
      cases hinputs
      cases houtput
      rfl
  | several h hcount =>
    refine ⟨nofun, fun hs => ?_⟩
    obtain ⟨-, rfl⟩ := h.unique hs
    exact absurd hcount (Nat.not_le.2 Nat.one_lt_two)
  | unexpected h => exact ⟨nofun, fun hs => absurd hs (h _ _)⟩
  | ended h => exact ⟨nofun, fun hs => absurd hs (h _ _)⟩

theorem parse_eq_several {text : String} {k : Nat} :
    (∃ e, parse text = .error e ∧ e.cause = .outputGroups k) ↔
      2 ≤ k ∧ ∃ inputs outputs, Arrow text.toList inputs outputs ∧ outputs.length = k := by
  have hparsing := parsing text
  generalize parse text = result at hparsing
  cases hparsing with
  | @read _ output h =>
    refine ⟨nofun, ?_⟩
    rintro ⟨hk, inputs, outputs, h', rfl⟩
    obtain ⟨-, rfl⟩ := h.unique h'
    exact absurd hk (Nat.not_le.2 Nat.one_lt_two)
  | @several inputs outputs h hcount =>
    constructor
    · rintro ⟨e, he, hcause⟩
      cases he
      cases hcause
      exact ⟨hcount, inputs, outputs, h, rfl⟩
    · rintro ⟨-, inputs', outputs', h', rfl⟩
      obtain ⟨-, rfl⟩ := h.unique h'
      exact ⟨_, rfl, rfl⟩
  | unexpected h =>
    constructor
    · rintro ⟨e, he, hcause⟩
      cases he
      cases hcause
    · rintro ⟨-, inputs, outputs, h', -⟩
      exact absurd h' (h inputs outputs)
  | ended h =>
    constructor
    · rintro ⟨e, he, hcause⟩
      cases he
      cases hcause
    · rintro ⟨-, inputs, outputs, h', -⟩
      exact absurd h' (h inputs outputs)

theorem parse_eq_unexpected {text : String} :
    (∃ e, parse text = .error e ∧ (e.cause = .unexpectedEnd ∨ ∃ c, e.cause = .unexpected c)) ↔
      ∀ inputs outputs, ¬ Arrow text.toList inputs outputs := by
  have hparsing := parsing text
  generalize parse text = result at hparsing
  cases hparsing with
  | read h => exact ⟨nofun, fun hnone => absurd h (hnone _ _)⟩
  | several h =>
    refine ⟨?_, fun hnone => absurd h (hnone _ _)⟩
    rintro ⟨e, he, hcause | ⟨c, hcause⟩⟩
    · cases he
      cases hcause
    · cases he
      cases hcause
  | unexpected h _ _ c => exact ⟨fun _ => h, fun _ => ⟨_, rfl, .inr ⟨c, rfl⟩⟩⟩
  | ended h => exact ⟨fun _ => h, fun _ => ⟨_, rfl, .inl rfl⟩⟩

/-- A text denotes a signature exactly if the grammar makes it one. Where the grammar finds several outputs
their number is the error, and any other text has a character that does not fit or stops too early. -/
theorem parse_follows_grammar (text : String) :
    (∀ s, parse text = .ok s ↔ Arrow text.toList s.inputs [s.output]) ∧
    (∀ k, (∃ e, parse text = .error e ∧ e.cause = .outputGroups k ∧
        e.detail = "expected exactly one output group, found " ++ toString k) ↔
      2 ≤ k ∧ ∃ inputs outputs, Arrow text.toList inputs outputs ∧ outputs.length = k) ∧
    ((∃ e, parse text = .error e ∧
        (e.cause = .unexpectedEnd ∧ e.detail = "unexpected end of signature" ∨
          ∃ c, e.cause = .unexpected c ∧ e.detail = "unexpected character '" ++ c.toString ++ "'")) ↔
      ∀ inputs outputs, ¬ Arrow text.toList inputs outputs) := by
  refine ⟨fun s => parse_eq_ok, fun k => ?_, ?_⟩
  · rw [← parse_eq_several]
    constructor
    · rintro ⟨e, he, hcause, -⟩
      exact ⟨e, he, hcause⟩
    · rintro ⟨e, he, hcause⟩
      exact ⟨e, he, hcause, congrArg ParseError.Cause.message hcause⟩
  · rw [← parse_eq_unexpected]
    constructor
    · rintro ⟨e, he, ⟨hcause, -⟩ | ⟨c, hcause, -⟩⟩
      · exact ⟨e, he, .inl hcause⟩
      · exact ⟨e, he, .inr ⟨c, hcause⟩⟩
    · rintro ⟨e, he, hcause | ⟨c, hcause⟩⟩
      · exact ⟨e, he, .inl ⟨hcause, congrArg ParseError.Cause.message hcause⟩⟩
      · exact ⟨e, he, .inr ⟨c, hcause, congrArg ParseError.Cause.message hcause⟩⟩

example : parse "( n ,),()->(n)" = .ok ⟨[["n"], []], ["n"]⟩ := by rfl

example : parse "( )->()" = .error ⟨"( )->()", 2, 3, .unexpected ')'⟩ := by rfl

end Corewise.CoreSignature
