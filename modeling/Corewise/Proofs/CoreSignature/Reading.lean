import Corewise.CoreSignature.Grammar
/-!
Reading core signatures one character at a time. A reading knows after each character whether what has been read
can still become a signature, so a text is refused at the first character that rules this out, or at its end if it
stops too early. The parser is proved to be this reader; what a text means can then be followed along it.
-/

namespace Corewise.CoreSignature

open Grammar

theorem isNameRest_of_isNameStart {c : Char} (h : isNameStart c = true) : isNameRest c = true := by
  unfold isNameStart at h
  unfold isNameRest Char.isAlphanum
  rw [Bool.or_eq_true] at h ⊢
  exact h.imp_left fun h => by rw [h, Bool.true_or]

theorem isBlank_of_isNameRest {c : Char} (h : isNameRest c = true) : isBlank c = false := by
  have hrange : (48 ≤ c.toNat ∧ c.toNat ≤ 57) ∨ (65 ≤ c.toNat ∧ c.toNat ≤ 90) ∨
      c.toNat = 95 ∨ (97 ≤ c.toNat ∧ c.toNat ≤ 122) := by
    unfold isNameRest Char.isAlphanum Char.isAlpha Char.isUpper Char.isLower Char.isDigit at h
    simp only [Bool.or_eq_true, Bool.and_eq_true, decide_eq_true_eq, beq_iff_eq, ge_iff_le,
      UInt32.le_iff_toNat_le] at h
    have hval : c.toNat = c.val.toNat := rfl
    rcases h with ((⟨h, h'⟩ | ⟨h, h'⟩) | ⟨h, h'⟩) | rfl
    · exact .inr (.inl ⟨h, h'⟩)
    · exact .inr (.inr (.inr ⟨h, h'⟩))
    · exact .inl ⟨h, h'⟩
    · exact .inr (.inr (.inl rfl))
  unfold isBlank
  simp only [Bool.or_eq_false_iff, Bool.and_eq_false_iff, decide_eq_false_iff_not, beq_eq_false_iff_ne]
  omega

/-- Where a reading stands in the text. -/
inductive Place where
  /-- A group has to follow. -/
  | beforeGroup
  /-- Directly after `(` or after a comma within a group: a name may follow, or `)`. -/
  | inGroup
  /-- Blanks have been read where a name has to follow. -/
  | beforeName
  | inName
  | afterName
  | afterGroup
  /-- After the first character of the arrow. -/
  | inArrow
  deriving DecidableEq, Repr

/-- Where blanks change nothing. -/
def Place.SkipsBlanks : Place → Prop
  | .beforeGroup | .beforeName | .afterName | .afterGroup => True
  | .inGroup | .inName | .inArrow => False

/-- What has been read so far. -/
structure Reading where
  place : Place
  /-- Groups in front of the arrow, once it has been read. -/
  inputs : Option (List Core)
  /-- Finished groups on this side of the arrow. -/
  groups : List Core
  /-- Finished names of the open group. -/
  names : Core
  /-- Characters of the open name. -/
  name : List Char
  deriving DecidableEq, Repr

namespace Reading

def start : Reading := ⟨.beforeGroup, none, [], [], []⟩

/-- Ends the open name. -/
def endName (r : Reading) (place : Place) : Reading :=
  { r with place, names := r.names ++ [String.ofList r.name], name := [] }

/-- Ends the open group. -/
def endGroup (r : Reading) : Reading :=
  { r with place := .afterGroup, groups := r.groups ++ [r.names], names := [] }

/-- The reading after one more character, none when no signature goes on like this. -/
def step (r : Reading) (c : Char) : Option Reading :=
  match r.place with
  | .beforeGroup =>
    if isBlank c then some r
    else if c = '(' then some { r with place := .inGroup }
    else none
  | .inGroup =>
    if c = ')' then some r.endGroup
    else if isBlank c then some { r with place := .beforeName }
    else if isNameStart c then some { r with place := .inName, name := [c] }
    else none
  | .beforeName =>
    if isBlank c then some r
    else if isNameStart c then some { r with place := .inName, name := [c] }
    else none
  | .inName =>
    if isNameRest c then some { r with name := r.name ++ [c] }
    else if isBlank c then some (r.endName .afterName)
    else if c = ',' then some (r.endName .inGroup)
    else if c = ')' then some (r.endName .inGroup).endGroup
    else none
  | .afterName =>
    if isBlank c then some r
    else if c = ',' then some { r with place := .inGroup }
    else if c = ')' then some r.endGroup
    else none
  | .afterGroup =>
    if isBlank c then some r
    else if c = ',' then some { r with place := .beforeGroup }
    else if c = '-' ∧ r.inputs = none then some { r with place := .inArrow }
    else none
  | .inArrow =>
    if c = '>' then some { r with place := .beforeGroup, inputs := some r.groups, groups := [] }
    else none

/-- The reading after more characters. -/
def run (r : Reading) : List Char → Option Reading
  | [] => some r
  | c :: cs => (r.step c).bind (·.run cs)

/-- The groups on both sides of the arrow, if a whole text may end here. -/
def finished? (r : Reading) : Option (List Core × List Core) :=
  if r.place = .afterGroup then r.inputs.map fun inputs => (inputs, r.groups) else none

/-- What is left of a text where no signature goes on like this; none for a text that may end where it does. -/
def refusal? (r : Reading) : List Char → Option (List Char)
  | [] => if r.finished?.isSome then none else some []
  | c :: cs =>
    match r.step c with
    | none => some (c :: cs)
    | some next => next.refusal? cs

variable {r r' next : Reading} {c : Char} {cs ds stop : List Char}

theorem run_cons_eq_some :
    r.run (c :: cs) = some r' ↔ ∃ next, r.step c = some next ∧ next.run cs = some r' :=
  Option.bind_eq_some_iff

theorem run_append_eq_some :
    r.run (cs ++ ds) = some r' ↔ ∃ next, r.run cs = some next ∧ next.run ds = some r' := by
  induction cs generalizing r with
  | nil => exact ⟨fun h => ⟨r, rfl, h⟩, fun ⟨_, rfl, h⟩ => h⟩
  | cons c cs ih =>
    simp only [List.cons_append, run_cons_eq_some, ih]
    constructor
    · rintro ⟨next, hstep, last, hrun, hrest⟩
      exact ⟨last, ⟨next, hstep, hrun⟩, hrest⟩
    · rintro ⟨last, ⟨next, hstep, hrun⟩, hrest⟩
      exact ⟨next, hstep, last, hrun, hrest⟩

theorem run_cons (hstep : r.step c = some next) (h : next.run cs = some r') :
    r.run (c :: cs) = some r' := run_cons_eq_some.2 ⟨next, hstep, h⟩

theorem run_append (h : r.run cs = some next) (h' : next.run ds = some r') :
    r.run (cs ++ ds) = some r' := run_append_eq_some.2 ⟨next, h, h'⟩

theorem refusal?_of_step (h : r.step c = none) : r.refusal? (c :: cs) = some (c :: cs) := by
  rw [refusal?, h]

theorem refusal?_nil_of_place (h : r.place ≠ .afterGroup) : r.refusal? [] = some [] := by
  rw [refusal?, finished?, if_neg h]
  rfl

/-- Where a text is refused does not depend on what has been read of it already. -/
theorem refusal?_append (h : r.run cs = some r') (ds : List Char) :
    r.refusal? (cs ++ ds) = r'.refusal? ds := by
  induction cs generalizing r with
  | nil =>
    cases h
    rfl
  | cons c cs ih =>
    obtain ⟨next, hstep, hrest⟩ := run_cons_eq_some.1 h
    rw [List.cons_append, refusal?, hstep]
    exact ih hrest

theorem length_refusal?_le (h : r.refusal? cs = some stop) : stop.length ≤ cs.length := by
  induction cs generalizing r with
  | nil =>
    rw [refusal?] at h
    split at h
    · cases h
    · cases h
      exact Nat.le_refl 0
  | cons c cs ih =>
    rw [refusal?] at h
    split at h
    · cases h
      exact Nat.le_refl _
    · exact Nat.le_succ_of_le (ih h)

/-- A text that is refused has been read up to there, and no further. -/
theorem of_refusal? (h : r.refusal? cs = some stop) : ∃ before r', cs = before ++ stop ∧
    r.run before = some r' ∧ (stop = [] → r'.finished? = none) ∧
    ∀ c rest, stop = c :: rest → r'.step c = none := by
  induction cs generalizing r with
  | nil =>
    rw [refusal?] at h
    split at h
    case isTrue => cases h
    case isFalse hfinished =>
      cases h
      exact ⟨[], r, rfl, rfl, fun _ => Option.not_isSome_iff_eq_none.1 hfinished, nofun⟩
  | cons c cs ih =>
    rw [refusal?] at h
    split at h
    case h_1 hstep =>
      cases h
      refine ⟨[], r, rfl, rfl, nofun, fun d rest hd => ?_⟩
      cases hd
      exact hstep
    case h_2 next hstep =>
      obtain ⟨before, r', rfl, hrun, hend⟩ := ih h
      exact ⟨c :: before, r', rfl, run_cons hstep hrun, hend⟩

section Parts

variable {word : List Char} {inputs : Option (List Core)} {groups : List Core} {names : Core} {n : String}

theorem step_blank (hplace : r.place.SkipsBlanks) (h : isBlank c = true) : r.step c = some r := by
  unfold step
  cases hat : r.place with
  | beforeGroup => exact if_pos h
  | beforeName => exact if_pos h
  | afterName => exact if_pos h
  | afterGroup => exact if_pos h
  | _ => exact absurd hplace (hat ▸ id)

theorem run_blanks (hplace : r.place.SkipsBlanks) (h : Blanks cs) : r.run cs = some r := by
  induction cs with
  | nil => rfl
  | cons c cs ih =>
    apply run_cons (step_blank hplace (h c List.mem_cons_self))
    exact ih fun d hd => h d (List.mem_cons_of_mem c hd)

theorem run_word (h : ∀ d ∈ cs, isNameRest d = true) :
    run ⟨.inName, inputs, groups, names, word⟩ cs =
      some ⟨.inName, inputs, groups, names, word ++ cs⟩ := by
  induction cs generalizing word with
  | nil => rw [List.append_nil]; rfl
  | cons c cs ih =>
    rw [List.append_cons]
    have hstep : step ⟨.inName, inputs, groups, names, word⟩ c =
        some ⟨.inName, inputs, groups, names, word ++ [c]⟩ := if_pos (h c List.mem_cons_self)
    apply run_cons hstep
    exact ih fun d hd => h d (List.mem_cons_of_mem c hd)

/-- A name has been read, and perhaps blanks after it. -/
inductive EndsName (inputs : Option (List Core)) (groups : List Core) (names : Core) (n : String) :
    Reading → Prop
  | inName : EndsName inputs groups names n ⟨.inName, inputs, groups, names, n.toList⟩
  | afterName : EndsName inputs groups names n ⟨.afterName, inputs, groups, names ++ [n], []⟩

theorem EndsName.step_comma (h : EndsName inputs groups names n r) :
    r.step ',' = some ⟨.inGroup, inputs, groups, names ++ [n], []⟩ := by
  cases h with
  | inName =>
    show some _ = some _
    rw [endName, String.ofList_toList]
  | afterName => rfl

theorem EndsName.step_close (h : EndsName inputs groups names n r) :
    r.step ')' = some ⟨.afterGroup, inputs, groups ++ [names ++ [n]], [], []⟩ := by
  cases h with
  | inName =>
    show some _ = some _
    rw [endName, endGroup, String.ofList_toList]
  | afterName => rfl

theorem step_inGroup_blank (h : isBlank c = true) :
    step ⟨.inGroup, inputs, groups, names, word⟩ c =
      some ⟨.beforeName, inputs, groups, names, word⟩ := by
  have hclose : c ≠ ')' := by
    rintro rfl
    exact absurd h (by decide)
  simp [step, hclose, h]

theorem step_beforeName_start (h : isNameStart c = true) :
    step ⟨.beforeName, inputs, groups, names, word⟩ c =
      some ⟨.inName, inputs, groups, names, [c]⟩ := by
  have hblank : isBlank c = false := isBlank_of_isNameRest (isNameRest_of_isNameStart h)
  simp [step, hblank, h]

theorem step_inGroup_start (h : isNameStart c = true) :
    step ⟨.inGroup, inputs, groups, names, word⟩ c =
      some ⟨.inName, inputs, groups, names, [c]⟩ := by
  have hclose : c ≠ ')' := by
    rintro rfl
    exact absurd h (by decide)
  have hblank : isBlank c = false := isBlank_of_isNameRest (isNameRest_of_isNameStart h)
  simp [step, hclose, hblank, h]

theorem step_inName_blank (h : isBlank c = true) :
    step ⟨.inName, inputs, groups, names, word⟩ c =
      some ⟨.afterName, inputs, groups, names ++ [String.ofList word], []⟩ := by
  have hrest : ¬ isNameRest c = true := by
    intro hrest
    rw [isBlank_of_isNameRest hrest] at h
    cases h
  simp [step, hrest, h, endName]

theorem step_beforeGroup_eq_none (hblank : isBlank c = false) (hopen : c ≠ '(') :
    step ⟨.beforeGroup, inputs, groups, names, word⟩ c = none := by
  simp [step, hblank, hopen]

theorem step_inGroup_eq_none (hblank : isBlank c = false) (hstart : isNameStart c = false) (hclose : c ≠ ')') :
    step ⟨.inGroup, inputs, groups, names, word⟩ c = none := by
  simp [step, hblank, hstart, hclose]

theorem step_beforeName_eq_none (hblank : isBlank c = false) (hstart : isNameStart c = false) :
    step ⟨.beforeName, inputs, groups, names, word⟩ c = none := by
  simp [step, hblank, hstart]

theorem step_inName_eq_none (hrest : isNameRest c = false) (hblank : isBlank c = false) (hcomma : c ≠ ',')
    (hclose : c ≠ ')') : step ⟨.inName, inputs, groups, names, word⟩ c = none := by
  simp [step, hrest, hblank, hcomma, hclose]

theorem step_afterName_eq_none (hblank : isBlank c = false) (hcomma : c ≠ ',') (hclose : c ≠ ')') :
    step ⟨.afterName, inputs, groups, names, word⟩ c = none := by
  simp [step, hblank, hcomma, hclose]

theorem step_afterGroup_eq_none (hblank : isBlank c = false) (hcomma : c ≠ ',')
    (harrow : c = '-' → inputs ≠ none) : step ⟨.afterGroup, inputs, groups, names, word⟩ c = none := by
  have hnone : ¬ (c = '-' ∧ inputs = none) := fun h => harrow h.1 h.2
  simp [step, hblank, hcomma, hnone]

/-- The word of a name is met where the group or its last comma ends, or behind blanks. -/
theorem run_nameStart (hbefore : Blanks cs) (h : isNameStart c = true) :
    run ⟨.inGroup, inputs, groups, names, []⟩ (cs ++ [c]) =
      some ⟨.inName, inputs, groups, names, [c]⟩ := by
  cases cs with
  | nil => exact run_cons (step_inGroup_start h) rfl
  | cons b bs =>
    have hb : isBlank b = true := hbefore b List.mem_cons_self
    have hbs : Blanks bs := fun d hd => hbefore d (List.mem_cons_of_mem b hd)
    apply run_cons (step_inGroup_blank hb)
    apply run_append (run_blanks (r := ⟨.beforeName, inputs, groups, names, []⟩) trivial hbs)
    exact run_cons (step_beforeName_start h) rfl

end Parts

end Reading

end Corewise.CoreSignature
