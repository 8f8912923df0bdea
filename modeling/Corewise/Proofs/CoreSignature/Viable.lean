import Corewise.Proofs.CoreSignature.Grammar
/-!
Where the reading of a text stops. Every reading can be brought to the end of a signature, so what has been read
before an error is the longest part of the text that the grammar can go on from.
-/

namespace Corewise.CoreSignature

open Grammar

/-- A text of the grammar, with any number of outputs, starts with these characters. -/
def Viable (cs : List Char) : Prop :=
  ∃ rest inputs outputs, Arrow (cs ++ rest) inputs outputs

/-- Characters that lead to the end of a group. -/
def Place.closing : Place → List Char
  | .beforeGroup => ['(', ')']
  | .inGroup => [')']
  | .beforeName => ['n', ')']
  | .inName => [')']
  | .afterName => [')']
  | .afterGroup => []
  | .inArrow => ['>', '(', ')']

namespace Reading

variable {r r' : Reading} {c : Char} {cs : List Char} {n : Nat}

theorem run_closing (r : Reading) :
    ∃ r', r.run r.place.closing = some r' ∧ r'.place = .afterGroup := by
  obtain ⟨place, inputs, groups, names, name⟩ := r
  cases place with
  | beforeGroup => exact ⟨_, rfl, rfl⟩
  | inGroup => exact ⟨_, rfl, rfl⟩
  | beforeName => exact ⟨_, rfl, rfl⟩
  | inName => exact ⟨_, rfl, rfl⟩
  | afterName => exact ⟨_, rfl, rfl⟩
  | afterGroup => exact ⟨_, rfl, rfl⟩
  | inArrow => exact ⟨_, rfl, rfl⟩

theorem run_output (hplace : r.place = .afterGroup) (hinputs : r.inputs = none) :
    ∃ r', r.run ['-', '>', '(', ')'] = some r' ∧ r'.finished? = some (r.groups, [r.names]) := by
  obtain ⟨place, inputs, groups, names, name⟩ := r
  cases hplace
  cases hinputs
  exact ⟨_, rfl, rfl⟩

/-- However far a text has been read, it can go on to its end. -/
theorem exists_finished (r : Reading) :
    ∃ rest final inputs outputs, r.run rest = some final ∧ final.finished? = some (inputs, outputs) := by
  obtain ⟨r', hclosed, hplace⟩ := r.run_closing
  rcases hinputs : r'.inputs with _ | inputs
  case none =>
    obtain ⟨final, houtput, hfinished⟩ := run_output hplace hinputs
    exact ⟨_, final, _, _, run_append hclosed houtput, hfinished⟩
  case some =>
    refine ⟨_, r', inputs, r'.groups, hclosed, ?_⟩
    rw [finished?, if_pos hplace, hinputs, Option.map_some]

theorem viable_of_run (h : start.run cs = some r) : Viable cs := by
  obtain ⟨rest, final, inputs, outputs, hrest, hfinished⟩ := r.exists_finished
  have hholds : Holds (cs ++ rest) final := holds_start.run (run_append h hrest)
  exact ⟨rest, inputs, outputs, hholds.finished hfinished⟩

theorem not_viable_of_step (h : start.run cs = some r) (hstep : r.step c = none) :
    ¬ Viable (cs ++ [c]) := by
  rintro ⟨rest, inputs, outputs, harrow⟩
  have hread := run_arrow harrow
  rw [List.append_assoc] at hread
  obtain ⟨next, hnext, hrest⟩ := run_append_eq_some.1 hread
  cases h.symm.trans hnext
  obtain ⟨after, hafter, -⟩ := run_cons_eq_some.1 hrest
  cases hstep.symm.trans hafter

end Reading

/-- How a text can be refused before its groups are counted: at a character, or at its end. -/
theorem parse_unexpected {text : String} {e : ParseError} (h : parse text = .error e) :
    (∀ c, e.cause = .unexpected c → ∃ before after r, text.toList = before ++ c :: after ∧
      before.length = e.start ∧ Reading.start.run before = some r ∧ r.step c = none) ∧
    (e.cause = .unexpectedEnd →
      e.start = text.toList.length ∧ ∃ r, Reading.start.run text.toList = some r) := by
  have hparsed := parsed text
  rw [h] at hparsed
  cases hparsed with
  | several => exact ⟨nofun, nofun⟩
  | @unexpected before after c r split front refused =>
    refine ⟨fun c hc => ?_, nofun⟩
    cases hc
    exact ⟨before, after, r, split, rfl, front, refused⟩
  | @ended r whole => exact ⟨nofun, fun _ => ⟨rfl, r, whole⟩⟩

/-- An error in a text, other than in the number of its outputs, lies behind the longest part that can go on to
a text of the grammar. It is the end, or the character there rules out all that could follow. -/
theorem parse_error_viable {text : String} {e : ParseError} (h : parse text = .error e) :
    (e.cause = .unexpectedEnd → Viable (text.toList.take e.start) ∧
      e.start = text.toList.length ∧ e.detail = "unexpected end of signature") ∧
    ∀ c, e.cause = .unexpected c → Viable (text.toList.take e.start) ∧
      ¬ Viable (text.toList.take (e.start + 1)) ∧ text.toList[e.start]? = some c ∧
      e.detail = "unexpected character '" ++ c.toString ++ "'" := by
  obtain ⟨hcharacter, hend⟩ := parse_unexpected h
  constructor
  case left =>
    intro hcause
    obtain ⟨hstart, r, hrun⟩ := hend hcause
    rw [hstart, List.take_length]
    exact ⟨Reading.viable_of_run hrun, rfl, congrArg ParseError.Cause.message hcause⟩
  case right =>
    intro c hcause
    obtain ⟨before, after, r, htext, hlength, hrun, hstep⟩ := hcharacter c hcause
    have hshort : text.toList.take e.start = before := by
      rw [htext, ← hlength, List.take_left]
    have hlong : text.toList.take (e.start + 1) = before ++ [c] := by
      rw [htext, ← hlength, List.append_cons]
      exact List.take_left' (by rw [List.length_append, List.length_singleton])
    rw [hshort, hlong]
    refine ⟨Reading.viable_of_run hrun, Reading.not_viable_of_step hrun hstep, ?_, ?_⟩
    · rw [htext, ← hlength, List.getElem?_append_right (Nat.le_refl _), Nat.sub_self]
      rfl
    · exact congrArg ParseError.Cause.message hcause

/-- Blanks behind a comma belong to a name, and behind `-` there is only one way to go on. -/
theorem parse_error_viable_trailing :
    (parse "(n, )->()" = .error ⟨"(n, )->()", 4, 5, .unexpected ')'⟩ ∧
      Viable ['(', 'n', ',', ' '] ∧ ¬ Viable ['(', 'n', ',', ' ', ')']) ∧
    parse "()-" = .error ⟨"()-", 3, 3, .unexpectedEnd⟩ ∧ Viable ['(', ')', '-'] := by
  have hblank : parse "(n, )->()" = .error ⟨"(n, )->()", 4, 5, .unexpected ')'⟩ := by rfl
  have hshort : parse "()-" = .error ⟨"()-", 3, 3, .unexpectedEnd⟩ := by rfl
  obtain ⟨hviable, hnot, -⟩ := (parse_error_viable hblank).2 ')' rfl
  exact ⟨⟨hblank, hviable, hnot⟩, hshort, ((parse_error_viable hshort).1 rfl).1⟩

end Corewise.CoreSignature
