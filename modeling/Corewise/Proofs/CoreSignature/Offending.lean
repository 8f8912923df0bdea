import Mathlib.Data.String.Basic
import Corewise.Proofs.CoreSignature.Viable
/-!
The slice that an error in a text shows. Places count characters and the slice is cut out of bytes, so the two
agree behind characters of one byte, and otherwise only where the same characters happen to stand.
-/

namespace Corewise.CoreSignature

open Grammar
open String (utf8Len)

/-- Characters of one byte. -/
def OneByte (cs : List Char) : Prop := ∀ c ∈ cs, c.utf8Size = 1

section Bytes

variable {cs ds : List Char}

theorem length_le_utf8Len (cs : List Char) : cs.length ≤ utf8Len cs := by
  induction cs with
  | nil => exact Nat.le_refl 0
  | cons c cs ih =>
    rw [List.length_cons, String.utf8Len_cons]
    exact Nat.add_le_add ih c.utf8Size_pos

theorem oneByte_iff : OneByte cs ↔ utf8Len cs = cs.length := by
  induction cs with
  | nil => exact ⟨fun _ => rfl, fun _ => nofun⟩
  | cons c cs ih =>
    have hshort := length_le_utf8Len cs
    have hpos := c.utf8Size_pos
    unfold OneByte at ih ⊢
    rw [List.forall_mem_cons, ih, String.utf8Len_cons, List.length_cons]
    omega

theorem OneByte.append_iff : OneByte (cs ++ ds) ↔ OneByte cs ∧ OneByte ds := List.forall_mem_append

end Bytes

namespace ParseError

variable {start stop : Nat} {cs slice : List Char}

theorem byteSlice?_front (slice after : List Char) :
    byteSlice? 0 (utf8Len slice) (slice ++ after) = some slice := by
  induction slice with
  | nil =>
    cases after with
    | nil => rfl
    | cons => rfl
  | cons c slice ih =>
    have hpos := c.utf8Size_pos
    rw [List.cons_append, byteSlice?, if_pos rfl, String.utf8Len_cons, if_neg (by omega),
      if_pos (Nat.le_add_left _ _), Nat.add_sub_cancel, ih, Option.map_some]

theorem byteSlice?_append (before slice after : List Char) :
    byteSlice? (utf8Len before) (utf8Len before + utf8Len slice) (before ++ slice ++ after) = some slice := by
  induction before with
  | nil =>
    rw [List.nil_append, String.utf8Len_nil, Nat.zero_add]
    exact byteSlice?_front slice after
  | cons c before ih =>
    have hpos := c.utf8Size_pos
    rw [List.cons_append, List.cons_append, byteSlice?, String.utf8Len_cons, if_neg (by omega),
      if_pos (Nat.le_add_left _ _), Nat.add_sub_cancel, Nat.add_right_comm, Nat.add_sub_cancel]
    exact ih

theorem of_byteSlice? (h : byteSlice? start stop cs = some slice) (hle : start ≤ stop) :
    ∃ before after, cs = before ++ slice ++ after ∧ utf8Len before = start ∧
      utf8Len slice = stop - start := by
  induction cs generalizing start stop slice with
  | nil =>
    rw [byteSlice?] at h
    split_ifs at h with hzero
    cases h
    exact ⟨[], [], rfl, hzero.1.symm, by rw [hzero.1, hzero.2]; rfl⟩
  | cons c rest ih =>
    rw [byteSlice?] at h
    split_ifs at h with hstart hstop hfits hskip
    · cases h
      exact ⟨[], c :: rest, rfl, hstart.symm, by rw [hstart, hstop]; rfl⟩
    · obtain ⟨tail, htail, rfl⟩ := Option.map_eq_some_iff.1 h
      obtain ⟨before, after, hrest, hbefore, hslice⟩ := ih htail (Nat.zero_le _)
      obtain rfl := String.utf8Len_eq_zero.1 hbefore
      refine ⟨[], after, ?_, hstart.symm, ?_⟩
      · rw [hrest]
        rfl
      · rw [String.utf8Len_cons]
        omega
    · obtain ⟨before, after, hrest, hbefore, hslice⟩ := ih h (Nat.sub_le_sub_right hle _)
      refine ⟨c :: before, after, ?_, ?_, ?_⟩
      · rw [hrest]
        rfl
      · rw [String.utf8Len_cons]
        omega
      · omega

/-- A slice is what stands between two ends of characters. -/
theorem byteSlice?_eq_some (hle : start ≤ stop) :
    byteSlice? start stop cs = some slice ↔ ∃ before after, cs = before ++ slice ++ after ∧
      utf8Len before = start ∧ utf8Len slice = stop - start := by
  constructor
  · intro h
    exact of_byteSlice? h hle
  · rintro ⟨before, after, rfl, rfl, hslice⟩
    have hstop : stop = utf8Len before + utf8Len slice := by omega
    rw [hstop]
    exact byteSlice?_append before slice after

theorem offending_empty {e : ParseError} (h : e.stop = e.start) : e.offending = "" := by
  unfold offending
  dsimp only
  rw [h, Nat.max_self]
  generalize min e.start e.text.utf8ByteSize = place
  rcases hslice : byteSlice? place place e.text.toList with _ | slice
  case none => rfl
  case some =>
    obtain ⟨-, -, -, -, hempty⟩ := of_byteSlice? hslice (Nat.le_refl place)
    rw [Nat.sub_self, String.utf8Len_eq_zero] at hempty
    rw [hempty]
    rfl

theorem offending_eq_iff {e : ParseError} {part : List Char} (hle : e.start ≤ e.stop)
    (hstop : e.stop ≤ e.text.toList.length) (hpart : part ≠ []) :
    e.offending = String.ofList part ↔ ∃ before after, e.text.toList = before ++ part ++ after ∧
      utf8Len before = e.start ∧ utf8Len part = e.stop - e.start := by
  have hsize : e.stop ≤ e.text.utf8ByteSize := by
    rw [← String.utf8Len_toList]
    exact hstop.trans (length_le_utf8Len _)
  rw [← byteSlice?_eq_some hle]
  unfold offending
  dsimp only
  rw [Nat.min_eq_left (hle.trans hsize), Nat.min_eq_left hsize, Nat.max_eq_right hle]
  rcases byteSlice? e.start e.stop e.text.toList with _ | slice
  case none =>
    refine ⟨fun h => ?_, nofun⟩
    exact absurd (String.ofList_eq_empty_iff.1 (Eq.symm h)) hpart
  case some =>
    rw [Option.map_some, Option.getD_some, String.ofList_inj, Option.some_inj]

end ParseError

/-- The part of a text that a cause is about, with what stands in front of it. -/
inductive Fault : List Char → ParseError.Cause → List Char → List Char → Prop
  | unexpected (before after : List Char) (c : Char) :
      Fault (before ++ c :: after) (.unexpected c) before [c]
  | unexpectedEnd (cs : List Char) : Fault cs .unexpectedEnd cs []
  | outputGroups {left right : List Char} {inputs outputs : List Core} (hleft : Groups left inputs)
      (hright : Groups right outputs) :
      Fault (left ++ '-' :: '>' :: right) (.outputGroups outputs.length) (left ++ ['-', '>']) right

theorem Fault.eq_append {cs before part : List Char} {cause : ParseError.Cause}
    (h : Fault cs cause before part) : ∃ after, cs = before ++ part ++ after := by
  cases h with
  | unexpected before after c => exact ⟨after, by rw [List.append_assoc]; rfl⟩
  | unexpectedEnd => exact ⟨[], by rw [List.append_nil, List.append_nil]⟩
  | outputGroups => exact ⟨[], by rw [List.append_nil, List.append_assoc]; rfl⟩

theorem parse_fault {text : String} {e : ParseError} (h : parse text = .error e) :
    ∃ before part, Fault text.toList e.cause before part ∧ e.text = text ∧ e.start = before.length ∧
      e.stop = before.length + part.length := by
  have hparsed := parsed text
  rw [h] at hparsed
  cases hparsed with
  | @unexpected before after c r split front refused =>
    rw [split]
    exact ⟨before, [c], .unexpected before after c, rfl, rfl, rfl⟩
  | ended => exact ⟨_, [], .unexpectedEnd _, rfl, rfl, rfl⟩
  | @several left right inputs outputs split count front back =>
    obtain ⟨hleft, hright⟩ := Reading.arrow_of_run front back
    refine ⟨left ++ ['-', '>'], right, ?_, rfl, rfl, ?_⟩
    · rw [split]
      exact .outputGroups hleft hright
    · rw [split, List.length_append, List.length_append]
      simp only [List.length_cons, List.length_nil]
      omega

/-- An error shows nothing at the end of a text. Elsewhere it shows what it is about exactly if this takes one
byte for each character and stands at the byte whose number is the number of characters in front of it. -/
theorem parse_offending {text : String} {e : ParseError} (h : parse text = .error e) :
    ∃ before part, Fault text.toList e.cause before part ∧ e.start = before.length ∧
      (part = [] → e.offending = "") ∧
      (part ≠ [] → (e.offending = String.ofList part ↔ OneByte part ∧ ∃ front back,
        text.toList = front ++ part ++ back ∧ utf8Len front = before.length)) ∧
      (OneByte (before ++ part) → e.offending = String.ofList part) := by
  obtain ⟨before, part, hfault, htext, hstart, hstop⟩ := parse_fault h
  obtain ⟨after, hsplit⟩ := hfault.eq_append
  have hinside : e.stop ≤ e.text.toList.length := by
    rw [htext, hsplit, hstop, List.length_append, List.length_append]
    exact Nat.le_add_right _ _
  have hnothing : part = [] → e.offending = "" := by
    rintro rfl
    exact ParseError.offending_empty (hstop.trans hstart.symm)
  have hshown : part ≠ [] → (e.offending = String.ofList part ↔ OneByte part ∧ ∃ front back,
      text.toList = front ++ part ++ back ∧ utf8Len front = before.length) := by
    intro hpart
    rw [ParseError.offending_eq_iff (by omega) hinside hpart, htext, hstart, hstop, Nat.add_sub_cancel_left,
      oneByte_iff]
    constructor
    · rintro ⟨front, back, hfront, hbytes, hone⟩
      exact ⟨hone, front, back, hfront, hbytes⟩
    · rintro ⟨hone, front, back, hfront, hbytes⟩
      exact ⟨front, back, hfront, hbytes, hone⟩
  refine ⟨before, part, hfault, hstart, hnothing, hshown, fun hone => ?_⟩
  obtain ⟨hbefore, hpart⟩ := OneByte.append_iff.1 hone
  by_cases hempty : part = []
  case pos => rw [hnothing hempty, hempty, String.ofList_nil]
  case neg => exact (hshown hempty).2 ⟨hpart, before, after, hsplit, oneByte_iff.1 hbefore⟩

theorem parse_offending_semicolon :
    parse "(n;m)->(n)" = .error ⟨"(n;m)->(n)", 2, 3, .unexpected ';'⟩ ∧
      ParseError.offending ⟨"(n;m)->(n)", 2, 3, .unexpected ';'⟩ = ";" := by
  have hread : parse "(n;m)->(n)" = .error ⟨"(n;m)->(n)", 2, 3, .unexpected ';'⟩ := by rfl
  have hone : OneByte "(n;m)->(n)".toList := oneByte_iff.2 (by decide)
  obtain ⟨before, part, hfault, -, -, -, hshown⟩ := parse_offending hread
  generalize "(n;m)->(n)".toList = cs at hfault hone
  cases hfault with
  | unexpected before after =>
    rw [List.append_cons, OneByte.append_iff] at hone
    exact ⟨hread, hshown hone.1⟩

/-- A blank of two bytes in front moves the slice by a character. -/
theorem offending_behind_blank :
    parse "\u00a0(n;m)->(n)" = .error ⟨"\u00a0(n;m)->(n)", 3, 4, .unexpected ';'⟩ ∧
      ParseError.offending ⟨"\u00a0(n;m)->(n)", 3, 4, .unexpected ';'⟩ = "n" ∧ "n" ≠ ";" := by
  decide +kernel

end Corewise.CoreSignature
