import Corewise.Mismatch
import Corewise.Proofs.Json.Leaf
/-!
Texts of JSON values. Between the parts of a text there may be blanks, and whatever blanks there are the value
is read; what `Json.pretty` and `Json.compact` write are two of the texts.
-/

namespace Corewise.Json

/-- A value that has a text from which it can be read: no more than `depth` arrays and objects nest, and all
numbers are natural numbers of one word. -/
inductive Readable : Nat → Json → Prop
  | null (depth : Nat) : Readable depth .null
  | bool (depth : Nat) (b : Bool) : Readable depth (.bool b)
  | natural (depth : Nat) {n : Nat} (h : n < wordLimit) : Readable depth (.natural n)
  | string (depth : Nat) (s : String) : Readable depth (.string s)
  | array {depth : Nat} {items : List Json} (h : ∀ v ∈ items, Readable depth v) :
      Readable (depth + 1) (.array items)
  | object {depth : Nat} {fields : List (String × Json)} (h : ∀ f ∈ fields, Readable depth f.2) :
      Readable (depth + 1) (.object fields)

def Blanks (cs : List Char) : Prop := ∀ c ∈ cs, Read.isSpace c = true

mutual

/-- The characters are a text of the value. -/
inductive Written : Nat → Json → List Char → Prop
  | null (depth : Nat) : Written depth .null ['n', 'u', 'l', 'l']
  | true (depth : Nat) : Written depth (.bool true) ['t', 'r', 'u', 'e']
  | false (depth : Nat) : Written depth (.bool false) ['f', 'a', 'l', 's', 'e']
  | natural (depth : Nat) {n : Nat} (h : n < wordLimit) :
      Written depth (.natural n) (Nat.toDigits 10 n)
  | string (depth : Nat) (s : String) : Written depth (.string s) (quote s)
  | noItems (depth : Nat) {b : List Char} (blanks : Blanks b) :
      Written (depth + 1) (.array []) ('[' :: (b ++ [']']))
  | items {depth : Nat} {v : Json} {vs : List Json} {b t u : List Char} (blanks : Blanks b)
      (first : Written depth v t) (rest : ItemsWritten depth vs u) :
      Written (depth + 1) (.array (v :: vs)) ('[' :: (b ++ (t ++ u)))
  | noFields (depth : Nat) {b : List Char} (blanks : Blanks b) :
      Written (depth + 1) (.object []) ('\x7b' :: (b ++ ['\x7d']))
  | fields {depth : Nat} {f : String × Json} {fs : List (String × Json)} {b t u : List Char}
      (blanks : Blanks b) (first : FieldWritten depth f t) (rest : FieldsWritten depth fs u) :
      Written (depth + 1) (.object (f :: fs)) ('\x7b' :: (b ++ (t ++ u)))

/-- The items after the first, with the closing bracket. -/
inductive ItemsWritten : Nat → List Json → List Char → Prop
  | nil (depth : Nat) {b : List Char} (blanks : Blanks b) : ItemsWritten depth [] (b ++ [']'])
  | cons {depth : Nat} {v : Json} {vs : List Json} {b b' t u : List Char} (before : Blanks b)
      (behind : Blanks b') (first : Written depth v t) (rest : ItemsWritten depth vs u) :
      ItemsWritten depth (v :: vs) (b ++ ',' :: (b' ++ (t ++ u)))

inductive FieldWritten : Nat → String × Json → List Char → Prop
  | mk {depth : Nat} (name : String) {v : Json} {b b' t : List Char} (before : Blanks b)
      (behind : Blanks b') (value : Written depth v t) :
      FieldWritten depth (name, v) (quote name ++ (b ++ ':' :: (b' ++ t)))

/-- The fields after the first, with the closing brace. -/
inductive FieldsWritten : Nat → List (String × Json) → List Char → Prop
  | nil (depth : Nat) {b : List Char} (blanks : Blanks b) : FieldsWritten depth [] (b ++ ['\x7d'])
  | cons {depth : Nat} {f : String × Json} {fs : List (String × Json)} {b b' t u : List Char}
      (before : Blanks b) (behind : Blanks b') (first : FieldWritten depth f t)
      (rest : FieldsWritten depth fs u) :
      FieldsWritten depth (f :: fs) (b ++ ',' :: (b' ++ (t ++ u)))

end

theorem skipSpace_append {b cs : List Char} (hb : Blanks b) :
    Read.skipSpace (b ++ cs) = Read.skipSpace cs := List.dropWhile_append_of_pos hb

theorem skipSpace_cons {c : Char} (hc : Read.isSpace c = false) (cs : List Char) :
    Read.skipSpace (c :: cs) = c :: cs := List.dropWhile_cons_of_neg (Bool.eq_false_iff.1 hc)

/-- The characters start with something that is no blank and closes nothing. -/
def Opens (cs : List Char) : Prop :=
  ∃ c rest, cs = c :: rest ∧ Read.isSpace c = false ∧ c ≠ ']' ∧ c ≠ '\x7d'

theorem Opens.append {cs : List Char} (h : Opens cs) (rest : List Char) : Opens (cs ++ rest) := by
  obtain ⟨c, ds, rfl, hc⟩ := h
  exact ⟨c, ds ++ rest, rfl, hc⟩

theorem Opens.skipSpace_eq {cs : List Char} (h : Opens cs) : Read.skipSpace cs = cs := by
  obtain ⟨c, rest, rfl, hc, -⟩ := h
  exact skipSpace_cons hc rest

theorem opens_quote (s : String) : Opens (quote s) :=
  ⟨'"', _, rfl, rfl, by decide, by decide⟩

theorem opens_toDigits (n : Nat) : Opens (Nat.toDigits 10 n) := by
  obtain ⟨c, ds, hds, hc⟩ := exists_digit_toDigits n
  refine ⟨c, ds, hds, ?_, ?_, ?_⟩
  · rw [Bool.eq_false_iff]
    intro hspace
    simp only [Read.isSpace, Bool.or_eq_true, beq_iff_eq] at hspace
    obtain ((rfl | rfl) | rfl) | rfl := hspace
    all_goals cases hc
  · rintro rfl
    cases hc
  · rintro rfl
    cases hc

theorem Written.opens {depth : Nat} {v : Json} {cs : List Char} (h : Written depth v cs) : Opens cs := by
  cases h with
  | null => exact ⟨_, _, rfl, rfl, by decide, by decide⟩
  | true => exact ⟨_, _, rfl, rfl, by decide, by decide⟩
  | false => exact ⟨_, _, rfl, rfl, by decide, by decide⟩
  | natural _ h => exact opens_toDigits _
  | string _ s => exact opens_quote s
  | noItems => exact ⟨_, _, rfl, rfl, by decide, by decide⟩
  | items => exact ⟨_, _, rfl, rfl, by decide, by decide⟩
  | noFields => exact ⟨_, _, rfl, rfl, by decide, by decide⟩
  | fields => exact ⟨_, _, rfl, rfl, by decide, by decide⟩

theorem FieldWritten.opens {depth : Nat} {f : String × Json} {cs : List Char}
    (h : FieldWritten depth f cs) : Opens cs := by
  cases h with
  | mk name => exact (opens_quote name).append _

theorem endsNumber_nil : EndsNumber [] := nofun

/-- After blanks a number has ended, and so it has before a comma and what closes. -/
theorem endsNumber_blanks {b cs : List Char} (hb : Blanks b) (hcs : EndsNumber cs) :
    EndsNumber (b ++ cs) := by
  cases b with
  | nil => exact hcs
  | cons c b =>
    intro c' hc'
    cases Option.mem_some_iff.1 hc'
    have hspace := hb c List.mem_cons_self
    simp only [Read.isSpace, Bool.or_eq_true, beq_iff_eq] at hspace
    obtain ((rfl | rfl) | rfl) | rfl := hspace
    all_goals decide

theorem endsNumber_cons {c : Char} (hc : c = ',' ∨ c = ']' ∨ c = '\x7d') (cs : List Char) :
    EndsNumber (c :: cs) := by
  intro c' hc'
  cases Option.mem_some_iff.1 hc'
  obtain rfl | rfl | rfl := hc
  all_goals decide

section Leaves

theorem value?_leaf {c : Char} (harray : c ≠ '[') (hobject : c ≠ '\x7b') (depth : Nat)
    (cs : List Char) : Read.value? depth (c :: cs) = Read.leaf? (c :: cs) := by
  unfold Read.value?
  split
  case h_1 heq => exact absurd (List.cons.inj heq).1 harray
  case h_2 heq => exact absurd (List.cons.inj heq).1 hobject
  case h_3 heq => exact absurd (List.cons.inj heq).1 harray
  case h_4 heq => exact absurd (List.cons.inj heq).1 hobject
  case h_5 => rfl

theorem leaf?_digit {c : Char} (hc : c.isDigit = true) (cs : List Char) :
    Read.leaf? (c :: cs) = Read.number? (c :: cs) := by
  unfold Read.leaf?
  split
  case h_5 => rfl
  all_goals
    rename_i heq
    rw [(List.cons.inj heq).1] at hc
    exact absurd hc (by decide)

theorem value?_toDigits (depth : Nat) {n : Nat} (hn : n < wordLimit) {rest : List Char}
    (hrest : EndsNumber rest) :
    Read.value? depth (Nat.toDigits 10 n ++ rest) = some (.natural n, rest) := by
  have hread := number?_toDigits hn hrest
  obtain ⟨c, ds, hds, hc⟩ := exists_digit_toDigits n
  rw [hds, List.cons_append] at hread ⊢
  rw [value?_leaf, leaf?_digit hc, hread]
  · rintro rfl
    exact absurd hc (by decide)
  · rintro rfl
    exact absurd hc (by decide)

theorem value?_quote (depth : Nat) (s : String) (rest : List Char) :
    Read.value? depth (quote s ++ rest) = some (.string s, rest) := by
  have hread : Read.value? depth (quote s ++ rest) =
      (Read.string? (quote s ++ rest)).map fun r => (r.1.elim .malformed .string, r.2) :=
    value?_leaf (by decide) (by decide) depth _
  rw [hread, string?_quote]
  rfl

end Leaves

section Lists

variable {value : Read.ValueReader} {fuel : Nat} {b b' t cs : List Char}

theorem itemsRest?_nil (hb : Blanks b) :
    Read.itemsRest? value (fuel + 1) (b ++ ']' :: cs) = some ([], cs) := by
  rw [Read.itemsRest?, skipSpace_append hb, skipSpace_cons rfl]
  rfl

theorem itemsRest?_cons {v : Json} (hb : Blanks b) (hb' : Blanks b') (ht : Opens t)
    (hv : value (t ++ cs) = some (v, cs)) :
    Read.itemsRest? value (fuel + 1) (b ++ ',' :: (b' ++ (t ++ cs))) =
      (Read.itemsRest? value fuel cs).map fun r => (v :: r.1, r.2) := by
  rw [Read.itemsRest?, skipSpace_append hb, skipSpace_cons rfl]
  change (value (Read.skipSpace _)).bind _ = _
  rw [skipSpace_append hb', (ht.append cs).skipSpace_eq, hv]
  dsimp only [Option.bind_eq_bind, Option.bind_some]
  cases Read.itemsRest? value fuel cs <;> rfl

theorem items?_nil (hb : Blanks b) : Read.items? value (b ++ ']' :: cs) = some ([], cs) := by
  rw [Read.items?, skipSpace_append hb, skipSpace_cons rfl]
  rfl

theorem items?_cons {v : Json} (hb : Blanks b) (ht : Opens t) (hv : value (t ++ cs) = some (v, cs)) :
    Read.items? value (b ++ (t ++ cs)) =
      (Read.itemsRest? value (cs.length + 1) cs).map fun r => (v :: r.1, r.2) := by
  rw [Read.items?, skipSpace_append hb, (ht.append cs).skipSpace_eq]
  obtain ⟨c, ds, rfl, -, hc, -⟩ := ht
  split
  case h_1 heq => exact absurd (List.cons.inj heq).1 hc
  case h_2 =>
    rw [hv]
    dsimp only [Option.bind_eq_bind, Option.bind_some]
    cases Read.itemsRest? value (cs.length + 1) cs <;> rfl

theorem fieldsRest?_nil (hb : Blanks b) :
    Read.fieldsRest? value (fuel + 1) (b ++ '\x7d' :: cs) = some ([], cs) := by
  rw [Read.fieldsRest?, skipSpace_append hb, skipSpace_cons rfl]
  rfl

theorem fieldsRest?_cons {f : Read.Field} (hb : Blanks b) (hb' : Blanks b') (ht : Opens t)
    (hf : Read.field? value (t ++ cs) = some (f, cs)) :
    Read.fieldsRest? value (fuel + 1) (b ++ ',' :: (b' ++ (t ++ cs))) =
      (Read.fieldsRest? value fuel cs).map fun r => (f :: r.1, r.2) := by
  rw [Read.fieldsRest?, skipSpace_append hb, skipSpace_cons rfl]
  change (Read.field? value (Read.skipSpace _)).bind _ = _
  rw [skipSpace_append hb', (ht.append cs).skipSpace_eq, hf]
  dsimp only [Option.bind_eq_bind, Option.bind_some]
  cases Read.fieldsRest? value fuel cs <;> rfl

theorem fields?_nil (hb : Blanks b) : Read.fields? value (b ++ '\x7d' :: cs) = some ([], cs) := by
  rw [Read.fields?, skipSpace_append hb, skipSpace_cons rfl]
  rfl

theorem fields?_cons {f : Read.Field} (hb : Blanks b) (ht : Opens t)
    (hf : Read.field? value (t ++ cs) = some (f, cs)) :
    Read.fields? value (b ++ (t ++ cs)) =
      (Read.fieldsRest? value (cs.length + 1) cs).map fun r => (f :: r.1, r.2) := by
  rw [Read.fields?, skipSpace_append hb, (ht.append cs).skipSpace_eq]
  obtain ⟨c, ds, rfl, -, -, hc⟩ := ht
  split
  case h_1 heq => exact absurd (List.cons.inj heq).1 hc
  case h_2 =>
    rw [hf]
    dsimp only [Option.bind_eq_bind, Option.bind_some]
    cases Read.fieldsRest? value (cs.length + 1) cs <;> rfl

theorem field?_quote {v : Json} (name : String) (hb : Blanks b) (hb' : Blanks b') (ht : Opens t)
    (hv : value (t ++ cs) = some (v, cs)) :
    Read.field? value (quote name ++ (b ++ ':' :: (b' ++ (t ++ cs)))) = some ((some name, v), cs) := by
  have hname : Read.name? (quote name ++ (b ++ ':' :: (b' ++ (t ++ cs)))) = some (some name, t ++ cs) := by
    rw [Read.name?, string?_quote]
    dsimp only [Option.bind_eq_bind, Option.bind_some]
    rw [skipSpace_append hb, skipSpace_cons rfl]
    change some (some name, Read.skipSpace (b' ++ (t ++ cs))) = _
    rw [skipSpace_append hb', (ht.append cs).skipSpace_eq]
  rw [Read.field?, hname]
  dsimp only [Option.bind_eq_bind, Option.bind_some]
  rw [hv]
  rfl

end Lists

/-- What is read back from each item is read back from them all. -/
theorem mapM_map_eq {α β : Type} {write : α → β} {read : β → Option α} {xs : List α}
    (h : ∀ x ∈ xs, read (write x) = some x) : (xs.map write).mapM read = some xs := by
  induction xs with
  | nil => rfl
  | cons x xs ih =>
    rw [List.map_cons, List.mapM_cons, h x List.mem_cons_self,
      ih fun y hy => h y (List.mem_cons_of_mem x hy)]
    rfl

/-- A field as it is read, with a name that has a text. -/
def named (f : String × Json) : Read.Field := (some f.1, f.2)

theorem object_named (fs : List (String × Json)) : Read.object (fs.map named) = .object fs := by
  have hnames : (fs.map named).mapM (fun f : Read.Field => f.1.map fun k => (k, f.2)) = some fs :=
    mapM_map_eq fun _ _ => rfl
  rw [Read.object, hnames]
  rfl

theorem ItemsWritten.endsNumber {depth : Nat} {vs : List Json} {u : List Char}
    (h : ItemsWritten depth vs u) (rest : List Char) : EndsNumber (u ++ rest) := by
  cases h with
  | nil _ hb =>
    rw [List.append_assoc]
    exact endsNumber_blanks hb (endsNumber_cons (.inr (.inl rfl)) rest)
  | cons hb =>
    rw [List.append_assoc]
    exact endsNumber_blanks hb (endsNumber_cons (.inl rfl) _)

theorem FieldsWritten.endsNumber {depth : Nat} {fs : List (String × Json)} {u : List Char}
    (h : FieldsWritten depth fs u) (rest : List Char) : EndsNumber (u ++ rest) := by
  cases h with
  | nil _ hb =>
    rw [List.append_assoc]
    exact endsNumber_blanks hb (endsNumber_cons (.inr (.inr rfl)) rest)
  | cons hb =>
    rw [List.append_assoc]
    exact endsNumber_blanks hb (endsNumber_cons (.inl rfl) _)

/-- Each item takes a character at least, so that many are left to read. -/
theorem ItemsWritten.length_lt {depth : Nat} (rest : List Char) : ∀ {vs : List Json} {u : List Char},
    ItemsWritten depth vs u → vs.length < (u ++ rest).length + 1
  | _, _, .nil _ _ => Nat.succ_pos _
  | _, _, .cons _ _ _ htail => by
    have hlt := htail.length_lt rest
    simp only [List.length_append, List.length_cons] at hlt ⊢
    omega

theorem FieldsWritten.length_lt {depth : Nat} (rest : List Char) : ∀ {fs : List (String × Json)} {u : List Char},
    FieldsWritten depth fs u → fs.length < (u ++ rest).length + 1
  | _, _, .nil _ _ => Nat.succ_pos _
  | _, _, .cons _ _ _ htail => by
    have hlt := htail.length_lt rest
    simp only [List.length_append, List.length_cons] at hlt ⊢
    omega

mutual

/-- Every text of a value is read as that value, and no further. -/
theorem Written.read {depth : Nat} {v : Json} {cs : List Char} (h : Written depth v cs)
    {rest : List Char} (hrest : EndsNumber rest) :
    Read.value? depth (cs ++ rest) = some (v, rest) := by
  cases h with
  | null | true | false => exact value?_leaf (by decide) (by decide) depth _
  | natural _ hn => exact value?_toDigits depth hn hrest
  | string _ s => exact value?_quote depth s rest
  | noItems depth hb =>
    rw [List.cons_append, List.append_assoc, List.singleton_append, Read.value?, items?_nil hb]
    rfl
  | items hb hfirst htail =>
    rw [List.cons_append, List.append_assoc, List.append_assoc, Read.value?,
      items?_cons hb hfirst.opens (hfirst.read (htail.endsNumber rest)), htail.read rest (htail.length_lt rest)]
    rfl
  | noFields depth hb =>
    rw [List.cons_append, List.append_assoc, List.singleton_append, Read.value?, fields?_nil hb]
    rfl
  | fields hb hfirst htail =>
    rw [List.cons_append, List.append_assoc, List.append_assoc, Read.value?,
      fields?_cons hb hfirst.opens (hfirst.read (htail.endsNumber rest)), htail.read rest (htail.length_lt rest)]
    exact congrArg (fun v => some (v, rest)) (object_named (_ :: _))

theorem ItemsWritten.read {depth : Nat} {vs : List Json} {u : List Char} (h : ItemsWritten depth vs u)
    (rest : List Char) {fuel : Nat} (hfuel : vs.length < fuel) :
    Read.itemsRest? (Read.value? depth) fuel (u ++ rest) = some (vs, rest) := by
  obtain ⟨fuel, rfl⟩ := Nat.exists_eq_add_one_of_ne_zero (Nat.ne_zero_of_lt hfuel)
  cases h with
  | nil _ hb => rw [List.append_assoc, List.singleton_append, itemsRest?_nil hb]
  | cons hb hb' hfirst htail =>
    rw [List.append_assoc, List.cons_append, List.append_assoc, List.append_assoc,
      itemsRest?_cons hb hb' hfirst.opens (hfirst.read (htail.endsNumber rest)),
      htail.read rest (Nat.lt_of_succ_lt_succ hfuel)]
    rfl

theorem FieldWritten.read {depth : Nat} {f : String × Json} {t : List Char}
    (h : FieldWritten depth f t) {rest : List Char} (hrest : EndsNumber rest) :
    Read.field? (Read.value? depth) (t ++ rest) = some (named f, rest) := by
  cases h with
  | mk name hb hb' hvalue =>
    rw [List.append_assoc, List.append_assoc, List.cons_append, List.append_assoc,
      field?_quote name hb hb' hvalue.opens (hvalue.read hrest)]
    rfl

theorem FieldsWritten.read {depth : Nat} {fs : List (String × Json)} {u : List Char}
    (h : FieldsWritten depth fs u) (rest : List Char) {fuel : Nat} (hfuel : fs.length < fuel) :
    Read.fieldsRest? (Read.value? depth) fuel (u ++ rest) = some (fs.map named, rest) := by
  obtain ⟨fuel, rfl⟩ := Nat.exists_eq_add_one_of_ne_zero (Nat.ne_zero_of_lt hfuel)
  cases h with
  | nil _ hb => rw [List.append_assoc, List.singleton_append, fieldsRest?_nil hb, List.map_nil]
  | cons hb hb' hfirst htail =>
    rw [List.append_assoc, List.cons_append, List.append_assoc, List.append_assoc,
      fieldsRest?_cons hb hb' hfirst.opens (hfirst.read (htail.endsNumber rest)),
      htail.read rest (Nat.lt_of_succ_lt_succ hfuel)]
    rfl

end

/-- A whole text of a value, with blanks around it, is parsed to that value. -/
theorem parse_written {v : Json} {b cs b' : List Char} (h : Written maxDepth v cs) (hb : Blanks b)
    (hb' : Blanks b') : parse (String.ofList (b ++ (cs ++ b'))) = some v := by
  have hends : EndsNumber (b' ++ []) := endsNumber_blanks hb' endsNumber_nil
  rw [List.append_nil] at hends
  have hread : Read.value? maxDepth (cs ++ b') = some (v, b') := h.read hends
  have hbehind : Read.skipSpace b' = [] := by
    have hskip : Read.skipSpace (b' ++ []) = Read.skipSpace [] := skipSpace_append hb'
    rwa [List.append_nil] at hskip
  rw [parse, String.toList_ofList, skipSpace_append hb, (h.opens.append b').skipSpace_eq, hread]
  simp only [Option.bind_eq_bind, Option.bind_some, hbehind, if_true, Option.pure_def]

/-! ### The two texts that are written -/

section Texts

variable {depth : Nat}

theorem blanks_nil : Blanks [] := nofun

theorem blanks_space : Blanks [' '] := by
  intro c hc
  rw [List.mem_singleton.1 hc]
  rfl

theorem blanks_newline (k : Nat) : Blanks (newline k) := by
  intro c hc
  obtain rfl | hc := List.mem_cons.1 hc
  · rfl
  · rw [List.eq_of_mem_replicate hc]
    rfl

theorem fieldWritten_compact {f : String × Json} (h : Written depth f.2 f.2.compactChars) :
    FieldWritten depth f (quote f.1 ++ ':' :: f.2.compactChars) :=
  .mk f.1 blanks_nil blanks_nil h

theorem fieldWritten_pretty {f : String × Json} {k : Nat} (h : Written depth f.2 (prettyChars k f.2)) :
    FieldWritten depth f (quote f.1 ++ ':' :: ' ' :: prettyChars k f.2) :=
  .mk f.1 blanks_nil blanks_space h

theorem itemsWritten_compact {vs : List Json} (h : ∀ v ∈ vs, Written depth v v.compactChars) :
    ItemsWritten depth vs (compactItems vs) := by
  induction vs with
  | nil => exact .nil depth blanks_nil
  | cons v vs ih =>
    refine .cons blanks_nil blanks_nil (h v List.mem_cons_self) (ih ?_)
    exact fun w hw => h w (List.mem_cons_of_mem v hw)

theorem fieldsWritten_compact {fs : List (String × Json)}
    (h : ∀ f ∈ fs, Written depth f.2 f.2.compactChars) : FieldsWritten depth fs (compactFields fs) := by
  induction fs with
  | nil => exact .nil depth blanks_nil
  | cons f fs ih =>
    have htail := ih fun g hg => h g (List.mem_cons_of_mem f hg)
    have htext : compactFields (f :: fs) =
        [] ++ ',' :: ([] ++ ((quote f.1 ++ ':' :: f.2.compactChars) ++ compactFields fs)) := by
      simp [compactFields]
    rw [htext]
    exact .cons blanks_nil blanks_nil (fieldWritten_compact (h f List.mem_cons_self)) htail

theorem itemsWritten_pretty {vs : List Json} {k : Nat}
    (h : ∀ v ∈ vs, Written depth v (prettyChars (k + 1) v)) :
    ItemsWritten depth vs (prettyItems k vs) := by
  induction vs with
  | nil => exact .nil depth (blanks_newline k)
  | cons v vs ih =>
    have htail := ih fun w hw => h w (List.mem_cons_of_mem v hw)
    have htext : prettyItems k (v :: vs) =
        [] ++ ',' :: (newline (k + 1) ++ (prettyChars (k + 1) v ++ prettyItems k vs)) := by
      simp [prettyItems]
    rw [htext]
    exact .cons blanks_nil (blanks_newline (k + 1)) (h v List.mem_cons_self) htail

theorem fieldsWritten_pretty {fs : List (String × Json)} {k : Nat}
    (h : ∀ f ∈ fs, Written depth f.2 (prettyChars (k + 1) f.2)) :
    FieldsWritten depth fs (prettyFields k fs) := by
  induction fs with
  | nil => exact .nil depth (blanks_newline k)
  | cons f fs ih =>
    have htail := ih fun g hg => h g (List.mem_cons_of_mem f hg)
    have htext : prettyFields k (f :: fs) = [] ++ ',' :: (newline (k + 1) ++
        ((quote f.1 ++ ':' :: ' ' :: prettyChars (k + 1) f.2) ++ prettyFields k fs)) := by
      simp [prettyFields]
    rw [htext]
    exact .cons blanks_nil (blanks_newline (k + 1)) (fieldWritten_pretty (h f List.mem_cons_self)) htail

/-- What is written without blanks is a text of the value. -/
theorem Readable.written_compact {v : Json} (h : Readable depth v) :
    Written depth v v.compactChars := by
  induction h with
  | null depth => exact .null depth
  | bool depth b =>
    cases b with
    | true => exact .true depth
    | false => exact .false depth
  | natural depth hn => exact .natural depth hn
  | string depth s => exact .string depth s
  | @array depth items _ ih =>
    cases items with
    | nil => exact .noItems depth blanks_nil
    | cons v vs =>
      have htail := itemsWritten_compact fun w hw => ih w (List.mem_cons_of_mem v hw)
      exact .items blanks_nil (ih v List.mem_cons_self) htail
  | @object depth fields _ ih =>
    cases fields with
    | nil => exact .noFields depth blanks_nil
    | cons f fs =>
      have hfirst := fieldWritten_compact (ih f List.mem_cons_self)
      have htail := fieldsWritten_compact fun g hg => ih g (List.mem_cons_of_mem f hg)
      have htext : (Json.object (f :: fs)).compactChars =
          '\x7b' :: ([] ++ ((quote f.1 ++ ':' :: f.2.compactChars) ++ compactFields fs)) := by
        simp [compactChars]
      rw [htext]
      exact .fields blanks_nil hfirst htail

/-- What is written with one item a line is a text of the value, however deep the lines start. -/
theorem Readable.written_pretty {v : Json} (h : Readable depth v) (k : Nat) :
    Written depth v (prettyChars k v) := by
  induction h generalizing k with
  | null depth => exact .null depth
  | bool depth b =>
    cases b with
    | true => exact .true depth
    | false => exact .false depth
  | natural depth hn => exact .natural depth hn
  | string depth s => exact .string depth s
  | @array depth items _ ih =>
    cases items with
    | nil => exact .noItems depth blanks_nil
    | cons v vs =>
      have htail := itemsWritten_pretty fun w hw => ih w (List.mem_cons_of_mem v hw) (k + 1)
      have htext : prettyChars k (.array (v :: vs)) =
          '[' :: (newline (k + 1) ++ (prettyChars (k + 1) v ++ prettyItems k vs)) := by
        simp [prettyChars]
      rw [htext]
      exact .items (blanks_newline (k + 1)) (ih v List.mem_cons_self (k + 1)) htail
  | @object depth fields _ ih =>
    cases fields with
    | nil => exact .noFields depth blanks_nil
    | cons f fs =>
      have hfirst := fieldWritten_pretty (ih f List.mem_cons_self (k + 1))
      have htail := fieldsWritten_pretty fun g hg => ih g (List.mem_cons_of_mem f hg) (k + 1)
      have htext : prettyChars k (.object (f :: fs)) = '\x7b' :: (newline (k + 1) ++
          ((quote f.1 ++ ':' :: ' ' :: prettyChars (k + 1) f.2) ++ prettyFields k fs)) := by
        simp [prettyChars]
      rw [htext]
      exact .fields (blanks_newline (k + 1)) hfirst htail

end Texts

section Whole

variable {v : Json} {cs : List Char} {text : String}

/-- A text of a value is parsed to that value. -/
theorem Written.parse (h : Written maxDepth v cs) : Json.parse (String.ofList cs) = some v := by
  have hread := parse_written h blanks_nil blanks_nil
  rwa [List.append_nil, List.nil_append] at hread

theorem parse_compact (h : Readable maxDepth v) : Json.parse v.compact = some v :=
  h.written_compact.parse

theorem parse_pretty (h : Readable maxDepth v) : Json.parse v.pretty = some v :=
  (h.written_pretty 0).parse

/-- Either of the texts that are written for a value is parsed to that value. -/
theorem Readable.parse (h : Readable maxDepth v) (htext : text = v.compact ∨ text = v.pretty) :
    Json.parse text = some v := by
  obtain rfl | rfl := htext
  · exact parse_compact h
  · exact parse_pretty h

end Whole

end Corewise.Json
