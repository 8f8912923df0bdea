import Corewise.Proofs.CoreSignature.Reading
import Mathlib.Data.List.TakeWhile
/-!
The parser of core signatures refuses a text where a reading of it stops, and nowhere else. A parser that takes
something leads from one reading to another, and what it has given up on the way lies no further on than what it
leaves, or just where that is refused. So the furthest of all these places is the one at which the text cannot go on,
whichever parser has failed in the end.
-/

namespace Corewise.Combinator

variable {α β : Type} {p : Parser α} {q : Parser β} {cs rest : List Char} {stop : Stop}
  {a b abandoned : Option Stop}

/-- None of what has been given up lies further on than this. -/
def Behind (rest : List Char) (abandoned : Option Stop) : Prop :=
  ∀ stop, abandoned = some stop → rest.length ≤ stop.length

theorem further_eq (stop : Stop) (abandoned : Option Stop) :
    further stop abandoned = stop ∨ abandoned = some (further stop abandoned) := by
  cases abandoned with
  | none => exact .inl rfl
  | some earlier =>
    rw [further, furthest]
    split
    · exact .inr rfl
    · exact .inl rfl

theorem furthest?_eq_some (h : furthest? a b = some stop) : a = some stop ∨ b = some stop := by
  cases a with
  | none => exact .inr h
  | some first =>
    cases h
    exact (further_eq first b).imp (fun h => by rw [h]) id

theorem furthest?_none (a : Option Stop) : furthest? a none = a := by
  cases a with
  | none => rfl
  | some => rfl

theorem Behind.furthest? (ha : Behind rest a) (hb : Behind rest b) :
    Behind rest (furthest? a b) := by
  intro stop hstop
  exact (furthest?_eq_some hstop).elim (ha stop) (hb stop)

theorem Behind.shorter {rest' : List Char} (h : Behind rest abandoned)
    (hle : rest'.length ≤ rest.length) : Behind rest' abandoned :=
  fun stop hstop => Nat.le_trans hle (h stop hstop)

theorem Behind.append {before rest : List Char} (h : Behind (before ++ rest) abandoned) :
    Behind rest abandoned := by
  apply h.shorter
  rw [List.length_append]
  exact Nat.le_add_left _ _

theorem behind_none (rest : List Char) : Behind rest none := fun _ h => nomatch h

theorem behind_self {rest : List Char} (h : rest.length ≤ stop.length) : Behind rest (some stop) := by
  intro stop' hstop
  cases hstop
  exact h

theorem further_of_behind (h : Behind stop abandoned) : further stop abandoned = stop := by
  cases abandoned with
  | none => rfl
  | some earlier => exact if_neg (Nat.not_lt.2 (h earlier rfl))

/-- A place ahead of everything else that has been given up. -/
theorem further_furthest? {blanks : List Char} (h : Behind (blanks ++ stop) a) :
    further (blanks ++ stop) (furthest? a (some stop)) = stop := by
  have hself : furthest (blanks ++ stop) stop = stop := by
    cases blanks with
    | nil => exact if_neg (Nat.lt_irrefl _)
    | cons c blanks =>
      refine if_pos ?_
      rw [List.cons_append, List.length_cons, List.length_append]
      omega
  cases a with
  | none => exact hself
  | some earlier =>
    have hlonger := h earlier rfl
    show furthest (blanks ++ stop) (furthest earlier stop) = stop
    rw [List.length_append] at hlonger
    by_cases hlt : stop.length < earlier.length
    case pos =>
      rw [show furthest earlier stop = stop from if_pos hlt]
      exact hself
    case neg =>
      -- Nothing lies between them, so there are no blanks.
      obtain rfl : blanks = [] := List.length_eq_zero_iff.1 (by omega)
      rw [show furthest earlier stop = earlier from if_neg hlt]
      exact if_neg (by rw [List.nil_append]; omega)

theorem andThen_of_error (h : p cs = .error stop) : andThen p q cs = .error stop := by
  rw [andThen, h]

theorem andThen_of_stop {m : Match α} (h : p cs = .ok m) (hq : q m.rest = .error stop) :
    andThen p q cs = .error (further stop m.abandoned) := by
  rw [andThen, h]
  dsimp only
  rw [hq]

theorem andThen_of_ok {m : Match α} {m' : Match β} (h : p cs = .ok m) (hq : q m.rest = .ok m') :
    andThen p q cs =
      .ok ⟨(m.value, m'.value), m'.rest, Combinator.furthest? m.abandoned m'.abandoned⟩ := by
  rw [andThen, h]
  dsimp only
  rw [hq]

theorem just_singleton_of_ne {c : Char} (h : ∀ t, cs ≠ c :: t) : just [c] cs = .error cs := by
  cases cs with
  | nil => rfl
  | cons d t =>
    refine if_neg fun heq => ?_
    subst heq
    exact h t rfl

theorem just_singleton_self (c : Char) (rest : List Char) : just [c] (c :: rest) = .ok ⟨(), rest, none⟩ :=
  if_pos rfl

theorem trailing_of_ne {c : Char} {m : Match α} (h : ∀ t, m.rest ≠ c :: t) :
    trailing (just [c]) m = { m with abandoned := furthest? m.abandoned (some m.rest) } := by
  rw [trailing, just_singleton_of_ne h]

theorem trailing_self (c : Char) (value : α) (rest : List Char) (abandoned : Option Stop) :
    trailing (just [c]) ⟨value, c :: rest, abandoned⟩ = ⟨value, rest, abandoned⟩ := by
  rw [trailing, just_singleton_self]
  exact congrArg (Match.mk value rest) (furthest?_none abandoned)

/-- Characters of a kind, as many as there are. -/
theorem many_satisfy {p : Char → Bool} {n : Nat} (h : cs.length < n) :
    many (satisfy p) n cs = ⟨cs.takeWhile p, cs.dropWhile p, some (cs.dropWhile p)⟩ := by
  induction cs generalizing n with
  | nil =>
    cases n with
    | zero => cases h
    | succ n => rfl
  | cons c cs ih =>
    cases n with
    | zero => cases h
    | succ n =>
      by_cases hc : p c = true
      case pos =>
        rw [List.takeWhile_cons_of_pos hc, List.dropWhile_cons_of_pos hc, many, satisfy, if_pos hc]
        dsimp only
        rw [ih (Nat.lt_of_succ_lt_succ h)]
        rfl
      case neg =>
        rw [List.takeWhile_cons_of_neg hc, List.dropWhile_cons_of_neg hc, many, satisfy, if_neg hc]

theorem not_of_dropWhile {p : Char → Bool} {c : Char} (h : cs.dropWhile p = c :: rest) : p c = false := by
  have hhead := List.head?_dropWhile_not p cs
  rw [h] at hhead
  exact hhead

end Corewise.Combinator

namespace Corewise.CoreSignature

open Combinator Grammar

/-- There is no blank here. -/
def NotBlank (rest : List Char) : Prop := ∀ c t, rest = c :: t → isBlank c = false

/-- What a parser comes to that skips blanks. -/
theorem exists_blanks (cs : List Char) : ∃ blanks rest, cs.dropWhile isBlank = rest ∧
    blanks ++ rest = cs ∧ Blanks blanks ∧ NotBlank rest :=
  ⟨cs.takeWhile isBlank, _, rfl, List.takeWhile_append_dropWhile, fun _ => List.mem_takeWhile_imp,
    fun _ _ => not_of_dropWhile⟩

/-- No name starts here. -/
def NoName (rest : List Char) : Prop := ∀ c t, rest = c :: t → isBlank c = false ∧ isNameStart c = false

namespace Reading

variable {r r' next : Reading} {cs rest before blanks stop : List Char} {abandoned : Option Stop}
  {inputs : Option (List Core)} {groups : List Core} {names : Core}

/-- What has been given up lies no further on than the reading, or just where what is left is refused. -/
def Harmless (r : Reading) (rest : List Char) (abandoned : Option Stop) : Prop :=
  ∀ stop, abandoned = some stop → rest.length ≤ stop.length ∨ r.refusal? rest = some stop

theorem harmless_of_behind (h : Behind rest abandoned) : r.Harmless rest abandoned :=
  fun stop hstop => .inl (h stop hstop)

theorem Harmless.read (h : r.Harmless (before ++ rest) abandoned) (hrun : r.run before = some r') :
    r'.Harmless rest abandoned := by
  intro stop hstop
  rcases h stop hstop with hle | hrefused
  · rw [List.length_append] at hle
    exact .inl (by omega)
  · rw [refusal?_append hrun] at hrefused
    exact .inr hrefused

theorem Harmless.further_eq (h : r.Harmless rest abandoned) (hrefused : r.refusal? rest = some stop) :
    further stop abandoned = stop := by
  rcases Combinator.further_eq stop abandoned with heq | hsome
  · exact heq
  · cases abandoned with
    | none => cases hsome
    | some earlier =>
      rcases h earlier rfl with hle | hearlier
      · exact if_neg (Nat.not_lt.2 (Nat.le_trans (length_refusal?_le hrefused) hle))
      · cases hrefused.symm.trans hearlier
        exact if_neg (Nat.lt_irrefl _)

/-- The place where what is left is refused is further on than what else has been given up. -/
theorem Harmless.further_rest (h : r.Harmless rest abandoned) (hrefused : r.refusal? rest = some stop) :
    further rest (furthest? abandoned (some stop)) = stop := by
  obtain ⟨before, -, rfl, -⟩ := of_refusal? hrefused
  cases abandoned with
  | none => exact further_furthest? (behind_none _)
  | some earlier =>
    rcases h earlier rfl with hle | hearlier
    · exact further_furthest? (behind_self hle)
    · cases hrefused.symm.trans hearlier
      have hself : furthest? (some stop) (some stop) = furthest? none (some stop) :=
        congrArg some (if_neg (Nat.lt_irrefl _))
      rw [hself]
      exact further_furthest? (behind_none _)

/-- Behind a name that has been read there is nothing that could belong to it. -/
def Delimits (r : Reading) (rest : List Char) : Prop :=
  ∀ c t, rest = c :: t → c ≠ ',' → c ≠ ')' → r.step c = none

/-- Where a name could follow, or the end of the group, a text that has neither is refused behind its blanks. -/
theorem refusal?_inGroup (hblanks : Blanks blanks) (hstop : NoName stop)
    (hclose : ∀ t, blanks ++ stop ≠ ')' :: t) :
    refusal? ⟨.inGroup, inputs, groups, names, []⟩ (blanks ++ stop) = some stop := by
  cases blanks with
  | nil =>
    cases stop with
    | nil => rfl
    | cons c t =>
      obtain ⟨hblank, hstart⟩ := hstop c t rfl
      have hne : c ≠ ')' := by
        rintro rfl
        exact hclose t rfl
      exact refusal?_of_step (step_inGroup_eq_none hblank hstart hne)
  | cons b bs =>
    have hb : isBlank b = true := hblanks b List.mem_cons_self
    have hbs : Blanks bs := fun d hd => hblanks d (List.mem_cons_of_mem b hd)
    have hrun : run ⟨.inGroup, inputs, groups, names, []⟩ (b :: bs) =
        some ⟨.beforeName, inputs, groups, names, []⟩ :=
      run_cons (step_inGroup_blank hb) (run_blanks trivial hbs)
    rw [refusal?_append hrun]
    cases stop with
    | nil => rfl
    | cons c t =>
      obtain ⟨hblank, hstart⟩ := hstop c t rfl
      exact refusal?_of_step (step_beforeName_eq_none hblank hstart)

theorem EndsName.place_ne {n : String} (h : EndsName inputs groups names n r) : r.place ≠ .afterGroup := by
  cases h with
  | inName => exact nofun
  | afterName => exact nofun

theorem EndsName.refusal? {n : String} (h : EndsName inputs groups names n r) (hrest : r.Delimits rest)
    (hcomma : ∀ t, rest ≠ ',' :: t) (hclose : ∀ t, rest ≠ ')' :: t) : r.refusal? rest = some rest := by
  cases rest with
  | nil => exact refusal?_nil_of_place h.place_ne
  | cons c t =>
    apply refusal?_of_step
    apply hrest c t rfl
    · rintro rfl
      exact hcomma t rfl
    · rintro rfl
      exact hclose t rfl

end Reading

open Reading

section Names

variable {inputs : Option (List Core)} {groups : List Core} {names : Core}

/-- What reading a name comes to. -/
inductive ReadsName (inputs : Option (List Core)) (groups : List Core) (names : Core) (cs : List Char) :
    Except Stop (Match String) → Prop
  | taken (before : List Char) {rest : List Char} {n : String} {abandoned : Option Stop} {next : Reading}
      (split : cs = before ++ rest)
      (run : Reading.run ⟨.inGroup, inputs, groups, names, []⟩ before = some next)
      (ends : EndsName inputs groups names n next) (delimits : next.Delimits rest)
      (behind : Behind rest abandoned) : ReadsName inputs groups names cs (.ok ⟨n, rest, abandoned⟩)
  | missing {blanks stop : List Char} (split : cs = blanks ++ stop) (padding : Blanks blanks)
      (noName : NoName stop) : ReadsName inputs groups names cs (.error stop)

/-- A name is as long as it can be. -/
theorem identifier_cons {c : Char} (h : isNameStart c = true) (cs : List Char) : ∃ letters rest,
    identifier (c :: cs) = .ok ⟨String.ofList (c :: letters), rest, some rest⟩ ∧ letters ++ rest = cs ∧
      (∀ d ∈ letters, isNameRest d = true) ∧ ∀ d t, rest = d :: t → isNameRest d = false := by
  have hstart : satisfy isNameStart (c :: cs) = .ok ⟨c, cs, none⟩ := if_pos h
  have hrest : repeated (satisfy isNameRest) cs =
      .ok ⟨cs.takeWhile isNameRest, cs.dropWhile isNameRest, some (cs.dropWhile isNameRest)⟩ :=
    congrArg Except.ok (many_satisfy (Nat.lt_succ_self _))
  refine ⟨cs.takeWhile isNameRest, cs.dropWhile isNameRest, ?_, List.takeWhile_append_dropWhile,
    fun _ => List.mem_takeWhile_imp, fun _ _ => not_of_dropWhile⟩
  rw [identifier, map, andThen_of_ok hstart hrest]
  rfl

theorem identifier_eq_error {cs : List Char} (h : ∀ c t, cs = c :: t → isNameStart c = false) :
    identifier cs = .error cs := by
  have hstart : satisfy isNameStart cs = .error cs := by
    cases cs with
    | nil => rfl
    | cons c t => exact if_neg (Bool.eq_false_iff.1 (h c t rfl))
  rw [identifier, map, andThen_of_error hstart]
  rfl

/-- Blanks behind a name end it; otherwise it is the next character that does. -/
theorem exists_endsName {letters blanks rest : List Char} (hblanks : Blanks blanks) (hrest : NotBlank rest)
    (hend : ∀ d t, blanks ++ rest = d :: t → isNameRest d = false) : ∃ next,
    Reading.run ⟨.inName, inputs, groups, names, letters⟩ blanks = some next ∧
      EndsName inputs groups names (String.ofList letters) next ∧ next.Delimits rest := by
  cases blanks with
  | nil =>
    have hends : EndsName inputs groups names (String.ofList letters)
        ⟨.inName, inputs, groups, names, (String.ofList letters).toList⟩ := .inName
    rw [String.toList_ofList] at hends
    exact ⟨_, rfl, hends, fun d t hd => step_inName_eq_none (hend d t hd) (hrest d t hd)⟩
  | cons b bs =>
    have hb : isBlank b = true := hblanks b List.mem_cons_self
    have hbs : Blanks bs := fun d hd => hblanks d (List.mem_cons_of_mem b hd)
    exact ⟨_, run_cons (step_inName_blank hb) (run_blanks trivial hbs), .afterName,
      fun d t hd => step_afterName_eq_none (hrest d t hd)⟩

theorem readsName (cs : List Char) : ReadsName inputs groups names cs (dimensionName cs) := by
  obtain ⟨blanks, word, hword, rfl, hblanks, hfront⟩ := exists_blanks cs
  rw [dimensionName, padded, hword]
  by_cases hstart : ∃ c t, word = c :: t ∧ isNameStart c = true
  case neg =>
    have hnone (c : Char) (t : List Char) (hc : word = c :: t) : isNameStart c = false :=
      Bool.eq_false_iff.2 fun h => hstart ⟨c, t, hc, h⟩
    rw [identifier_eq_error hnone]
    exact .missing rfl hblanks fun c t hc => ⟨hfront c t hc, hnone c t hc⟩
  case pos =>
    obtain ⟨c, t, rfl, hc⟩ := hstart
    obtain ⟨letters, after, hname, rfl, hletters, hend⟩ := identifier_cons hc t
    obtain ⟨padding, rest, hrest, rfl, hpadding, hbehind⟩ := exists_blanks after
    have hread : Reading.run ⟨.inGroup, inputs, groups, names, []⟩ (blanks ++ c :: letters) =
        some ⟨.inName, inputs, groups, names, c :: letters⟩ := by
      rw [List.append_cons]
      exact run_append (run_nameStart hblanks hc) (run_word hletters)
    obtain ⟨next, hnext, hends, hdelimits⟩ :=
      @exists_endsName inputs groups names (c :: letters) padding rest hpadding hbehind hend
    rw [hname]
    show ReadsName inputs groups names _ (.ok ⟨_, (padding ++ rest).dropWhile isBlank, some (padding ++ rest)⟩)
    rw [hrest]
    refine .taken (blanks ++ c :: letters ++ padding) ?_ (run_append hread hnext) hends hdelimits
      (behind_self (Nat.le_refl _)).append
    simp only [List.append_assoc, List.cons_append]

/-- What stands behind names, with the stop of the attempt to go on: no comma, or one without a name. -/
inductive Hangs : List Char → Stop → Prop
  | plain {rest : List Char} (h : ∀ t, rest ≠ ',' :: t) : Hangs rest rest
  | comma {blanks stop : List Char} (padding : Blanks blanks) (noName : NoName stop) :
      Hangs (',' :: (blanks ++ stop)) stop

/-- Names have been read from a name on. -/
structure NamesRead (inputs : Option (List Core)) (groups : List Core) (r : Reading) (known : Core)
    (cs : List Char) (more : Match Core) (before : List Char) (next : Reading) : Prop where
  split : cs = before ++ more.rest
  run : r.run before = some next
  ends : ∃ names n, EndsName inputs groups names n next ∧ names ++ [n] = known ++ more.value
  delimits : next.Delimits more.rest
  behind : Behind more.rest more.abandoned

theorem namesRead {n : Nat} {cs : List Char} (hn : cs.length < n) {r : Reading} {last : String}
    (hends : EndsName inputs groups names last r) (hrest : r.Delimits cs) :
    ∃ before next, NamesRead inputs groups r (names ++ [last]) cs
        (continued dimensionName (just [',']) n cs).1 before next ∧
      Hangs (continued dimensionName (just [',']) n cs).1.rest
        (continued dimensionName (just [',']) n cs).2 := by
  induction n generalizing cs r names last with
  | zero => cases hn
  | succ n ih =>
    have hstay (abandoned : Option Stop) (hbehind : Behind cs abandoned) :
        NamesRead inputs groups r (names ++ [last]) cs ⟨[], cs, abandoned⟩ [] r :=
      ⟨rfl, rfl, ⟨names, last, hends, (List.append_nil _).symm⟩, hrest, hbehind⟩
    by_cases hcomma : ∃ t, cs = ',' :: t
    case neg =>
      have hnone : ∀ t, cs ≠ ',' :: t := fun t h => hcomma ⟨t, h⟩
      rw [continued, just_singleton_of_ne hnone]
      exact ⟨[], r, hstay none (behind_none _), .plain hnone⟩
    case pos =>
      obtain ⟨t, rfl⟩ := hcomma
      rw [continued, just_singleton_self]
      dsimp only
      have hname := @readsName inputs groups (names ++ [last]) t
      generalize dimensionName t = result at hname
      cases hname with
      | missing split padding noName =>
        subst split
        exact ⟨[], r, hstay none (behind_none _), .comma padding noName⟩
      | @taken before rest name abandoned next split run ends delimits behind =>
        subst split
        have hshort : rest.length < n := by
          rw [List.length_cons, List.length_append] at hn
          omega
        obtain ⟨before', next', hmore, hhangs⟩ := ih hshort ends delimits
        dsimp only
        generalize continued dimensionName (just [',']) n rest = more at hmore hhangs
        obtain ⟨more, stop⟩ := more
        obtain ⟨split', run', ⟨names', n', ends', hnames⟩, delimits', behind'⟩ := hmore
        replace split' : rest = before' ++ more.rest := split'
        refine ⟨',' :: (before ++ before'), next',
          ⟨?_, ?_, ⟨names', n', ends', ?_⟩, delimits', ?_⟩, hhangs⟩
        · rw [split', List.cons_append, List.append_assoc]
        · exact run_cons hends.step_comma (run_append run run')
        · rw [hnames, List.append_assoc, List.append_assoc, List.append_assoc]
          rfl
        · rw [split'] at behind
          exact ((behind_none _).furthest? behind.append).furthest? behind'

/-- What a group holds, up to its end or to where there is none. -/
inductive ReadsNames (inputs : Option (List Core)) (groups : List Core) (cs : List Char) :
    Except Stop (Match Core) → Prop
  | closed (before : List Char) {rest : List Char} {ns : Core} {abandoned : Option Stop}
      (split : cs = before ++ rest)
      (run : Reading.run ⟨.inGroup, inputs, groups, [], []⟩ before =
        some ⟨.afterGroup, inputs, groups ++ [ns], [], []⟩)
      (behind : Behind rest abandoned) : ReadsNames inputs groups cs (.ok ⟨ns, ')' :: rest, abandoned⟩)
  | stuck {rest : List Char} {ns : Core} {abandoned : Option Stop} (unclosed : ∀ t, rest ≠ ')' :: t)
      (refused : Reading.refusal? ⟨.inGroup, inputs, groups, [], []⟩ cs = some (further rest abandoned)) :
      ReadsNames inputs groups cs (.ok ⟨ns, rest, abandoned⟩)

/-- The end of a group has no blanks in front of it. -/
theorem close_cases {blanks : List Char} (h : Blanks blanks) (stop : List Char) :
    (blanks = [] ∧ ∃ t, stop = ')' :: t) ∨ ∀ t, blanks ++ stop ≠ ')' :: t := by
  cases blanks with
  | nil =>
    by_cases hclose : ∃ t, stop = ')' :: t
    · exact .inl ⟨rfl, hclose⟩
    · exact .inr fun t ht => hclose ⟨t, ht⟩
  | cons b bs =>
    refine .inr fun t ht => ?_
    cases ht
    exact absurd (h ')' List.mem_cons_self) (by decide)

/-- What stands behind the names of a group: its end, perhaps behind a comma, or what is refused. -/
theorem readsTrailing {before rest : List Char} {stop : Stop} {next : Reading} {n : String}
    {abandoned : Option Stop}
    (hread : Reading.run ⟨.inGroup, inputs, groups, [], []⟩ before = some next)
    (hends : EndsName inputs groups names n next) (hrest : next.Delimits rest) (hhangs : Hangs rest stop)
    (hbehind : Behind rest abandoned) : ReadsNames inputs groups (before ++ rest)
      (.ok { trailing (just [',']) ⟨names ++ [n], rest, abandoned⟩ with
        abandoned := furthest? (trailing (just [',']) ⟨names ++ [n], rest, abandoned⟩).abandoned
          (some stop) }) := by
  cases hhangs with
  | plain hcomma =>
    rw [trailing_of_ne hcomma]
    have hself : Behind rest (some rest) := behind_self (Nat.le_refl _)
    have hall := (hbehind.furthest? hself).furthest? hself
    have hnoBlanks : Blanks [] := List.forall_mem_nil _
    rcases close_cases hnoBlanks rest with ⟨-, t, rfl⟩ | hnone
    · refine .closed (before ++ [')']) ?_ ?_ (hall.shorter (Nat.le_succ _))
      · rw [List.append_assoc]
        rfl
      · exact run_append hread (run_cons hends.step_close rfl)
    · refine .stuck hnone ?_
      rw [further_of_behind hall, refusal?_append hread]
      exact hends.refusal? hrest hcomma hnone
  | @comma blanks stop padding noName =>
    rw [trailing_self]
    have hshort : Behind (blanks ++ stop) abandoned := hbehind.shorter (Nat.le_succ _)
    rcases close_cases padding stop with ⟨rfl, t, rfl⟩ | hnone
    · refine .closed (before ++ [',', ')']) ?_ ?_ ?_
      · rw [List.append_assoc]
        rfl
      · exact run_append hread (run_cons hends.step_comma rfl)
      · exact (hshort.shorter (Nat.le_succ _)).furthest? (behind_self (Nat.le_succ _))
    · refine .stuck hnone ?_
      rw [further_furthest? hshort, refusal?_append hread, Reading.refusal?, hends.step_comma]
      exact refusal?_inGroup padding noName hnone

theorem readsNames (cs : List Char) :
    ReadsNames inputs groups cs (separatedBy dimensionName (just [',']) true 0 cs) := by
  unfold separatedBy
  have hname := @readsName inputs groups [] cs
  generalize dimensionName cs = result at hname
  cases hname with
  | @missing blanks stop split padding noName =>
    subst split
    rcases close_cases padding stop with ⟨rfl, t, rfl⟩ | hnone
    · exact .closed [')'] rfl rfl (behind_self (Nat.le_succ _))
    · refine .stuck hnone ?_
      have hfurther : further (blanks ++ stop) (furthest? none (some stop)) = stop :=
        further_furthest? (behind_none _)
      rw [show (furthest? none (some stop)) = some stop from rfl] at hfurther
      rw [hfurther]
      exact refusal?_inGroup padding noName hnone
  | @taken before rest name abandoned next split run ends delimits behind =>
    subst split
    dsimp only
    obtain ⟨before', next', hmore, hhangs⟩ := namesRead (Nat.lt_succ_self rest.length) ends delimits
    generalize continued dimensionName (just [',']) (rest.length + 1) rest = more at hmore hhangs
    obtain ⟨⟨value, rest', abandoned'⟩, stop⟩ := more
    obtain ⟨split', run', ⟨names', n', ends', hnames⟩, delimits', behind'⟩ := hmore
    dsimp only at split' behind' hhangs delimits' ⊢
    replace hnames : names' ++ [n'] = name :: value := hnames
    subst split'
    rw [if_pos rfl, if_pos (Nat.zero_le _), ← hnames, ← List.append_assoc]
    exact readsTrailing (run_append run run') ends' delimits' hhangs (behind.append.furthest? behind')

end Names

section Groups

variable {inputs : Option (List Core)} {groups : List Core} {cs : List Char}

/-- What reading a group comes to. -/
inductive ReadsGroup (inputs : Option (List Core)) (groups : List Core) (cs : List Char) :
    Except Stop (Match Core) → Prop
  | taken (before : List Char) {rest : List Char} {core : Core} {abandoned : Option Stop}
      (split : cs = before ++ rest)
      (run : Reading.run ⟨.beforeGroup, inputs, groups, [], []⟩ before =
        some ⟨.afterGroup, inputs, groups ++ [core], [], []⟩)
      (behind : Behind rest abandoned) : ReadsGroup inputs groups cs (.ok ⟨core, rest, abandoned⟩)
  | refused {stop : Stop} (refused : Reading.refusal? ⟨.beforeGroup, inputs, groups, [], []⟩ cs = some stop) :
      ReadsGroup inputs groups cs (.error stop)

theorem readsGroup (h : NotBlank cs) : ReadsGroup inputs groups cs (coreGroup cs) := by
  unfold coreGroup delimitedBy thenIgnore
  by_cases hopen : ∃ t, cs = '(' :: t
  case neg =>
    have hnone : ∀ t, cs ≠ '(' :: t := fun t ht => hopen ⟨t, ht⟩
    have hopened : map Prod.snd (andThen (just ['(']) (separatedBy dimensionName (just [',']) true 0)) cs =
        .error cs := by
      rw [map, andThen_of_error (just_singleton_of_ne hnone)]
      rfl
    rw [map, andThen_of_error hopened]
    refine .refused ?_
    cases cs with
    | nil => rfl
    | cons c t =>
      have hne : c ≠ '(' := by
        rintro rfl
        exact hnone t rfl
      exact refusal?_of_step (step_beforeGroup_eq_none (h c t rfl) hne)
  case pos =>
    obtain ⟨t, rfl⟩ := hopen
    have hnames := @readsNames inputs groups t
    have hopened (m : Match Core) (hm : separatedBy dimensionName (just [',']) true 0 t = .ok m) :
        map Prod.snd (andThen (just ['(']) (separatedBy dimensionName (just [',']) true 0)) ('(' :: t) =
          .ok m := by
      rw [map, andThen_of_ok (just_singleton_self '(' t) hm]
      rfl
    generalize separatedBy dimensionName (just [',']) true 0 t = result at hnames hopened
    cases hnames with
    | @closed before rest ns abandoned split run behind =>
      rw [map, andThen_of_ok (hopened _ rfl) (just_singleton_self ')' rest)]
      show ReadsGroup inputs groups _ (.ok ⟨ns, rest, furthest? abandoned none⟩)
      rw [furthest?_none]
      exact .taken ('(' :: before) (congrArg ('(' :: ·) split) (run_cons rfl run) behind
    | stuck unclosed refused =>
      rw [map, andThen_of_stop (hopened _ rfl) (just_singleton_of_ne unclosed)]
      exact .refused refused

theorem readsPaddedGroup (cs : List Char) : ReadsGroup inputs groups cs (padded coreGroup cs) ∧
    ∀ m, padded coreGroup cs = .ok m → NotBlank m.rest := by
  obtain ⟨blanks, front, hdrop, rfl, hblanks, hfront⟩ := exists_blanks cs
  have hskip := run_blanks (r := ⟨.beforeGroup, inputs, groups, [], []⟩) trivial hblanks
  have hgroup := @readsGroup inputs groups front hfront
  rw [padded, hdrop]
  generalize coreGroup front = result at hgroup
  cases hgroup with
  | refused refused =>
    refine ⟨.refused ?_, nofun⟩
    rw [refusal?_append hskip]
    exact refused
  | @taken before rest core abandoned split run behind =>
    obtain ⟨padding, after, hdrop', rfl, hpadding, hrest⟩ := exists_blanks rest
    subst split
    show ReadsGroup inputs groups _ (.ok ⟨core, (padding ++ after).dropWhile isBlank, abandoned⟩) ∧
      ∀ m : Match Core, Except.ok ⟨core, (padding ++ after).dropWhile isBlank, abandoned⟩ = Except.ok m →
        NotBlank m.rest
    rw [hdrop']
    constructor
    case left =>
      refine .taken (blanks ++ (before ++ padding)) ?_ ?_ behind.append
      · rw [List.append_assoc, List.append_assoc]
      · exact run_append hskip (run_append run (run_blanks trivial hpadding))
    case right =>
      intro m hm
      cases hm
      exact hrest

/-- Groups have been read from a group on. What is left is refused where the attempt to go on behind a comma has
stopped, or there is no comma. -/
structure GroupsRead (inputs : Option (List Core)) (known : List Core) (cs : List Char)
    (more : Match (List Core)) (stop : Stop) (before : List Char) : Prop where
  split : cs = before ++ more.rest
  run : Reading.run ⟨.afterGroup, inputs, known, [], []⟩ before =
    some ⟨.afterGroup, inputs, known ++ more.value, [], []⟩
  front : NotBlank more.rest
  behind : Behind more.rest more.abandoned
  stop : (∀ t, more.rest ≠ ',' :: t) ∧ stop = more.rest ∨
    Reading.refusal? ⟨.afterGroup, inputs, known ++ more.value, [], []⟩ more.rest = some stop ∧
      ∃ before, more.rest = ',' :: (before ++ stop)

theorem groupsRead {n : Nat} (hn : cs.length < n) (hcs : NotBlank cs) : ∃ before,
    GroupsRead inputs groups cs (continued (padded coreGroup) (just [',']) n cs).1
      (continued (padded coreGroup) (just [',']) n cs).2 before := by
  induction n generalizing cs groups with
  | zero => cases hn
  | succ n ih =>
    have hrun : Reading.run ⟨.afterGroup, inputs, groups, [], []⟩ [] =
        some ⟨.afterGroup, inputs, groups ++ [], [], []⟩ := by
      rw [List.append_nil]
      rfl
    by_cases hcomma : ∃ t, cs = ',' :: t
    case neg =>
      have hnone : ∀ t, cs ≠ ',' :: t := fun t h => hcomma ⟨t, h⟩
      rw [continued, just_singleton_of_ne hnone]
      exact ⟨[], rfl, hrun, hcs, behind_none _, .inl ⟨hnone, rfl⟩⟩
    case pos =>
      obtain ⟨t, rfl⟩ := hcomma
      rw [continued, just_singleton_self]
      dsimp only
      obtain ⟨hgroup, hfront⟩ := @readsPaddedGroup inputs groups t
      generalize padded coreGroup t = result at hgroup hfront
      cases hgroup with
      | @refused stop refused =>
        obtain ⟨before, -, hbefore, -⟩ := of_refusal? refused
        refine ⟨[], rfl, hrun, hcs, behind_none _, .inr ⟨?_, before, congrArg (',' :: ·) hbefore⟩⟩
        rw [List.append_nil]
        exact refused
      | @taken before rest core abandoned split run behind =>
        subst split
        have hshort : rest.length < n := by
          rw [List.length_cons, List.length_append] at hn
          omega
        obtain ⟨before', hmore⟩ := @ih (groups ++ [core]) rest hshort (hfront _ rfl)
        dsimp only
        generalize continued (padded coreGroup) (just [',']) n rest = more at hmore
        obtain ⟨⟨value, rest', abandoned'⟩, stop⟩ := more
        obtain ⟨split', run', front', behind', stop'⟩ := hmore
        dsimp only at split' run' front' behind' stop'
        rw [List.append_assoc] at run' stop'
        subst split'
        refine ⟨',' :: (before ++ before'), ?_, run_cons rfl (run_append run run'), front', ?_, stop'⟩
        · rw [List.cons_append, List.append_assoc]
        · exact ((behind_none _).furthest? behind.append).furthest? behind'

/-- What reading the groups of one side comes to. Behind a comma that no group follows, the text is refused at the
place that has been given up. -/
inductive ReadsGroups (inputs : Option (List Core)) (cs : List Char) : Except Stop (Match (List Core)) → Prop
  | taken (before : List Char) {rest : List Char} {cores : List Core} {abandoned : Option Stop}
      (split : cs = before ++ rest)
      (run : Reading.run ⟨.beforeGroup, inputs, [], [], []⟩ before =
        some ⟨.afterGroup, inputs, cores, [], []⟩)
      (front : NotBlank rest) (harmless : Harmless ⟨.afterGroup, inputs, cores, [], []⟩ rest abandoned)
      (comma : ∀ t, rest = ',' :: t →
        ∃ stop, abandoned = some stop ∧
          Reading.refusal? ⟨.afterGroup, inputs, cores, [], []⟩ rest = some stop) :
      ReadsGroups inputs cs (.ok ⟨cores, rest, abandoned⟩)
  | refused {stop : Stop} (refused : Reading.refusal? ⟨.beforeGroup, inputs, [], [], []⟩ cs = some stop) :
      ReadsGroups inputs cs (.error stop)

theorem readsGroups (cs : List Char) : ReadsGroups inputs cs (coreGroups cs) := by
  unfold coreGroups separatedBy
  obtain ⟨hgroup, hfront⟩ := @readsPaddedGroup inputs [] cs
  generalize padded coreGroup cs = result at hgroup hfront
  cases hgroup with
  | refused refused => exact .refused refused
  | @taken before rest core abandoned split run behind =>
    subst split
    dsimp only
    obtain ⟨before', hmore⟩ := @groupsRead inputs [core] _ _
      (Nat.lt_succ_self rest.length) (hfront _ rfl)
    generalize continued (padded coreGroup) (just [',']) (rest.length + 1) rest = more at hmore
    obtain ⟨⟨value, rest', abandoned'⟩, stop⟩ := more
    obtain ⟨split', run', front', behind', hstop⟩ := hmore
    dsimp only at split' run' front' behind' hstop ⊢
    subst split'
    have hearlier : Behind rest' (furthest? abandoned abandoned') := behind.append.furthest? behind'
    generalize furthest? abandoned abandoned' = earlier at hearlier
    have hcount : 1 ≤ (core :: value).length := Nat.le_add_left 1 _
    rw [if_neg Bool.false_ne_true, if_pos hcount]
    refine .taken (before ++ before') ?_ (run_append run run') front' ?_ ?_
    case refine_1 => rw [List.append_assoc]
    case refine_2 =>
      intro stop' hstop'
      rcases furthest?_eq_some hstop' with hsome | hsome
      · exact .inl (hearlier stop' hsome)
      · cases hsome
        rcases hstop with ⟨-, rfl⟩ | ⟨hrefused, -⟩
        · exact .inl (Nat.le_refl _)
        · exact .inr hrefused
    case refine_3 =>
      intro t ht
      rcases hstop with ⟨hnone, -⟩ | ⟨hrefused, before, hrest⟩
      · exact absurd ht (hnone t)
      · refine ⟨stop, ?_, hrefused⟩
        cases earlier with
        | none => rfl
        | some first =>
          have hlonger := hearlier first rfl
          rw [hrest, List.length_cons, List.length_append] at hlonger
          exact congrArg some (if_pos (by omega))

end Groups

section Text

/-- What reading a whole text comes to. -/
inductive ReadsText (cs : List Char) :
    Except Stop (Match (List Core × List Core × List Char × List Char)) → Prop
  | taken {left right : List Char} {inputs outputs : List Core} {abandoned : Option Stop}
      (split : cs = left ++ '-' :: '>' :: right)
      (front : Reading.start.run left = some ⟨.afterGroup, none, inputs, [], []⟩)
      (back : Reading.run ⟨.beforeGroup, some inputs, [], [], []⟩ right =
        some ⟨.afterGroup, some inputs, outputs, [], []⟩) :
      ReadsText cs (.ok ⟨(inputs, outputs, right, []), [], abandoned⟩)
  | refused {stop : Stop} (refused : Reading.start.refusal? cs = some stop) : ReadsText cs (.error stop)

/-- What stands behind groups: an arrow, or where the text is refused. -/
theorem just_arrow {cores : List Core} {rest : List Char} {abandoned : Option Stop} (hfront : NotBlank rest)
    (hharmless : Harmless ⟨.afterGroup, none, cores, [], []⟩ rest abandoned)
    (hcomma : ∀ t, rest = ',' :: t →
      Reading.refusal? ⟨.afterGroup, none, cores, [], []⟩ rest = some (further rest abandoned)) :
    (∃ t, rest = '-' :: '>' :: t ∧ just ['-', '>'] rest = .ok ⟨(), t, none⟩) ∨
      ∃ stop, just ['-', '>'] rest = .error stop ∧
        Reading.refusal? ⟨.afterGroup, none, cores, [], []⟩ rest = some (further stop abandoned) := by
  cases rest with
  | nil =>
    have hrefused : Reading.refusal? ⟨.afterGroup, none, cores, [], []⟩ [] = some [] := rfl
    exact .inr ⟨[], rfl, by rw [hharmless.further_eq hrefused, hrefused]⟩
  | cons c t =>
    by_cases hdash : c = '-'
    case neg =>
      refine .inr ⟨c :: t, if_neg hdash, ?_⟩
      by_cases hc : c = ','
      · subst hc
        exact hcomma t rfl
      · have hrefused : Reading.refusal? ⟨.afterGroup, none, cores, [], []⟩ (c :: t) = some (c :: t) :=
          refusal?_of_step (step_afterGroup_eq_none (hfront c t rfl) hc fun h => absurd h hdash)
        rw [hharmless.further_eq hrefused, hrefused]
    case pos =>
      subst hdash
      have hread : Reading.run ⟨.afterGroup, none, cores, [], []⟩ ['-'] =
          some ⟨.inArrow, none, cores, [], []⟩ := rfl
      have hdash : Harmless ⟨.afterGroup, none, cores, [], []⟩ (['-'] ++ t) abandoned := hharmless
      have hbehind := hdash.read hread
      have hafter (stop : Stop)
          (h : Reading.refusal? ⟨.inArrow, none, cores, [], []⟩ t = some stop) :
          Reading.refusal? ⟨.afterGroup, none, cores, [], []⟩ ('-' :: t) = some (further stop abandoned) := by
        rw [hbehind.further_eq h]
        exact h
      cases t with
      | nil => exact .inr ⟨[], rfl, hafter [] rfl⟩
      | cons d t =>
        by_cases hend : d = '>'
        case pos =>
          subst hend
          exact .inl ⟨t, rfl, rfl⟩
        case neg =>
          refine .inr ⟨d :: t, (if_pos rfl).trans (if_neg hend), hafter (d :: t) ?_⟩
          exact refusal?_of_step (if_neg hend)

/-- What stands behind the groups of the right side: nothing, or where the text is refused. -/
theorem atEnd_refused {inputs cores : List Core} {rest : List Char} {abandoned : Option Stop}
    (hfront : NotBlank rest) (hharmless : Harmless ⟨.afterGroup, some inputs, cores, [], []⟩ rest abandoned)
    (hcomma : ∀ t, rest = ',' :: t →
      Reading.refusal? ⟨.afterGroup, some inputs, cores, [], []⟩ rest = some (further rest abandoned)) :
    rest = [] ∨ atEnd rest = .error rest ∧
      Reading.refusal? ⟨.afterGroup, some inputs, cores, [], []⟩ rest = some (further rest abandoned) := by
  cases rest with
  | nil => exact .inl rfl
  | cons c t =>
    refine .inr ⟨rfl, ?_⟩
    by_cases hc : c = ','
    · subst hc
      exact hcomma t rfl
    · have hrefused : Reading.refusal? ⟨.afterGroup, some inputs, cores, [], []⟩ (c :: t) =
          some (c :: t) :=
        refusal?_of_step (step_afterGroup_eq_none (hfront c t rfl) hc fun _ => Option.some_ne_none inputs)
      rw [hharmless.further_eq hrefused, hrefused]

/-- What reading the left side and the arrow comes to. -/
inductive ReadsLeft (cs : List Char) : Except Stop (Match (List Core)) → Prop
  | taken {left right : List Char} {inputs : List Core} {abandoned : Option Stop}
      (split : cs = left ++ '-' :: '>' :: right)
      (front : Reading.start.run left = some ⟨.afterGroup, none, inputs, [], []⟩)
      (harmless : Harmless ⟨.beforeGroup, some inputs, [], [], []⟩ right abandoned) :
      ReadsLeft cs (.ok ⟨inputs, right, abandoned⟩)
  | refused {stop : Stop} (refused : Reading.start.refusal? cs = some stop) : ReadsLeft cs (.error stop)

theorem readsLeft (cs : List Char) : ReadsLeft cs (thenIgnore coreGroups (just ['-', '>']) cs) := by
  unfold thenIgnore
  have hleft := @readsGroups none cs
  generalize hinputs : coreGroups cs = result at hleft
  cases hleft with
  | refused refused =>
    rw [map, andThen_of_error hinputs]
    exact .refused refused
  | @taken before rest inputs abandoned split run front harmless comma =>
    subst split
    have hcomma (t : List Char) (ht : rest = ',' :: t) :
        Reading.refusal? ⟨.afterGroup, none, inputs, [], []⟩ rest = some (further rest abandoned) := by
      obtain ⟨stop, rfl, hrefused⟩ := comma t ht
      exact hrefused.trans (congrArg some
        (Harmless.further_rest (harmless_of_behind (behind_none rest)) hrefused).symm)
    rcases just_arrow front harmless hcomma with ⟨t, rfl, harrow⟩ | ⟨stop, harrow, hrefused⟩
    case inl =>
      have hread : Reading.run ⟨.afterGroup, none, inputs, [], []⟩ ['-', '>'] =
          some ⟨.beforeGroup, some inputs, [], [], []⟩ := rfl
      have harrowed : Harmless ⟨.afterGroup, none, inputs, [], []⟩ (['-', '>'] ++ t) abandoned := harmless
      rw [map, andThen_of_ok hinputs harrow, furthest?_none]
      exact .taken rfl run (harrowed.read hread)
    case inr =>
      rw [map, andThen_of_stop hinputs harrow]
      refine .refused ?_
      rw [Reading.start, refusal?_append run]
      exact hrefused

theorem readsText (cs : List Char) : ReadsText cs (signatureText cs) := by
  unfold signatureText
  rw [thenIgnore]
  have hleft := readsLeft cs
  generalize hfront : thenIgnore coreGroups (just ['-', '>']) cs = result at hleft
  cases hleft with
  | refused refused =>
    rw [map, andThen_of_error (andThen_of_error hfront)]
    exact .refused refused
  | @taken before t inputs abandoned split run harmless =>
    subst split
    have hrefuse (stop : Stop)
        (h : Reading.refusal? ⟨.beforeGroup, some inputs, [], [], []⟩ t = some stop) :
        Reading.start.refusal? (before ++ '-' :: '>' :: t) = some stop := by
      rw [refusal?_append run]
      exact h
    have hright := @readsGroups (some inputs) t
    generalize houtputs : coreGroups t = result at hright
    cases hright with
    | @refused stop refused =>
      rw [map, andThen_of_error (andThen_of_stop hfront (by rw [spanned, houtputs]; rfl)),
        harmless.further_eq refused]
      exact .refused (hrefuse stop refused)
    | @taken middle rest outputs abandoned' split run' front' harmless' comma' =>
      subst split
      have hback : spanned coreGroups (middle ++ rest) =
          .ok ⟨(outputs, middle ++ rest, rest), rest, abandoned'⟩ := by
        rw [spanned, houtputs]
        rfl
      have hboth := andThen_of_ok hfront hback
      have hall : Harmless ⟨.afterGroup, some inputs, outputs, [], []⟩ rest
          (furthest? abandoned abandoned') := by
        intro stop hstop
        exact (furthest?_eq_some hstop).elim (harmless.read run' stop) (harmless' stop)
      have hcomma' (t : List Char) (ht : rest = ',' :: t) :
          Reading.refusal? ⟨.afterGroup, some inputs, outputs, [], []⟩ rest =
            some (further rest (furthest? abandoned abandoned')) := by
        obtain ⟨stop, rfl, hrefused⟩ := comma' t ht
        exact hrefused.trans (congrArg some ((harmless.read run').further_rest hrefused).symm)
      rcases atEnd_refused front' hall hcomma' with rfl | ⟨hend, hrefused⟩
      case inl =>
        rw [map, andThen_of_ok hboth (show atEnd [] = .ok ⟨(), [], none⟩ from rfl)]
        rw [List.append_nil] at *
        exact .taken rfl run run'
      case inr =>
        rw [map, andThen_of_stop hboth hend]
        refine .refused (hrefuse _ ?_)
        rw [refusal?_append run']
        exact hrefused

/-- What parsing a text comes to, in terms of a reading of it. -/
inductive Parsed (text : String) : Except ParseError CoreSignature → Prop
  | read {inputs : List Core} {output : Core} (whole : Reading.start.run text.toList =
      some ⟨.afterGroup, some inputs, [output], [], []⟩) : Parsed text (.ok ⟨inputs, output⟩)
  | several {left right : List Char} {inputs outputs : List Core}
      (split : text.toList = left ++ '-' :: '>' :: right) (count : outputs.length ≠ 1)
      (front : Reading.start.run left = some ⟨.afterGroup, none, inputs, [], []⟩)
      (back : Reading.run ⟨.beforeGroup, some inputs, [], [], []⟩ right =
        some ⟨.afterGroup, some inputs, outputs, [], []⟩) :
      Parsed text (.error ⟨text, (left ++ ['-', '>']).length, text.toList.length,
        .outputGroups outputs.length⟩)
  | unexpected {before after : List Char} {c : Char} {r : Reading} (split : text.toList = before ++ c :: after)
      (front : Reading.start.run before = some r) (refused : r.step c = none) :
      Parsed text (.error ⟨text, before.length, before.length + 1, .unexpected c⟩)
  | ended {r : Reading} (whole : Reading.start.run text.toList = some r) (unfinished : r.finished? = none) :
      Parsed text (.error ⟨text, text.toList.length, text.toList.length, .unexpectedEnd⟩)

theorem parsed (text : String) : Parsed text (parse text) := by
  have htext := readsText text.toList
  unfold parse
  dsimp only
  generalize signatureText text.toList = result at htext
  cases htext with
  | @refused stop refused =>
    obtain ⟨before, r, hsplit, hrun, hend, hstep⟩ := of_refusal? refused
    cases stop with
    | nil =>
      rw [List.append_nil] at hsplit
      subst hsplit
      exact .ended hrun (hend rfl)
    | cons c rest =>
      have hplace : text.toList.length - (c :: rest).length = before.length := by
        rw [hsplit, List.length_append, Nat.add_sub_cancel]
      dsimp only
      rw [hplace]
      exact .unexpected hsplit hrun (hstep c rest rfl)
  | @taken left right inputs outputs abandoned split front back =>
    have hwhole : Reading.start.run text.toList =
        some ⟨.afterGroup, some inputs, outputs, [], []⟩ := by
      rw [split]
      exact run_append front (run_cons rfl (run_cons rfl back))
    have hplace : text.toList.length - right.length = (left ++ ['-', '>']).length := by
      rw [split, List.length_append, List.length_append, List.length_cons, List.length_cons]
      simp only [List.length_cons, List.length_nil]
      omega
    by_cases hcount : ∃ output, outputs = [output]
    case pos =>
      obtain ⟨output, rfl⟩ := hcount
      exact .read hwhole
    case neg =>
      have hother : outputs.length ≠ 1 := fun h => hcount (List.length_eq_one_iff.1 h)
      split
      case h_1 heq => cases heq
      case h_2 heq => cases heq
      case h_3 heq =>
        cases heq
        exact absurd ⟨_, rfl⟩ hcount
      case h_4 heq =>
        cases heq
        rw [hplace]
        exact .several split hother front back

end Text

end Corewise.CoreSignature
