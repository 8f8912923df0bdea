import Corewise.Dispatch
import Mathlib.Data.List.Forall2
/-!
How a loop is selected. Loops with exactly the types of a query come before those that only admit them, and
of either kind the earliest is taken. So a loop that is added behind others takes over no query but those that
had no loop, and those that it has exactly the types of and no other loop before had.
-/

namespace Corewise

/-- The first element of the list of which `p` holds. -/
def FirstWith {α : Type} (p : α → Prop) (l : List α) (a : α) : Prop :=
  ∃ before after, l = before ++ a :: after ∧ p a ∧ ∀ b ∈ before, ¬ p b

theorem FirstWith.mem {α : Type} {p : α → Prop} {l : List α} {a : α} (h : FirstWith p l a) :
    a ∈ l := by
  obtain ⟨before, after, rfl, -⟩ := h
  exact List.mem_append_right before List.mem_cons_self

theorem FirstWith.holds {α : Type} {p : α → Prop} {l : List α} {a : α} (h : FirstWith p l a) : p a := by
  obtain ⟨-, -, -, ha, -⟩ := h
  exact ha

theorem find?_eq_some_iff_firstWith {α : Type} {p : α → Bool} {q : α → Prop}
    (hpq : ∀ a, p a = true ↔ q a) {l : List α} {a : α} :
    l.find? p = some a ↔ FirstWith q l a := by
  rw [List.find?_eq_some_iff_append]
  constructor
  case mp =>
    rintro ⟨ha, before, after, hl, hbefore⟩
    refine ⟨before, after, hl, (hpq a).1 ha, fun b hb hqb => ?_⟩
    have hnot := hbefore b hb
    rw [(hpq b).2 hqb] at hnot
    cases hnot
  case mpr =>
    rintro ⟨before, after, hl, ha, hbefore⟩
    refine ⟨(hpq a).2 ha, before, after, hl, fun b hb => ?_⟩
    rw [Bool.not_eq_true', Bool.eq_false_iff]
    exact fun hpb => hbefore b hb ((hpq b).1 hpb)

theorem find?_eq_none_iff {α : Type} {p : α → Bool} {q : α → Prop} (hpq : ∀ a, p a = true ↔ q a)
    {l : List α} : l.find? p = none ↔ ∀ a ∈ l, ¬ q a := by
  rw [List.find?_eq_none]
  exact forall₂_congr fun a _ => not_congr (hpq a)

namespace LoopTypes

variable {l : LoopTypes} {inputs outputs : List DType}

/-- The loop has these inputs, and its first outputs are these. -/
structure Has (l : LoopTypes) (inputs outputs : List DType) : Prop where
  inputs : l.inputs = inputs
  outputs : outputs <+: l.outputs

/-- The inputs cast safely to those of the loop, one for one, and each of the outputs can store what the loop
puts out in its place. -/
structure Admits (l : LoopTypes) (inputs outputs : List DType) : Prop where
  inputs : List.Forall₂ (fun given taken => given.castsSafely taken = true) inputs l.inputs
  outputs : List.Forall₂ (fun given made => made.castsWithinKind given = true) outputs
    (l.outputs.take outputs.length)

theorem isExact_iff : l.isExact inputs outputs = true ↔ l.Has inputs outputs := by
  rw [isExact, Bool.and_eq_true, beq_iff_eq, List.isPrefixOf_iff_prefix]
  exact ⟨fun h => ⟨h.1, h.2⟩, fun h => ⟨h.inputs, h.outputs⟩⟩

theorem forall₂_take_iff {R : DType → DType → Bool} (xs ys : List DType) :
    List.Forall₂ (fun x y => R x y = true) xs (ys.take xs.length) ↔
      xs.length ≤ ys.length ∧ (xs.zip ys).all (fun p => R p.1 p.2) = true := by
  induction xs generalizing ys with
  | nil => simp
  | cons x xs ih =>
    cases ys with
    | nil => simp
    | cons y ys => simp [ih, and_left_comm]

theorem accepts_iff : l.accepts inputs outputs = true ↔ l.Admits inputs outputs := by
  have hinputs : List.Forall₂ (fun given taken => given.castsSafely taken = true) inputs l.inputs ↔
      l.inputs.length = inputs.length ∧
        (inputs.zip l.inputs).all (fun p => p.1.castsSafely p.2) = true := by
    constructor
    case mp =>
      intro h
      have hlength := h.length_eq
      rw [← l.inputs.take_length, ← hlength, forall₂_take_iff] at h
      exact ⟨hlength.symm, h.2⟩
    case mpr =>
      rintro ⟨hlength, hall⟩
      rw [← l.inputs.take_length, hlength, forall₂_take_iff]
      exact ⟨Nat.le_of_eq hlength.symm, hall⟩
  rw [accepts, Bool.and_eq_true, Bool.and_eq_true, Bool.and_eq_true, beq_iff_eq, decide_eq_true_iff,
    ← hinputs, and_assoc,
    ← forall₂_take_iff (R := fun given made => made.castsWithinKind given) outputs l.outputs]
  exact ⟨fun h => ⟨h.1, h.2⟩, fun h => ⟨h.inputs, h.outputs⟩⟩

instance : Decidable (l.Has inputs outputs) := decidable_of_iff _ isExact_iff

instance : Decidable (l.Admits inputs outputs) := decidable_of_iff _ accepts_iff

end LoopTypes

namespace Dispatch

variable {α : Type} {types : α → LoopTypes} {loops more : List α} {arity : Nat} {query : List DType}
  {loop : α}

/-- The loop has exactly the types that a query names: the inputs, and after them outputs. -/
def Exact (types : α → LoopTypes) (arity : Nat) (query : List DType) (loop : α) : Prop :=
  (types loop).Has (query.take arity) (query.drop arity)

/-- The casting rules let the loop take the types that a query names. -/
def Compatible (types : α → LoopTypes) (arity : Nat) (query : List DType) (loop : α) : Prop :=
  (types loop).Admits (query.take arity) (query.drop arity)

instance : Decidable (Exact types arity query loop) := inferInstanceAs (Decidable (LoopTypes.Has ..))

instance : Decidable (Compatible types arity query loop) :=
  inferInstanceAs (Decidable (LoopTypes.Admits ..))

theorem select_of_lt (hlen : query.length < arity) : select types loops arity query = none :=
  if_pos hlen

theorem select_of_le (hlen : arity ≤ query.length) : select types loops arity query =
    (loops.find? fun l => (types l).isExact (query.take arity) (query.drop arity)).or
      (loops.find? fun l => (types l).accepts (query.take arity) (query.drop arity)) := by
  unfold select
  rw [if_neg (Nat.not_lt.2 hlen)]
  dsimp only
  split
  case h_1 found => rw [found, Option.some_or]
  case h_2 hnone => rw [hnone, Option.none_or]

theorem le_of_select (h : select types loops arity query = some loop) : arity ≤ query.length := by
  rcases Nat.lt_or_ge query.length arity with hlt | hge
  · rw [select_of_lt hlt] at h
    cases h
  · exact hge

theorem select_of_exact (hlen : arity ≤ query.length)
    (h : (loops.find? fun l => (types l).isExact (query.take arity) (query.drop arity)) = some loop) :
    select types loops arity query = some loop := by
  rw [select_of_le hlen, h, Option.some_or]

theorem find?_of_select (h : select types loops arity query = some loop) : arity ≤ query.length ∧
    (loops.find? (fun l => (types l).isExact (query.take arity) (query.drop arity)) = some loop ∨
      loops.find? (fun l => (types l).accepts (query.take arity) (query.drop arity)) = some loop) := by
  have hlen := le_of_select h
  rw [select_of_le hlen, Option.or_eq_some_iff] at h
  exact ⟨hlen, h.imp_right And.right⟩

theorem mem_of_select (h : select types loops arity query = some loop) : loop ∈ loops := by
  rcases (find?_of_select h).2 with found | found
  · exact List.mem_of_find?_eq_some found
  · exact List.mem_of_find?_eq_some found

theorem find?_exact_iff : (loops.find? fun l => (types l).isExact (query.take arity)
    (query.drop arity)) = some loop ↔ FirstWith (Exact types arity query) loops loop :=
  find?_eq_some_iff_firstWith fun _ => LoopTypes.isExact_iff

theorem find?_exact_eq_none : (loops.find? fun l => (types l).isExact (query.take arity)
    (query.drop arity)) = none ↔ ∀ l ∈ loops, ¬ Exact types arity query l :=
  find?_eq_none_iff fun _ => LoopTypes.isExact_iff

theorem find?_compatible_iff : (loops.find? fun l => (types l).accepts (query.take arity)
    (query.drop arity)) = some loop ↔ FirstWith (Compatible types arity query) loops loop :=
  find?_eq_some_iff_firstWith fun _ => LoopTypes.accepts_iff

theorem find?_compatible_eq_none : (loops.find? fun l => (types l).accepts (query.take arity)
    (query.drop arity)) = none ↔ ∀ l ∈ loops, ¬ Compatible types arity query l :=
  find?_eq_none_iff fun _ => LoopTypes.accepts_iff

theorem select_eq_some_iff (hlen : arity ≤ query.length) :
    select types loops arity query = some loop ↔
      FirstWith (Exact types arity query) loops loop ∨
        (∀ l ∈ loops, ¬ Exact types arity query l) ∧
          FirstWith (Compatible types arity query) loops loop := by
  rw [select_of_le hlen, Option.or_eq_some_iff, find?_exact_iff, find?_exact_eq_none,
    find?_compatible_iff]

theorem select_eq_none_iff (hlen : arity ≤ query.length) :
    select types loops arity query = none ↔
      ∀ l ∈ loops, ¬ Exact types arity query l ∧ ¬ Compatible types arity query l := by
  rw [select_of_le hlen, Option.or_eq_none_iff, find?_exact_eq_none, find?_compatible_eq_none]
  exact ⟨fun h l hl => ⟨h.1 l hl, h.2 l hl⟩, fun h => ⟨fun l hl => (h l hl).1, fun l hl => (h l hl).2⟩⟩

theorem exact_or_compatible (h : select types loops arity query = some loop) :
    Exact types arity query loop ∨ Compatible types arity query loop := by
  rcases (select_eq_some_iff (le_of_select h)).1 h with hfirst | ⟨-, hfirst⟩
  · exact .inl hfirst.holds
  · exact .inr hfirst.holds

/-- No loop is selected that puts out less than is asked for. -/
theorem length_le_of_select (h : select types loops arity query = some loop) :
    query.length ≤ arity + (types loop).outputs.length := by
  have houtputs : (query.drop arity).length ≤ (types loop).outputs.length := by
    rcases exact_or_compatible h with hexact | hcompatible
    · exact hexact.outputs.length_le
    · have hlength := hcompatible.outputs.length_eq
      rw [List.length_take] at hlength
      omega
  rw [List.length_drop] at houtputs
  omega

/-- Exact loops of both parts come before compatible ones of either. -/
theorem select_append (hlen : arity ≤ query.length) : select types (loops ++ more) arity query =
    ((loops.find? fun l => (types l).isExact (query.take arity) (query.drop arity)).or
      (more.find? fun l => (types l).isExact (query.take arity) (query.drop arity))).or
    ((loops.find? fun l => (types l).accepts (query.take arity) (query.drop arity)).or
      (more.find? fun l => (types l).accepts (query.take arity) (query.drop arity))) := by
  rw [select_of_le hlen, List.find?_append, List.find?_append]

theorem select_append_of_exact (h : select types loops arity query = some loop)
    (hexact : Exact types arity query loop) :
    select types (loops ++ more) arity query = some loop := by
  have hlen := le_of_select h
  rw [select_eq_some_iff hlen, ← find?_exact_iff] at h
  rcases h with hfirst | ⟨hnone, hfirst⟩
  · rw [select_append hlen, hfirst, Option.some_or, Option.some_or]
  · exact absurd hexact (hnone loop hfirst.mem)

theorem select_append_of_compatible (h : select types loops arity query = some loop)
    (hexact : ¬ Exact types arity query loop) : select types (loops ++ more) arity query =
      ((more.find? fun l => (types l).isExact (query.take arity) (query.drop arity)).or
        (some loop)) := by
  have hlen := le_of_select h
  rw [select_eq_some_iff hlen, ← find?_exact_eq_none, ← find?_compatible_iff] at h
  rcases h with hfirst | ⟨hnone, hfirst⟩
  · exact absurd hfirst.holds hexact
  · rw [select_append hlen, hnone, hfirst, Option.none_or, Option.some_or]

theorem select_append_of_none (h : select types loops arity query = none) :
    select types (loops ++ more) arity query = select types more arity query := by
  rcases Nat.lt_or_ge query.length arity with hlt | hge
  · rw [select_of_lt hlt, select_of_lt hlt]
  · rw [select_of_le hge, Option.or_eq_none_iff] at h
    rw [select_append hge, h.1, h.2, Option.none_or, Option.none_or, select_of_le hge]

/-- A query is given the first loop with exactly its types, or else the first that is compatible with them.
More loops behind never change an exact choice. They change a compatible one only for the first of them
that is exact, and where there was none they are chosen from as if they stood alone. -/
theorem selects_first {α : Type} (types : α → LoopTypes) (loops : List α) (arity : Nat)
    (query : List DType) :
    (query.length < arity → select types loops arity query = none) ∧
    (arity ≤ query.length →
      (∀ loop, select types loops arity query = some loop ↔
        FirstWith (Exact types arity query) loops loop ∨
          (∀ l ∈ loops, ¬ Exact types arity query l) ∧
            FirstWith (Compatible types arity query) loops loop) ∧
      (select types loops arity query = none ↔
        ∀ l ∈ loops, ¬ Exact types arity query l ∧ ¬ Compatible types arity query l)) ∧
    ∀ more,
      (∀ loop, select types loops arity query = some loop → Exact types arity query loop →
        select types (loops ++ more) arity query = some loop) ∧
      (∀ loop, select types loops arity query = some loop → ¬ Exact types arity query loop →
        select types (loops ++ more) arity query = some loop ∨
          ∃ later, FirstWith (Exact types arity query) more later ∧
            select types (loops ++ more) arity query = some later) ∧
      (select types loops arity query = none →
        select types (loops ++ more) arity query = select types more arity query) := by
  refine ⟨select_of_lt, fun hlen => ⟨fun loop => select_eq_some_iff hlen, select_eq_none_iff hlen⟩, ?_⟩
  intro more
  refine ⟨fun loop => select_append_of_exact, ?_, select_append_of_none⟩
  intro loop h hexact
  rw [select_append_of_compatible h hexact]
  rcases hlater : more.find? fun l => (types l).isExact (query.take arity) (query.drop arity)
    with _ | later
  · exact .inl rfl
  · exact .inr ⟨later, find?_exact_iff.1 hlater, rfl⟩

/-- Integers go to the loop on wider floats, until there is one on integers behind. -/
theorem selects_first_integers :
    let singles : LoopTypes := ⟨[.float32], [.float32]⟩
    let doubles : LoopTypes := ⟨[.float64], [.float64]⟩
    let integers : LoopTypes := ⟨[.int32], [.int32]⟩
    select id [singles, doubles] 1 [.int32] = some doubles ∧
      select id ([singles, doubles] ++ [doubles, integers]) 1 [.int32] = some integers := by
  intro singles doubles integers
  obtain ⟨-, hselects, hmore⟩ := selects_first id [singles, doubles] 1 [.int32]
  have hdoubles : select id [singles, doubles] 1 [.int32] = some doubles := by
    refine ((hselects (Nat.le_refl 1)).1 doubles).2 (.inr ⟨by decide, ?_⟩)
    exact ⟨[singles], [], rfl, by decide, by decide⟩
  refine ⟨hdoubles, ?_⟩
  rcases (hmore [doubles, integers]).2.1 doubles hdoubles (by decide) with hsame | ⟨later, hlater, h⟩
  · exact absurd hsame (by decide)
  · rw [h, ← find?_exact_iff.2 hlater]
    decide

end Dispatch

end Corewise
