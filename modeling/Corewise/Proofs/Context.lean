import Corewise.Context
import Corewise.Proofs.Memory
/-!
What is found in the contexts after something is inserted or removed, and which implementation a call
gets.
-/

namespace Corewise

section Lookup

variable {β : Type} (l : List (FunctionKey × β)) (key key' : FunctionKey) (value : β)

theorem lookup_cons_ite :
    ((key, value) :: l).lookup key' = if key' = key then some value else l.lookup key' := by
  rw [List.lookup_cons]
  rcases hkey : key' == key with _ | _
  case false => rw [if_neg (ne_of_beq_false hkey)]
  case true => rw [if_pos (eq_of_beq hkey)]

theorem lookup_filter_ne :
    (l.filter fun p => p.1 ≠ key).lookup key' = if key' = key then none else l.lookup key' := by
  induction l with
  | nil => exact (ite_self _).symm
  | cons p l ih =>
    obtain ⟨k, value⟩ := p
    by_cases hk : k = key
    · rw [List.filter_cons_of_neg (by simp [hk]), ih, lookup_cons_ite, hk]
      split <;> rfl
    · rw [List.filter_cons_of_pos (by simp [hk]), lookup_cons_ite, lookup_cons_ite, ih]
      by_cases hkey : key' = k
      · rw [if_pos hkey, if_pos hkey, hkey, if_neg hk]
      · rw [if_neg hkey, if_neg hkey]

theorem lookup_concat_of_none (h : l.lookup key = none) :
    (l ++ [(key, value)]).lookup key' = if key' = key then some value else l.lookup key' := by
  rw [List.lookup_append, lookup_cons_ite]
  by_cases hkey : key' = key
  · rw [if_pos hkey, if_pos hkey, hkey, h, Option.none_or]
  · rw [if_neg hkey, if_neg hkey, List.lookup_nil, Option.or_none]

end Lookup

namespace TypingContext

variable {α : Type} (c : TypingContext α) (key : FunctionKey)

theorem lookup_remove (key' : FunctionKey) :
    (c.remove key).rules.lookup key' = if key' = key then none else c.rules.lookup key' :=
  lookup_filter_ne c.rules key key'

theorem lookup_insert (rule : α) (key' : FunctionKey) :
    (c.insert key rule).rules.lookup key' = if key' = key then some rule else c.rules.lookup key' := by
  have habsent : (c.remove key).rules.lookup key = none := by
    rw [lookup_remove, if_pos rfl]
  unfold insert
  rw [lookup_concat_of_none _ _ _ _ habsent, lookup_remove]
  split <;> rfl

end TypingContext

namespace TargetContext

variable {α : Type} (c : TargetContext α) (key : FunctionKey)

theorem lookup_remove (key' : FunctionKey) : (c.remove key).definitions.lookup key' =
    if key' = key then none else c.definitions.lookup key' :=
  lookup_filter_ne c.definitions key key'

theorem lookup_insert (shape : Lowering.CallShape) (target : α) (key' : FunctionKey) :
    (c.insert key shape target).definitions.lookup key' =
      if key' = key then
        some (((c.definitionsOf key).filter fun d => d.1 ≠ shape) ++ [(shape, target)])
      else c.definitions.lookup key' := by
  have habsent : (c.remove key).definitions.lookup key = none := by
    rw [lookup_remove, if_pos rfl]
  unfold insert
  rw [lookup_concat_of_none _ _ _ _ habsent, lookup_remove]
  split <;> rfl

theorem definitionsOf_insert_self (shape : Lowering.CallShape) (target : α) :
    (c.insert key shape target).definitionsOf key =
      ((c.definitionsOf key).filter fun d => d.1 ≠ shape) ++ [(shape, target)] := by
  rw [definitionsOf, lookup_insert, if_pos rfl]
  rfl

/-- A function without definitions gets one for each form of calls. -/
theorem lookup_forms (h : c.definitions.lookup key = none) (arity : Nat) (target : α)
    (key' : FunctionKey) :
    ((Lowering.CallShape.forms arity).foldl (fun c shape => c.insert key shape target) c).definitions.lookup
        key' =
      if key' = key then some ((Lowering.CallShape.forms arity).map fun shape => (shape, target))
      else c.definitions.lookup key' := by
  have hnone : c.definitionsOf key = [] := by
    rw [definitionsOf, h]
    rfl
  have hne : List.replicate arity Lowering.ArgPattern.any ++ [.array] ≠ List.replicate arity .any := by
    intro heq
    have hlength := congrArg List.length heq
    rw [List.length_append] at hlength
    exact absurd hlength (Nat.succ_ne_self _)
  simp only [Lowering.CallShape.forms, List.foldl_cons, List.foldl_nil]
  rw [lookup_insert, lookup_insert, definitionsOf_insert_self, hnone]
  split
  · simp [hne]
  · rfl

end TargetContext

namespace Lowering

theorem CallShape.accepts_any (arity : Nat) (held : List Contents) :
    CallShape.accepts (List.replicate arity .any) held = true ↔ held.length = arity := by
  induction arity generalizing held with
  | zero => cases held <;> simp [accepts]
  | succ arity ih => cases held <;> simp [accepts, ArgPattern.accepts, List.replicate_succ, ih]

theorem CallShape.accepts_any_array (arity : Nat) (held : List Contents) :
    CallShape.accepts (List.replicate arity .any ++ [.array]) held = true ↔
      ∃ inputs output, held = inputs ++ [output] ∧ inputs.length = arity ∧ output.isArray = true := by
  induction arity generalizing held with
  | zero =>
    constructor
    · intro h
      match held with
      | [] => cases h
      | [output] => exact ⟨[], output, rfl, rfl, by simpa [accepts, ArgPattern.accepts] using h⟩
      | _ :: _ :: _ => simp [accepts] at h
    · rintro ⟨inputs, output, rfl, hlength, harray⟩
      obtain rfl := List.length_eq_zero_iff.1 hlength
      simp [accepts, ArgPattern.accepts, harray]
  | succ arity ih =>
    rw [List.replicate_succ, List.cons_append]
    cases held with
    | nil => simp [accepts]
    | cons input held =>
      have hcons : CallShape.accepts (.any :: (List.replicate arity .any ++ [.array])) (input :: held) =
          CallShape.accepts (List.replicate arity .any ++ [.array]) held := rfl
      rw [hcons, ih]
      constructor
      · rintro ⟨inputs, output, rfl, hlength, harray⟩
        exact ⟨input :: inputs, output, rfl, congrArg Nat.succ hlength, harray⟩
      · rintro ⟨inputs, output, heq, hlength, harray⟩
        cases inputs with
        | nil => cases hlength
        | cons _ inputs =>
          cases heq
          exact ⟨inputs, output, rfl, Nat.succ.inj hlength, harray⟩

/-- All inputs, or all inputs and an array. -/
def Formed (arity : Nat) (args : List Value) : Prop :=
  args.length = arity ∨
    ∃ inputs output, args = inputs ++ [.array output] ∧ inputs.length = arity

theorem exists_accepts_iff {m : Memory} {arity : Nat} {args : List Value} :
    (∃ shape ∈ CallShape.forms arity, shape.accepts (m.contentsOf args) = true) ↔
      Formed arity args := by
  rw [CallShape.forms, List.exists_mem_cons_iff, List.exists_mem_cons_iff, CallShape.accepts_any,
    CallShape.accepts_any_array, Memory.length_contentsOf]
  constructor
  · rintro (⟨inputs, output, hheld, hlength, harray⟩ | hlength | ⟨_, hmem, _⟩)
    · obtain ⟨args', output', rfl, rfl, houtput⟩ := List.map_eq_append_iff.1 hheld
      obtain ⟨value, rfl, rfl⟩ := List.map_eq_singleton_iff.1 houtput
      cases value with
      | scalar => cases harray
      | array r => exact .inr ⟨args', r, rfl, by simpa using hlength⟩
    · exact .inl hlength
    · cases hmem
  · rintro (hlength | ⟨inputs, output, rfl, hlength⟩)
    · exact .inr (.inl hlength)
    · refine .inl ⟨m.contentsOf inputs, m.contents (.array output), List.map_append, ?_, rfl⟩
      rw [Memory.length_contentsOf, hlength]

end Lowering

namespace TargetContext

variable {α : Type} {c : TargetContext α} {key : FunctionKey} {arity : Nat} {target : α} {m : Memory}
  {args : List Value}

/-- Whichever form a call has, it gets the one implementation that the function was given. -/
theorem resolve_of_formed (h : c.definitions.lookup key =
      some ((Lowering.CallShape.forms arity).map fun shape => (shape, target)))
    (hformed : Lowering.Formed arity args) : c.resolve key (m.contentsOf args) = .ok target := by
  obtain ⟨shape, hmem, haccepts⟩ := (Lowering.exists_accepts_iff (m := m)).2 hformed
  obtain ⟨found, hfound⟩ : ∃ found, ((Lowering.CallShape.forms arity).map fun shape =>
      (shape, target)).find? (fun d => d.1.accepts (m.contentsOf args)) = some found := by
    rw [← Option.isSome_iff_exists, List.find?_isSome]
    exact ⟨(shape, target), List.mem_map_of_mem hmem, haccepts⟩
  obtain ⟨_, -, rfl⟩ := List.mem_map.1 (List.mem_of_find?_eq_some hfound)
  unfold resolve
  rw [h]
  dsimp only
  rw [hfound]

theorem resolve_of_not_formed (h : c.definitions.lookup key =
      some ((Lowering.CallShape.forms arity).map fun shape => (shape, target)))
    (hformed : ¬ Lowering.Formed arity args) :
    c.resolve key (m.contentsOf args) = .error (.typing (.noLoweringFor key args.length)) := by
  have hnone : ((Lowering.CallShape.forms arity).map fun shape => (shape, target)).find?
      (fun d => d.1.accepts (m.contentsOf args)) = none := by
    rw [List.find?_eq_none]
    rintro _ hmem haccepts
    obtain ⟨shape, hshape, rfl⟩ := List.mem_map.1 hmem
    exact hformed (Lowering.exists_accepts_iff.1 ⟨shape, hshape, haccepts⟩)
  unfold resolve
  rw [h]
  dsimp only
  rw [hnone, Memory.length_contentsOf]

end TargetContext

end Corewise
