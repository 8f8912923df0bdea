import Corewise.Proofs.Context
import Corewise.Proofs.World.Request
/-!
Functions called through their keys. The contexts know the keys of the functions that are there, and hand
calls on to the function with the key and to no other.
-/

namespace Corewise

namespace World

variable {w w' : World} {K : Kernel → Prop} {key key' : FunctionKey} {live new : LiveFunction}
  {b : Blueprint} {engine : EngineRef}

theorem find?_replace (hnew : new.function.key = key) : (w.replace key new).find? key' =
    if key' = key then (w.find? key).map fun _ => new else w.find? key' := by
  have hkey (l : LiveFunction) :
      (if l.function.key = key then new else l).function.key = l.function.key := by
    split
    case isTrue hl => rw [hnew, hl]
    case isFalse => rfl
  have hfind : (w.replace key new).find? key' =
      (w.find? key').map fun l => if l.function.key = key then new else l := by
    rw [find?, replace, List.find?_map, find?]
    simp only [Function.comp_def, hkey]
  rw [hfind]
  split
  case isTrue heq =>
    subst heq
    apply Option.map_congr
    exact fun l hl => if_pos (mem_of_find? hl).2
  case isFalse hne =>
    rcases hfound : w.find? key' with _ | l
    case none => rfl
    case some => exact congrArg some (if_neg fun hl => hne ((mem_of_find? hfound).2.symm.trans hl))

theorem find?_forget :
    (w.forget key).find? key' = if key' = key then none else w.find? key' := by
  rw [find?, forget, List.find?_filter]
  split
  case isTrue heq => simp [heq]
  case isFalse hne =>
    apply congrArg (List.find? · w.functions)
    funext l
    by_cases hl : l.function.key = key'
    · simp [hl, hne]
    · simp [hl]

theorem Sound.find?_next (h : w.Sound) (name : String) : w.find? ⟨name, w.nextSerial⟩ = none := by
  rw [find?, List.find?_eq_none]
  intro live hlive hkey
  exact h.key_ne_next hlive name (of_decide_eq_true hkey)

theorem Sound.find?_added (h : w.Sound) (signature : CoreSignature) (library : KernelLibrary) :
    (w.added b engine signature library).find? key =
      if key = ⟨b.kernel.name, w.nextSerial⟩ then
        some ⟨b.function signature ⟨b.kernel.name, w.nextSerial⟩, engine, 1⟩
      else w.find? key := by
  have hfind : (w.added b engine signature library).find? key = (w.find? key).or
      (if key = ⟨b.kernel.name, w.nextSerial⟩ then
        some ⟨b.function signature ⟨b.kernel.name, w.nextSerial⟩, engine, 1⟩ else none) := by
    refine List.find?_append.trans (congrArg (Option.or _) ?_)
    rw [List.find?_singleton]
    simp only [decide_eq_true_eq]
    exact if_congr eq_comm rfl rfl
  rw [hfind]
  split
  case isTrue hkey => rw [hkey, h.find?_next, Option.none_or]
  case isFalse => exact Option.or_none

/-- The contexts hold what the functions need for being called, and no more. -/
structure Hooked (w : World) : Prop where
  typing : ∀ key, w.typing.rules.lookup key = (w.find? key).map fun _ => key
  target : ∀ key, w.target.definitions.lookup key = (w.find? key).map fun live =>
    (Lowering.CallShape.forms live.function.arity).map fun shape => (shape, key)
  handles : ∀ live ∈ w.functions, 0 < live.handles

theorem hooked_empty : Hooked .empty where
  typing _ := rfl
  target _ := rfl
  handles _ h := absurd h List.not_mem_nil

theorem Sound.hooked_added (h : w.Sound) (hw : w.Hooked) (signature : CoreSignature)
    (library : KernelLibrary) : (w.added b engine signature library).Hooked := by
  have hnone := h.find?_next b.kernel.name
  constructor
  case typing =>
    intro key
    show (w.typing.insert _ _).rules.lookup key = _
    rw [TypingContext.lookup_insert, h.find?_added, hw.typing]
    split
    case isTrue hkey => rw [hkey]; rfl
    case isFalse => rfl
  case target =>
    intro key
    have habsent : w.target.definitions.lookup ⟨b.kernel.name, w.nextSerial⟩ = none := by
      rw [hw.target, hnone]
      rfl
    have hlookup := w.target.lookup_forms _ habsent signature.arity
      (⟨b.kernel.name, w.nextSerial⟩ : FunctionKey) key
    rw [h.find?_added]
    refine hlookup.trans ?_
    rw [hw.target]
    split
    case isTrue hkey => rw [hkey]; rfl
    case isFalse => rfl
  case handles =>
    rw [functions_added, List.forall_mem_append, List.forall_mem_singleton]
    exact ⟨hw.handles, Nat.one_pos⟩

theorem Moves.hooked (h : Moves K w w') (hsound : w.Sound) (hw : w.Hooked) : w'.Hooked := by
  induction h with
  | @aside w w' h =>
    have hfind (key : FunctionKey) : w'.find? key = w.find? key := by
      rw [find?, find?, h.functions]
    constructor
    case typing => exact fun key => by rw [h.typing, hfind, hw.typing]
    case target => exact fun key => by rw [h.target, hfind, hw.target]
    case handles => exact h.functions ▸ hw.handles
  | register => exact ⟨hw.typing, hw.target, hw.handles⟩
  | build _ _ built =>
    obtain ⟨signature, library, -, -, rfl, rfl⟩ := build_eq_added built
    exact hsound.hooked_added hw signature library
  | @become w key live new found _ handles coherent descends =>
    obtain ⟨hmem, hkey⟩ := mem_of_find? found
    have hnew : new.function.key = key := descends.key.trans hkey
    -- The core signature says how many inputs there are, and no step changes it.
    have harity : new.function.arity = live.function.arity := by
      have hlive := (hsound.registered live hmem).coherent
      rw [DynamicFunction.arity, DynamicFunction.arity, coherent.arity_eq, hlive.arity_eq]
      exact descends.registry.arity_eq
    constructor
    case typing =>
      intro key'
      rw [find?_replace hnew]
      refine (hw.typing key').trans ?_
      split
      case isTrue hkey' => rw [hkey', found]; rfl
      case isFalse => rfl
    case target =>
      intro key'
      rw [find?_replace hnew]
      refine (hw.target key').trans ?_
      split
      case isTrue hkey' => rw [hkey', found, Option.map_some, Option.map_some, Option.map_some, harity]
      case isFalse => rfl
    case handles =>
      intro l hl
      rcases mem_replace hl with rfl | hl
      · exact handles (hw.handles live hmem)
      · exact hw.handles l hl
  | forget key =>
    constructor
    case typing =>
      intro key'
      refine (TypingContext.lookup_remove ..).trans ?_
      rw [find?_forget, hw.typing]
      split <;> rfl
    case target =>
      intro key'
      refine (TargetContext.lookup_remove ..).trans ?_
      rw [find?_forget, hw.target]
      split <;> rfl
    case handles => exact fun live hlive => hw.handles live (List.mem_of_mem_filter hlive)
  | trans h _ ih ih' => exact ih' (h.sound hsound) (ih hsound hw)

theorem Hooked.contains_iff (h : w.Hooked) :
    w.typing.contains key = true ↔ ∃ live, w.find? key = some live := by
  rw [TypingContext.contains, h.typing, Option.isSome_map, Option.isSome_iff_exists]

theorem Hooked.shapes_of_find? (h : w.Hooked) (hfound : w.find? key = some live) :
    w.target.shapes key = Lowering.CallShape.forms live.function.arity := by
  rw [TargetContext.shapes, TargetContext.definitionsOf, h.target, hfound]
  exact (List.map_map ..).trans (List.map_id _)

theorem Hooked.shapes_ne_nil_iff (h : w.Hooked) :
    w.target.shapes key ≠ [] ↔ ∃ live, w.find? key = some live := by
  rcases hfound : w.find? key with _ | live
  case none => simp [TargetContext.shapes, TargetContext.definitionsOf, h.target, hfound]
  case some =>
    rw [h.shapes_of_find? hfound]
    exact ⟨fun _ => ⟨live, rfl⟩, fun _ => List.cons_ne_nil _ _⟩

theorem Hooked.resolveType_eq (h : w.Hooked) (hfound : w.find? key = some live)
    (types : List OperandType) (keywords : List (String × OperandType)) :
    w.resolveType key types keywords = w.step key (DynamicFunction.typeCall types keywords) := by
  have hresolve : w.typing.resolve key = .ok key := by
    rw [TypingContext.resolve, h.typing, hfound]
    rfl
  rw [resolveType, hresolve]

theorem Hooked.lowerCall_of_formed (h : w.Hooked) (hfound : w.find? key = some live) {args : List Value}
    (hformed : Lowering.Formed live.function.arity args) :
    w.lowerCall key args = w.step key (DynamicFunction.lowerCall args) := by
  have hlookup := h.target key
  rw [hfound, Option.map_some] at hlookup
  rw [lowerCall, TargetContext.resolve_of_formed hlookup hformed]

theorem Hooked.lowerCall_of_not_formed (h : w.Hooked) (hfound : w.find? key = some live)
    {args : List Value} (hformed : ¬ Lowering.Formed live.function.arity args) :
    w.lowerCall key args = (.error (.typing (.noLoweringFor key args.length)), w) := by
  have hlookup := h.target key
  rw [hfound, Option.map_some] at hlookup
  rw [lowerCall, TargetContext.resolve_of_not_formed hlookup hformed]

end World

end Corewise
