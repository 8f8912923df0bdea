import Corewise.Proofs.LoopTable
import Corewise.Proofs.Registry.Compatible
/-!
Trampolines that are kept. A table only ever runs the first entry with its key, so what is kept for a
request is what the request would make anew, and a call does not depend on what was called before.
-/

namespace Corewise

namespace Lowering

/-- What is kept is what would be made anew, from the first entry with the key. -/
def Pass.Recalls (p : Pass) (r : Registry) (writable : List Bool) (boundsCheck : Bool) : Prop :=
  ∀ request t, p.find? request = some t → ∃ s, r.find? request.2 = some s ∧
    t = Trampoline.of request.1 s.artifact writable boundsCheck

variable {p : Pass} {r r' : Registry} {s : Specialization} {writable : List Bool} {boundsCheck : Bool}

theorem Pass.recalls_empty (name : String) : (Pass.empty name).Recalls r writable boundsCheck :=
  fun _ _ h => nomatch h

theorem Pass.Recalls.of_find? (h : p.Recalls r writable boundsCheck)
    (hr : ∀ query s, r.find? query = some s → r'.find? query = some s) :
    p.Recalls r' writable boundsCheck := by
  intro request t ht
  obtain ⟨s, hs, hmade⟩ := h request t ht
  exact ⟨s, hr _ s hs, hmade⟩

theorem Pass.Recalls.trampoline (h : p.Recalls r writable boundsCheck)
    (hs : r.find? s.key = some s) (outer : CallSignature) :
    (p.trampoline (outer, s.key) s.artifact writable boundsCheck).1 =
        Trampoline.of outer s.artifact writable boundsCheck ∧
      (p.trampoline (outer, s.key) s.artifact writable boundsCheck).2.Recalls r writable
        boundsCheck := by
  unfold Pass.trampoline
  split
  case h_1 t hfound =>
    obtain ⟨s', hs', hmade⟩ := h _ t hfound
    cases hs.symm.trans hs'
    exact ⟨hmade, h⟩
  case h_2 hmissing =>
    refine ⟨rfl, fun request t ht => ?_⟩
    replace ht : (p.trampolines ++ [((outer, s.key), Trampoline.of outer s.artifact writable
      boundsCheck)]).lookup request = some t := ht
    rw [List.lookup_append, Option.or_eq_some_iff] at ht
    rcases ht with ht | ⟨-, ht⟩
    · exact h request t ht
    · rw [List.lookup_cons, List.lookup_nil] at ht
      split at ht
      case h_1 hrequest =>
        cases eq_of_beq hrequest
        cases ht
        exact ⟨s, hs, rfl⟩
      case h_2 => cases ht

end Lowering

/-- The same memory, with passes that keep nothing but what would be made anew. -/
structure Execution.Alike (r : Registry) (t : LoopTable) (x y : Execution) : Prop where
  memory : y.memory = x.memory
  left : x.pass.Recalls r t.writable t.options.boundsCheck
  right : y.pass.Recalls r t.writable t.options.boundsCheck

theorem Execute.onMemory_respects {α : Type} (r : Registry) (t : LoopTable) (a : Action α) :
    Effect.Respects (Execution.Alike r t) (Execute.onMemory a) := by
  intro x y h
  show (a.run y.memory).1 = (a.run x.memory).1 ∧ _
  have hrun : a.run y.memory = a.run x.memory := congrArg a.run h.memory
  exact ⟨congrArg Prod.fst hrun, congrArg Prod.snd hrun, h.left, h.right⟩

namespace LoopTable

variable {r : Registry} {t : LoopTable} {loop : Specialization}

theorem execute_respects (hloop : r.find? loop.key = some loop) (operands : List Value) :
    Effect.Respects (Execution.Alike r t) (t.execute operands loop) := by
  intro x y h
  have hx := h.left.trampoline hloop
    (Loop.elementSignature t.signature (x.memory.dtypes operands))
  have hy := h.right.trampoline hloop
    (Loop.elementSignature t.signature (y.memory.dtypes operands))
  rcases hplan : Loop.plan t.signature (x.memory.contentsOf operands) with e | plan
  case error =>
    rw [execute_of_error hplan, execute_of_error (h.memory ▸ hplan)]
    exact ⟨rfl, h⟩
  case ok =>
    rw [execute_of_ok hplan, execute_of_ok (h.memory ▸ hplan)]
    have hsame : (t.trampolineFor operands loop y).1 = (t.trampolineFor operands loop x).1 := by
      rw [trampolineFor, trampolineFor, hx.1, hy.1, h.memory]
    dsimp only
    rw [hsame, h.memory]
    exact ⟨rfl, rfl, hx.2, hy.2⟩

theorem executeWith_respects (hloop : r.find? loop.key = some loop) (operands : List Value) :
    Effect.Respects (Execution.Alike r t) (t.executeWith operands loop) := by
  have hrun (operands : List Value) : Effect.Respects (Execution.Alike r t)
      (t.execute operands loop >>= fun _ => pure (operands.getD t.arity (.scalar default))) :=
    (execute_respects hloop operands).bind fun _ => .pure _
  unfold executeWith
  dsimp only
  split
  case isTrue =>
    split
    · exact (Execute.onMemory_respects r t _).bind fun _ => (Effect.Respects.pure _).bind hrun
    · exact (Effect.Respects.pure _).bind hrun
  case isFalse => exact (Effect.Respects.pure _).bind hrun

theorem call_respects
    (hfirst : ∀ query loop, t.select? query = some loop → r.find? loop.key = some loop)
    (args : List Value) (out : Option Value) :
    Effect.Respects (Execution.Alike r t) (t.call args out) := by
  intro x y h
  by_cases hcount : (args ++ out.toList).length ≠ t.arity ∧
      (args ++ out.toList).length ≠ t.arity + 1
  case pos =>
    rw [call_of_count hcount, call_of_count hcount]
    exact ⟨rfl, h⟩
  rcases hselect : t.select? (x.memory.dtypes (args ++ out.toList)) with _ | loop
  · rw [call_of_none hcount hselect, call_of_none hcount (h.memory ▸ hselect), h.memory]
    exact ⟨rfl, h⟩
  · rw [call_of_select hcount hselect, call_of_select hcount (h.memory ▸ hselect)]
    exact executeWith_respects (hfirst _ loop hselect) _ x y h

end LoopTable

end Corewise
