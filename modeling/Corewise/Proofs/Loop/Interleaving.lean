import Corewise.Proofs.Loop.Iteration
import Mathlib.Logic.Relation
/-!
Iterations at the same time. Each one copies its elements one operand after the other, calls the kernel on
the copies, and puts elements back one after the other; between two of these steps other iterations may take
any of theirs. Whatever comes between, arrays keep their types and shapes, and those that receive nothing
hold what they held.
-/

namespace Corewise

/-- Arrays stay what they are apart from their elements, and those of spared arrays stay as well. -/
structure Memory.Spares (spared : Ref → Prop) (m m' : Memory) : Prop where
  length_le : m.buffers.length ≤ m'.buffers.length
  kind : ∀ r < m.buffers.length,
    (m'.buffer r).dtype = (m.buffer r).dtype ∧ (m'.buffer r).shape = (m.buffer r).shape
  buffer : ∀ r < m.buffers.length, spared r → m'.buffer r = m.buffer r

namespace Memory

variable {spared : Ref → Prop} {m m' m'' : Memory}

theorem Spares.refl (m : Memory) : m.Spares spared m :=
  ⟨Nat.le_refl _, fun _ _ => ⟨rfl, rfl⟩, fun _ _ _ => rfl⟩

theorem Spares.trans (h : m.Spares spared m') (h' : m'.Spares spared m'') : m.Spares spared m'' where
  length_le := Nat.le_trans h.length_le h'.length_le
  kind r hr := by
    obtain ⟨hd, hs⟩ := h.kind r hr
    obtain ⟨hd', hs'⟩ := h'.kind r (Nat.lt_of_lt_of_le hr h.length_le)
    exact ⟨hd'.trans hd, hs'.trans hs⟩
  buffer r hr hspared := by
    rw [h'.buffer r (Nat.lt_of_lt_of_le hr h.length_le) hspared, h.buffer r hr hspared]

theorem Grows.spares (h : m.Grows m')
    (hbuffer : ∀ r < m.buffers.length, spared r → m'.buffer r = m.buffer r) : m.Spares spared m' :=
  ⟨h.length_le, h.buffer, hbuffer⟩

theorem spares_noting (noted : List (List Contents)) : m.Spares spared (m.noting noted) :=
  (grows_noting noted).spares fun _ _ _ => rfl

end Memory

theorem Action.update_spares {spared : Ref → Prop} {target : Ref}
    {f : Buffer → Except ShapeError Buffer} (htarget : ¬ spared target)
    (hf : ∀ b b', f b = .ok b' → b'.dtype = b.dtype ∧ b'.shape = b.shape ∧
      (b.WellFormed → b'.WellFormed)) : Effect.Keeps (Memory.Spares spared) (Action.update target f) := by
  intro m
  refine (Action.update_grows hf m).spares fun r _ hspared => ?_
  show ((Action.ofShape (f (m.buffer target)) >>= fun b => modify (·.store target b)).run m).2.buffer r =
    m.buffer r
  rcases f (m.buffer target) with e | b
  case error => rfl
  case ok => exact Memory.buffer_store_of_ne fun heq => htarget (heq ▸ hspared)

namespace Loop

variable {signature : CoreSignature} {plan : Plan} {operands : List Value} {writable : List Bool}
  {callee : Callee} {m m' : Memory}

/-- What one step of an iteration may be. It reads or writes one array, or calls the kernel on copies. -/
inductive Task.Step (signature : CoreSignature) (plan : Plan) (operands : List Value)
    (writable : List Bool) (callee : Callee) : Memory × Task → Memory × Task → Prop
  | start (m : Memory) (flat : Nat) : Step signature plan operands writable callee (m, .waiting flat)
      (m, .reading flat [] (addressed signature plan operands writable flat))
  | read {m : Memory} {flat : Nat} {elements : List Contents} {p : Value × Access}
      {rest : List (Value × Access)} {e : Contents} (copied : element m p.2 p.1 = .ok e) :
      Step signature plan operands writable callee (m, .reading flat elements (p :: rest))
        (m, .reading flat (elements ++ [e]) rest)
  | unreadable {m : Memory} {flat : Nat} {elements : List Contents} {p : Value × Access}
      {rest : List (Value × Access)} {e : Error} (refused : element m p.2 p.1 = .error e) :
      Step signature plan operands writable callee (m, .reading flat elements (p :: rest)) (m, .failed e)
  | work {m : Memory} {flat : Nat} {elements : List Contents}
      (done : (outcome callee elements).result = .ok ()) :
      Step signature plan operands writable callee (m, .reading flat elements [])
        (m.noting (outcome callee elements).noted,
          .returning ((addressed signature plan operands writable flat).zip
            (outcome callee elements).after))
  | raise {m : Memory} {flat : Nat} {elements : List Contents} {e : Error}
      (raised : (outcome callee elements).result = .error e) :
      Step signature plan operands writable callee (m, .reading flat elements [])
        (m.noting (outcome callee elements).noted, .failed e)
  | putBack {m m' : Memory} {t : Return} {rest : List Return}
      (done : (put t.1.2 t.1.1 t.2).run m = (.ok (), m')) :
      Step signature plan operands writable callee (m, .returning (t :: rest)) (m', .returning rest)
  | refuse {m m' : Memory} {t : Return} {rest : List Return} {e : Error}
      (refused : (put t.1.2 t.1.1 t.2).run m = (.error e, m')) :
      Step signature plan operands writable callee (m, .returning (t :: rest)) (m', .failed e)

/-- One of the iterations takes a step, and the others stand still. -/
inductive Turn (signature : CoreSignature) (plan : Plan) (operands : List Value) (writable : List Bool)
    (callee : Callee) : Memory × List Task → Memory × List Task → Prop
  | take (before after : List Task) {m m' : Memory} {task task' : Task}
      (step : Task.Step signature plan operands writable callee (m, task) (m', task')) :
      Turn signature plan operands writable callee (m, before ++ task :: after)
        (m', before ++ task' :: after)

/-- What iterations may come to when they run at the same time. -/
def Interleaves (signature : CoreSignature) (plan : Plan) (operands : List Value) (writable : List Bool)
    (callee : Callee) : Memory × List Task → Memory × List Task → Prop :=
  Relation.ReflTransGen (Turn signature plan operands writable callee)

/-- The array receives what is put back to some operand. -/
def Receives (signature : CoreSignature) (operands : List Value) (writable : List Bool) (r : Ref) : Prop :=
  ∃ i, (i = signature.arity ∨ writable.getD i false = true) ∧ operands[i]? = some (.array r)

theorem receives_of_addressed {flat : Nat} {r : Ref} {a : Access}
    (h : (.array r, a) ∈ addressed signature plan operands writable flat) (hwritable : a.writable = true) :
    Receives signature operands writable r := by
  obtain ⟨i, hi⟩ := List.getElem?_of_mem h
  obtain ⟨hoperand, haccess⟩ := List.getElem?_zip_eq_some.1 hi
  rw [accesses, List.getElem?_map, List.getElem?_zipIdx, Option.map_map,
    Option.map_eq_some_iff] at haccess
  obtain ⟨p, -, rfl⟩ := haccess
  refine ⟨i, ?_, hoperand⟩
  simpa using hwritable

/-- All that an iteration may still put back belongs to its operands. -/
def Task.Addressed (signature : CoreSignature) (plan : Plan) (operands : List Value)
    (writable : List Bool) : Task → Prop
  | .returning rest => ∀ t ∈ rest, ∃ flat, t.1 ∈ addressed signature plan operands writable flat
  | _ => True

theorem put_spares {t : Return} {flat : Nat}
    (h : t.1 ∈ addressed signature plan operands writable flat) :
    Effect.Keeps (Memory.Spares fun r => ¬ Receives signature operands writable r)
      (put t.1.2 t.1.1 t.2) := by
  obtain ⟨⟨v, a⟩, e⟩ := t
  cases v with
  | scalar s => exact fun m => .refl m
  | array target =>
    cases e with
    | scalar s => exact fun m => .refl m
    | array core =>
      dsimp only [put]
      split
      case isFalse => exact fun m => .refl m
      case isTrue hwritable =>
        have htarget : ¬ ¬ Receives signature operands writable target :=
          not_not.2 (receives_of_addressed h hwritable)
        split
        · exact Action.update_spares htarget fun _ _ => Buffer.set_eq_ok
        · exact Action.update_spares htarget fun _ _ => Buffer.assign_eq_ok

/-- A step of an iteration writes to arrays that receive something, and to no other. -/
theorem Task.Step.spares {s s' : Memory × Task}
    (h : Task.Step signature plan operands writable callee s s')
    (hs : s.2.Addressed signature plan operands writable) :
    s.1.Spares (fun r => ¬ Receives signature operands writable r) s'.1 ∧
      s'.2.Addressed signature plan operands writable := by
  cases h with
  | start => exact ⟨.refl _, trivial⟩
  | read => exact ⟨.refl _, trivial⟩
  | unreadable => exact ⟨.refl _, trivial⟩
  | @work m flat elements =>
    refine ⟨Memory.spares_noting _, fun t ht => ?_⟩
    obtain ⟨i, hi⟩ := List.getElem?_of_mem ht
    exact ⟨flat, List.mem_of_getElem? (List.getElem?_zip_eq_some.1 hi).1⟩
  | raise => exact ⟨Memory.spares_noting _, trivial⟩
  | putBack done =>
    obtain ⟨⟨flat, hflat⟩, hrest⟩ := List.forall_mem_cons.1 hs
    exact ⟨(put_spares hflat).of_run done, hrest⟩
  | refuse refused =>
    obtain ⟨⟨flat, hflat⟩, -⟩ := List.forall_mem_cons.1 hs
    exact ⟨(put_spares hflat).of_run refused, trivial⟩

theorem Task.Step.grows {s s' : Memory × Task}
    (h : Task.Step signature plan operands writable callee s s') : s.1.Grows s'.1 := by
  cases h with
  | start => exact .refl _
  | read => exact .refl _
  | unreadable => exact .refl _
  | work => exact Memory.grows_noting _
  | raise => exact Memory.grows_noting _
  | putBack done => exact (put_grows _ _ _).of_run done
  | refuse refused => exact (put_grows _ _ _).of_run refused

theorem Interleaves.grows {s s' : Memory × List Task}
    (h : Interleaves signature plan operands writable callee s s') : s.1.Grows s'.1 := by
  induction h with
  | refl => exact .refl _
  | tail _ turn ih =>
    cases turn with
    | take before after step => exact ih.trans step.grows

theorem forall_mem_turn {p : Task → Prop} {before after : List Task} {task : Task} :
    (∀ other ∈ before ++ task :: after, p other) ↔
      (∀ other ∈ before, p other) ∧ p task ∧ ∀ other ∈ after, p other := by
  rw [List.forall_mem_append, List.forall_mem_cons]

/-- An iteration that has failed stays so. -/
theorem Interleaves.failed_mem {s s' : Memory × List Task}
    (h : Interleaves signature plan operands writable callee s s') {e : Error}
    (he : .failed e ∈ s.2) : .failed e ∈ s'.2 := by
  induction h with
  | refl => exact he
  | tail _ turn ih =>
    cases turn with
    | take before after step =>
      rcases List.mem_append.1 ih with hmem | hmem
      · exact List.mem_append_left _ hmem
      · rcases List.mem_cons.1 hmem with rfl | hmem
        · cases step
        · exact List.mem_append_right _ (List.mem_cons_of_mem _ hmem)

theorem Interleaves.spares {s s' : Memory × List Task}
    (h : Interleaves signature plan operands writable callee s s')
    (hs : ∀ task ∈ s.2, task.Addressed signature plan operands writable) :
    s.1.Spares (fun r => ¬ Receives signature operands writable r) s'.1 ∧
      ∀ task ∈ s'.2, task.Addressed signature plan operands writable := by
  induction h with
  | refl => exact ⟨.refl _, hs⟩
  | tail _ turn ih =>
    obtain ⟨hspares, htasks⟩ := ih
    cases turn with
    | take before after step =>
      obtain ⟨hbefore, htask, hafter⟩ := forall_mem_turn.1 htasks
      obtain ⟨hstep, htask'⟩ := step.spares htask
      exact ⟨hspares.trans hstep, forall_mem_turn.2 ⟨hbefore, htask', hafter⟩⟩

/-- Iterations that have not begun leave arrays as they are that nothing is put back to. -/
theorem Interleaves.spares_of_waiting {order : List Nat} {tasks : List Task}
    (h : Interleaves signature plan operands writable callee (m, order.map .waiting) (m', tasks)) :
    m.Spares (fun r => ¬ Receives signature operands writable r) m' := by
  refine (h.spares ?_).1
  intro task htask
  obtain ⟨flat, -, rfl⟩ := List.mem_map.1 htask
  trivial

end Loop

end Corewise
