import Corewise.Proofs.Loop.Outcome
import Mathlib.Data.List.Nodup
/-!
What the loop computes, without flat counters, copies and write-backs. At every index of the outer
shape the kernel is handed the cores that broadcasting leads to, and what it makes of the output's core
is the output's sub-array at that index afterwards.
-/

namespace Corewise.Loop

/-- What the kernel is handed for an input with a core of `rank` axes. -/
inductive InputAt (m : Memory) (index : List Nat) (rank : Nat) : Value → Contents → Prop
  | scalar (s : Scalar) : InputAt m index rank (.scalar s) (.scalar s)
  | bare {r : Ref} {inner : List Nat} {s : Scalar} (bare : rank = 0)
      (reads : Shape.ReadsAt (m.buffer r).shape index inner) (get : (m.buffer r).get? inner = some s) :
      InputAt m index rank (.array r) (.scalar s)
  | core {r : Ref} {inner : List Nat} {b : Buffer} (core : rank ≠ 0)
      (reads : Shape.ReadsAt (outerOf (m.buffer r).shape rank) index inner)
      (slice : (m.buffer r).slice inner = .ok b) : InputAt m index rank (.array r) (.array b)

section

variable {m : Memory} {a : Access} {index : List Nat}

theorem inputAt_iff {v : Value} {e : Contents} (hout : a.isOutput = false)
    (hindex : a.index = Shape.project index (outerOf (m.shape v) a.rank))
    (hlen : (outerOf (m.shape v) a.rank).length ≤ index.length) :
    InputAt m index a.rank v e ↔ element m a v = .ok e := by
  have hreads (inner : List Nat) :
      Shape.ReadsAt (outerOf (m.shape v) a.rank) index inner ↔ inner = a.index := by
    rw [Shape.readsAt_iff hlen, hindex]
  cases v with
  | scalar s =>
    constructor
    · rintro ⟨⟩
      rfl
    · rintro ⟨⟩
      exact .scalar s
  | array r =>
    replace hreads (inner : List Nat) :
        Shape.ReadsAt (outerOf (m.buffer r).shape a.rank) index inner ↔ inner = a.index :=
      hreads inner
    unfold element
    dsimp only
    constructor
    case mp =>
      intro h
      cases h with
      | bare hrank reads get =>
        rw [hrank, Access.outerOf_zero] at hreads
        cases (hreads _).1 reads
        simp [hrank, get, hout]
      | core hrank reads slice =>
        cases (hreads _).1 reads
        rw [if_neg hrank, slice]
        rfl
    case mpr =>
      intro h
      split at h
      case isTrue hrank =>
        rw [hrank, Access.outerOf_zero] at hreads
        split at h
        case h_1 s hget =>
          rw [hout] at h
          cases h
          exact .bare hrank ((hreads _).2 rfl) hget
        case h_2 => cases h
      case isFalse hrank =>
        rcases hslice : (m.buffer r).slice a.index with _ | b
        · rw [hslice] at h
          cases h
        · rw [hslice] at h
          cases h
          exact .core hrank ((hreads _).2 rfl) hslice

variable {signature : CoreSignature} {plan : Plan} {inputs : List Value} {out : Ref}
  {writable : List Bool} {callee : Callee} {m' : Memory}

theorem getElem?_inputRanks {i rank : Nat} (h : signature.inputRanks[i]? = some rank) :
    signature.ranks[i]? = some rank := by
  rw [ranks_eq, List.getElem?_append_left (List.getElem?_eq_some_iff.1 h).1, h]

/-- When inputs are only read, the output is all that is written. -/
theorem written_eq_output (hlen : inputs.length = signature.arity)
    (hread : ∀ i < signature.arity, writable.getD i false = false) {i : Nat} {r : Ref}
    (hw : Written signature writable i) (hi : (inputs ++ [.array out])[i]? = some (.array r)) :
    i = signature.arity ∧ r = out := by
  have hbound := (List.getElem?_eq_some_iff.1 hi).1
  rw [List.length_append, hlen, List.length_singleton] at hbound
  have hposition : i = signature.arity := by
    by_contra hne
    have hflag := (hw.resolve_left hne).1
    rw [hread i (by omega)] at hflag
    cases hflag
  rw [hposition, ← hlen, List.getElem?_concat_length] at hi
  cases hi
  exact ⟨hposition, rfl⟩

/-- With an output of its own and inputs that are only read, iterations do not touch each other. -/
theorem Ready.independent (h : Ready signature plan (inputs ++ [.array out]) m)
    (hlen : inputs.length = signature.arity) (hout : .array out ∉ inputs)
    (hread : ∀ i < signature.arity, writable.getD i false = false) :
    Independent signature plan (inputs ++ [.array out]) writable := by
  constructor
  case unaliased =>
    intro i hw j r hi hj
    obtain ⟨rfl, rfl⟩ := written_eq_output hlen hread hw hi
    rcases Nat.lt_or_ge j inputs.length with hlt | hge
    · rw [List.getElem?_append_left hlt] at hj
      exact absurd (List.mem_of_getElem? hj) hout
    · have hbound := (List.getElem?_eq_some_iff.1 hj).1
      rw [List.length_append, List.length_singleton] at hbound
      omega
  case outer =>
    intro i r hw hi
    rw [(written_eq_output hlen hread hw hi).1]
    exact h.planned.output

/-- Copies the first element of its input, and never fails. -/
def copyFirst : Body :=
  .native fun _ => .read 0 0 fun s => .write 1 0 (s.getD default) fun _ => .done

end

end Corewise.Loop
