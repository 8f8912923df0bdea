import Corewise.Proofs.Casting
import Corewise.Proofs.Loop.Handed
import Corewise.Proofs.Loop.Reference
/-!
What the kernel gets from a loop, in each iteration that has been begun, whether the loop succeeds or not. It
is what the iterations before have left of the operands, converted, and inputs that nothing is put back to
are still what they were before the loop.
-/

namespace Corewise

theorem Buffer.dtype_of_slice {b part : Buffer} {index : List Nat} (h : b.slice index = .ok part) :
    part.dtype = b.dtype := by
  obtain ⟨place, -, hpart⟩ := Effect.bind_eq_ok.1 h
  cases hpart
  rfl

namespace Loop

section

variable {m m' : Memory} {index : List Nat} {rank : Nat} {v : Value} {e : Contents}

theorem InputAt.dtype_eq (h : InputAt m index rank v e) (hm : m.WellFormed) : e.dtype = m.dtype v := by
  cases h with
  | scalar s => rfl
  | @bare r inner s _ _ get =>
    obtain ⟨k, hk, -⟩ := Option.bind_eq_some_iff.1 get
    obtain ⟨s', hget, hdtype, -⟩ := (hm.buffer r).get?_eq hk
    cases get.symm.trans hget
    exact hdtype
  | core _ _ slice => exact Buffer.dtype_of_slice slice

theorem InputAt.of_contents (h : InputAt m index rank v e) (hsame : m'.contents v = m.contents v) :
    InputAt m' index rank v e := by
  cases v with
  | scalar s =>
    cases h
    exact .scalar s
  | array r =>
    have hbuffer : m.buffer r = m'.buffer r := (Contents.array.inj hsame).symm
    cases h with
    | bare bare reads get => exact .bare bare (hbuffer ▸ reads) (hbuffer ▸ get)
    | core core reads slice => exact .core core (hbuffer ▸ reads) (hbuffer ▸ slice)

end

variable {signature : CoreSignature} {plan : Plan} {operands : List Value} {writable : List Bool}
  {m m' : Memory}

/-- The element of an input is what broadcasting leads to. -/
theorem Ready.input_at (h : Ready signature plan operands m) (writable : List Bool) {flat : Nat}
    (hflat : flat < plan.iterations) {i rank : Nat} {v : Value} (hv : operands[i]? = some v)
    (hrank : signature.inputRanks[i]? = some rank) :
    ∃ e, (elementsAt signature plan operands writable m flat)[i]? = some e ∧
      InputAt m (Shape.unravel flat plan.outer) rank v e := by
  obtain ⟨rank', hrank', -, -, hstretches, haddressed⟩ := h.access writable flat hv
  cases (getElem?_inputRanks hrank).symm.trans hrank'
  have hinput : (i == signature.arity) = false := by
    have hlt : i < signature.inputRanks.length := (List.getElem?_eq_some_iff.1 hrank).1
    rw [CoreSignature.inputRanks, List.length_map] at hlt
    exact beq_eq_false_iff_ne.2 (Nat.ne_of_lt hlt)
  have hlength : (outerOf (m.shape v) rank).length ≤ (Shape.unravel flat plan.outer).length :=
    (Plan.inRange_unravel hflat).length_eq ▸ hstretches.length_le
  refine ⟨_, by rw [elementsAt, List.getElem?_map, haddressed, Option.map_some], ?_⟩
  exact (inputAt_iff (a := accessAt signature plan writable flat i rank (outerOf (m.shape v) rank))
    hinput rfl hlength).2 (h.element_eq hflat (List.mem_of_getElem? haddressed)).1

variable {recipe : Recipe} {key : List DType} {t : Lowering.Trampoline} {out : Ref}

/-- One iteration hands over one list of elements, and goes on only if the kernel succeeds on them. -/
theorem Ready.iterate_served (h : Ready recipe.signature plan operands m)
    (hout : operands[recipe.signature.arity]? = some (.array out))
    (ht : t.Converts recipe key writable) {flat : Nat} (hflat : flat < plan.iterations)
    {result : Except Error Unit}
    (hrun : (iterate recipe.signature plan operands writable t.call flat).run m = (result, m')) :
    m.Grows m' ∧ m'.invocations =
      m.invocations ++ [handedAt recipe.signature plan operands writable key m flat] := by
  obtain ⟨-, hnoted⟩ := h.outcome_handed hout ht hflat
  refine ⟨(iterate_grows flat).of_run hrun, ?_⟩
  rw [← hnoted]
  rcases houtcome : (outcome t.call (elementsAt recipe.signature plan operands writable m flat)).result
    with e | ⟨⟩
  case error =>
    cases hrun.symm.trans (h.iterate_of_error hflat houtcome)
    rfl
  case ok =>
    obtain ⟨m₁, hrun₁, -, hinvocations⟩ := h.iterate_of_ok t.call_grows hflat houtcome
    cases hrun.symm.trans hrun₁
    exact hinvocations

/-- What iterations in a row hand over, up to the first in which the kernel fails. -/
theorem Ready.runOrder_served (h : Ready recipe.signature plan operands m)
    (hout : operands[recipe.signature.arity]? = some (.array out))
    (ht : t.Converts recipe key writable) {order : List Nat}
    (horder : ∀ flat ∈ order, flat < plan.iterations) {result : Except Error Unit}
    (hrun : (runOrder recipe.signature plan operands writable t.call order).run m = (result, m')) :
    ∃ handed, m'.invocations = m.invocations ++ handed ∧ handed.length ≤ order.length ∧
      (result = .ok () → handed.length = order.length) ∧
      ∀ k held, handed[k]? = some held → ∃ flat before, order[k]? = some flat ∧
        (runOrder recipe.signature plan operands writable t.call (order.take k)).run m =
          (.ok (), before) ∧ m.Grows before ∧
        held = handedAt recipe.signature plan operands writable key before flat := by
  induction order generalizing m with
  | nil =>
    cases hrun
    exact ⟨[], (List.append_nil _).symm, Nat.le_refl 0, fun _ => rfl, nofun⟩
  | cons flat order ih =>
    obtain ⟨hflat, hrest⟩ := List.forall_mem_cons.1 horder
    rcases hfirst : (iterate recipe.signature plan operands writable t.call flat).run m with
      ⟨e | ⟨⟩, m₁⟩
    all_goals obtain ⟨hgrows, hinvocations⟩ := h.iterate_served hout ht hflat hfirst
    case error =>
      cases hrun.symm.trans (Effect.run_bind_of_error hfirst)
      refine ⟨[_], hinvocations, Nat.succ_le_succ (Nat.zero_le _), nofun, fun k held hk => ?_⟩
      cases k with
      | zero =>
        cases hk
        exact ⟨flat, m, rfl, rfl, .refl m, rfl⟩
      | succ k => cases hk
    case ok =>
      have hlater : (runOrder recipe.signature plan operands writable t.call order).run m₁ =
          (result, m') := (Effect.run_bind_of_ok hfirst).symm.trans hrun
      obtain ⟨handed, hinvocations', hlength, hall, hserved⟩ := ih (h.grows hgrows) hrest hlater
      refine ⟨handedAt recipe.signature plan operands writable key m flat :: handed, ?_,
        Nat.succ_le_succ hlength, fun hok => congrArg Nat.succ (hall hok), fun k held hk => ?_⟩
      · rw [hinvocations', hinvocations]
        exact List.append_assoc _ [_] _
      · cases k with
        | zero =>
          cases hk
          exact ⟨flat, m, rfl, rfl, .refl m, rfl⟩
        | succ k =>
          obtain ⟨flat', before, hflat', hbefore, hgrows', hheld⟩ := hserved k held hk
          exact ⟨flat', before, hflat', (Effect.run_bind_of_ok hfirst).trans hbefore,
            hgrows.trans hgrows', hheld⟩

end Loop

end Corewise
