import Corewise.Lowering.Trampoline
import Corewise.Proofs.Compiler
/-!
Trampolines at work. On operands of the ranks that a checked call signature asks for the bounds check
succeeds, and whatever comes of a call, it makes arrays and writes elements, and nothing else.
-/

namespace Corewise

variable {m m' : Memory}

/-- What stands for a core of `rank` axes, or for a scalar. -/
inductive Contents.HasRank : Contents → Nat → Prop
  | scalar (s : Scalar) : HasRank (.scalar s) 0
  | array (b : Buffer) (pos : b.rank ≠ 0) : HasRank (.array b) b.rank

/-- The operand is of the declared kind and rank, whatever its element type is. -/
inductive Contents.Suits : Contents → OperandType → Prop
  | scalar (s : Scalar) (dtype : DType) : Suits (.scalar s) (.scalar dtype)
  | array (b : Buffer) (dtype : DType) (layout : Layout) : Suits (.array b) (.array dtype b.rank layout)

theorem Contents.HasRank.suits {c : Contents} {rank : Nat} {type : OperandType} (h : c.HasRank rank)
    (hfits : FitsCore rank type) : c.Suits type := by
  cases hfits with
  | scalar dtype =>
    generalize hzero : 0 = rank at h
    cases h with
    | scalar s => exact .scalar s dtype
    | array b pos => exact absurd hzero.symm pos
  | array dtype layout hpos =>
    cases h with
    | scalar s => exact absurd rfl hpos
    | array b => exact .array b dtype layout

theorem Contents.Suits.grows {v : Value} {type : OperandType} (h : (m.contents v).Suits type)
    (hg : m.Grows m') (hv : m.Holds v) : (m'.contents v).Suits type := by
  cases v with
  | scalar s => exact h
  | array r =>
    have hrank : (m.buffer r).rank = (m'.buffer r).rank :=
      congrArg List.length (hg.buffer r hv).2.symm
    have harray : (Contents.array (m.buffer r)).Suits type := h
    cases harray with
    | array _ dtype layout =>
      rw [hrank]
      exact .array (m'.buffer r) dtype layout

namespace Action

theorem castTo_grows (v : Value) (source target : OperandType) :
    Effect.Keeps Memory.Grows (castTo v source target) := by
  intro m
  unfold castTo
  split
  · exact .refl m
  · exact .refl m
  · exact .refl m
  case h_4 r dtype rank _ =>
    show m.Grows ((if _ then _ else _ : Action Value).run m).2
    split
    · exact .refl m
    · split
      · exact .refl m
      · exact newArray_grows fun hm => (hm.buffer r).cast dtype
  case h_5 r dtype =>
    rw [Effect.run_get_bind]
    split
    · exact .refl m
    · exact .refl m
  · exact .refl m

/-- A cast value, next to the value that it was made from. -/
structure Converted (m : Memory) (v v' : Value) : Prop where
  holds : m.Holds v
  holds_converted : m.Holds v'
  shape : m.shape v' = m.shape v

theorem Converted.grows {v v' : Value} (h : Converted m v v') (hg : m.Grows m') :
    Converted m' v v' where
  holds := hg.holds h.holds
  holds_converted := hg.holds h.holds_converted
  shape := by rw [hg.shape h.holds_converted, hg.shape h.holds, h.shape]

end Action

namespace Lowering.Trampoline

theorem writeBack_grows (p : (Value × Value) × Bool) :
    Effect.Keeps Memory.Grows (writeBack p) := by
  unfold writeBack
  split
  · exact Action.assign_grows _ _ _
  · exact Effect.Keeps.pure _

theorem fits_of_suits {c : Contents} {type : OperandType} (h : c.Suits type) :
    fits c type = true := by
  cases h with
  | scalar s dtype => rfl
  | array b dtype layout => exact beq_self_eq_true b.rank

theorem rankConflict?_eq_none {t : Trampoline} {operands : List Contents}
    (h : List.Forall₂ Contents.Suits operands t.inner.args) : t.rankConflict? operands = none := by
  rw [rankConflict?, Option.map_eq_none_iff, List.find?_eq_none]
  rintro ⟨⟨c, type⟩, i⟩ hp
  rw [List.mem_zipIdx_iff_getElem?] at hp
  have hsuits := (List.forall₂_iff_zip.1 h).2 (List.mem_of_getElem? hp)
  simp [fits_of_suits hsuits]

/-- A call that passes the checks in front. -/
theorem call_run {t : Trampoline} {args : List Value} (hcount : args.length = t.inner.args.length)
    (hfits : t.boundsCheck = true → t.rankConflict? (m.contentsOf args) = none) :
    (t.call args).run m =
      (((args.zip (t.outer.args.zip t.inner.args)).mapM fun p =>
          Action.castTo p.1 p.2.1 p.2.2) >>= fun converted =>
        t.entry.call converted >>= fun _ =>
          ((args.zip converted).zip t.writable).forM writeBack).run m := by
  unfold call
  rw [if_neg (not_not.2 hcount)]
  split
  case isFalse => rfl
  case isTrue hbounds =>
    dsimp only
    rw [Effect.run_get_bind, hfits hbounds]

theorem call_grows (t : Trampoline) (args : List Value) :
    Effect.Keeps Memory.Grows (t.call args) := by
  intro m
  by_cases hcount : args.length = t.inner.args.length
  case neg =>
    unfold call
    rw [if_pos hcount]
    exact .refl m
  by_cases hfits : t.boundsCheck = true → t.rankConflict? (m.contentsOf args) = none
  case neg =>
    obtain ⟨hbounds, hconflict⟩ := Classical.not_imp.1 hfits
    obtain ⟨conflict, hconflict⟩ := Option.ne_none_iff_exists'.1 hconflict
    unfold call
    rw [if_neg (not_not.2 hcount), if_pos hbounds]
    dsimp only
    rw [Effect.run_get_bind, hconflict]
    exact .refl m
  rw [call_run hcount hfits]
  refine Effect.Keeps.bind (Effect.Keeps.mapM fun p _ => Action.castTo_grows _ _ _) ?_ m
  intro converted
  refine (t.entry.call_grows converted).bind fun _ => ?_
  exact Effect.Keeps.forM fun p _ => writeBack_grows p

/-- A trampoline to an artifact that was made by the recipe. -/
structure Serves (recipe : Recipe) (t : Trampoline) : Prop where
  checked : Compiler.Checked recipe.signature t.inner
  call : t.entry.call = recipe.kernel.body.call

theorem serves_of {recipe : Recipe} {a : Artifact} (h : a.Serves recipe) (outer : CallSignature)
    (writable : List Bool) (boundsCheck : Bool) :
    (Trampoline.of outer a writable boundsCheck).Serves recipe := ⟨h.checked, h.call⟩

end Lowering.Trampoline

end Corewise
