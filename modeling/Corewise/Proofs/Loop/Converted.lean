import Corewise.Proofs.Loop.Handed
import Corewise.Proofs.Loop.Reference
/-!
Loops over operands that have been converted. Converting arrays as a whole and converting the elements that
are taken from them comes to the same, so the kernel is handed the same whether its operands have been
converted before the loop or are converted on the way to it.
-/

namespace Corewise

theorem Contents.dtype_cast (c : Contents) (dtype : DType) : (c.cast dtype).dtype = dtype := by
  cases c with
  | scalar s => exact s.dtype_cast dtype
  | array b => rfl

theorem map_dtype_cast {contents : List Contents} {key : List DType}
    (h : contents.length = key.length) :
    (List.zipWith Contents.cast contents key).map Contents.dtype = key := by
  induction contents generalizing key with
  | nil => exact (List.length_eq_zero_iff.1 h.symm).symm
  | cons c contents ih =>
    cases key with
    | nil => cases h
    | cons dtype key =>
      rw [List.zipWith_cons_cons, List.map_cons, c.dtype_cast, ih (Nat.succ.inj h)]

theorem zipWith_cast_cast (contents : List Contents) (key : List DType) :
    List.zipWith Contents.cast (List.zipWith Contents.cast contents key) key =
      List.zipWith Contents.cast contents key := by
  induction contents generalizing key with
  | nil => rfl
  | cons c contents ih =>
    cases key with
    | nil => rfl
    | cons dtype key => simp only [List.zipWith_cons_cons, c.cast_cast, ih]

theorem Buffer.block_cast (b : Buffer) (dtype : DType) (start count : Nat) :
    (b.cast dtype).block start count = (b.block start count).map (·.cast dtype) := by
  rw [block, block, List.map_take, List.map_drop]
  rfl

namespace Loop

/-- Planning does not look at element types. -/
theorem plan_cast {signature : CoreSignature} {contents : List Contents} {key : List DType}
    (h : contents.length = key.length) :
    plan signature (List.zipWith Contents.cast contents key) = plan signature contents := by
  have hlength : (List.zipWith Contents.cast contents key).length = contents.length := by
    rw [List.length_zipWith, h, Nat.min_self]
  have hshapes : ((List.zipWith Contents.cast contents key).take signature.arity).map Contents.shape =
      (contents.take signature.arity).map Contents.shape := by
    rw [List.map_take, List.map_take]
    apply congrArg (List.take signature.arity)
    refine List.ext_getElem? fun i => ?_
    rw [List.getElem?_map, List.getElem?_map, List.getElem?_zipWith]
    rcases hc : contents[i]? with _ | c
    · rfl
    · have hi := (List.getElem?_eq_some_iff.1 hc).1
      rw [List.getElem?_eq_getElem (h ▸ hi)]
      exact congrArg some (c.shape_cast _)
  unfold plan
  dsimp only
  rw [hlength, hshapes, List.getElem?_zipWith]
  rcases hc : contents[signature.arity]? with _ | c
  case none => rfl
  case some =>
    have hi := (List.getElem?_eq_some_iff.1 hc).1
    rw [List.getElem?_eq_getElem (h ▸ hi)]
    cases c with
    | scalar s => rfl
    | array b => rfl

/-- The elements of a converted array are the elements converted. -/
theorem Access.Fits.held_cast {a : Access} {b : Buffer} (h : a.Fits b.shape) (hb : b.WellFormed)
    (dtype : DType) : a.held (b.cast dtype) = (a.held b).cast dtype := by
  have hrun : a.run (b.cast dtype) = (a.run b).map (·.cast dtype) := b.block_cast dtype _ _
  unfold held
  by_cases hrank : a.rank = 0
  case neg =>
    rw [if_neg hrank, if_neg hrank, hrun]
    rfl
  case pos =>
    rw [if_pos hrank, if_pos hrank, hrun]
    split
    · rfl
    · have hlength := h.length_run hb
      rw [hrank, coreOf_zero] at hlength
      obtain ⟨s, hs⟩ := List.length_eq_one_iff.1 hlength
      rw [hs]
      rfl

section

variable {signature : CoreSignature} {plan : Plan} {operands operands' : List Value}
  {writable : List Bool} {key : List DType} {m m' : Memory} {flat : Nat}

theorem elementOf_cast {v v' : Value} {a : Access} {dtype : DType} (hm : m.WellFormed)
    (hfits : a.Fits (m.shape v)) (h : m'.contents v' = (m.contents v).cast dtype) :
    elementOf m' (v', a) = (elementOf m (v, a)).cast dtype := by
  cases v with
  | scalar s =>
    cases v' with
    | scalar s' => exact h
    | array r' => cases h
  | array r =>
    cases v' with
    | scalar s' => cases h
    | array r' =>
      have hbuffer : m'.buffer r' = (m.buffer r).cast dtype := Contents.array.inj h
      show a.held (m'.buffer r') = (a.held (m.buffer r)).cast dtype
      rw [hbuffer]
      exact Access.Fits.held_cast hfits (hm.buffer r) dtype

/-- An iteration hands over the same, but converted, when all operands have been converted. -/
theorem Ready.elementsAt_cast (h : Ready signature plan operands m)
    (h' : Ready signature plan operands' m')
    (hcontents : m'.contentsOf operands' = List.zipWith Contents.cast (m.contentsOf operands) key)
    (writable : List Bool) (hflat : flat < plan.iterations) :
    elementsAt signature plan operands' writable m' flat =
      List.zipWith Contents.cast (elementsAt signature plan operands writable m flat) key := by
  have hlengths := congrArg List.length hcontents
  rw [List.length_zipWith, Memory.length_contentsOf, Memory.length_contentsOf] at hlengths
  refine List.ext_getElem? fun i => ?_
  rcases hv' : operands'[i]? with _ | v'
  case none =>
    have hi := List.getElem?_eq_none_iff.1 hv'
    rw [List.getElem?_eq_none, List.getElem?_eq_none]
    · rwa [List.length_zipWith, h.length_elementsAt, ← hlengths]
    · rwa [h'.length_elementsAt]
  case some =>
    obtain ⟨v, dtype, hv, hdtype, hcast⟩ := Memory.contents_of_cast hcontents hv'
    have hshape : m'.shape v' = m.shape v := by
      rw [Memory.shape, hcast, Contents.shape_cast]
      rfl
    obtain ⟨rank, hrank, -, -, -, haddressed⟩ := h.access writable flat hv
    obtain ⟨rank', hrank', -, -, -, haddressed'⟩ := h'.access writable flat hv'
    cases hrank.symm.trans hrank'
    rw [hshape] at haddressed'
    obtain ⟨-, hfits⟩ := h.fits hflat (List.mem_of_getElem? haddressed)
    rw [elementsAt, List.getElem?_map, haddressed', Option.map_some, eq_comm,
      List.getElem?_zipWith_eq_some]
    refine ⟨_, dtype, ?_, hdtype, (elementOf_cast h.wellFormed hfits hcast).symm⟩
    rw [elementsAt, List.getElem?_map, haddressed, Option.map_some]

theorem Ready.handedAt_cast (h : Ready signature plan operands m)
    (h' : Ready signature plan operands' m')
    (hcontents : m'.contentsOf operands' = List.zipWith Contents.cast (m.contentsOf operands) key)
    (writable : List Bool) (hflat : flat < plan.iterations) :
    handedAt signature plan operands' writable key m' flat =
      handedAt signature plan operands writable key m flat := by
  rw [handedAt, handedAt, h.elementsAt_cast h' hcontents writable hflat, zipWith_cast_cast]

end

variable {recipe : Recipe} {plan : Plan} {inputs inputs' operands : List Value} {out out' : Ref}
  {writable : List Bool} {key : List DType} {t t' : Lowering.Trampoline} {m m' m₁ m₁' : Memory}

/-- The part of the output that an iteration leaves is what the kernel has made of its core, converted. -/
theorem Ready.part_output (h : Ready recipe.signature plan operands m)
    (hout : operands[recipe.signature.arity]? = some (.array out))
    (ht : t.Converts recipe key writable) {done : List Nat}
    (hp : Progress recipe.signature plan operands writable t.call m done m₁) {k : Nat}
    (hk : k < plan.iterations) (hdone : k ∈ done)
    (hok : (recipe.kernel.body.transform
      (handedAt recipe.signature plan operands writable key m k)).1 = none) :
    ∃ dtype core, key[recipe.signature.arity]? = some dtype ∧
      (recipe.kernel.body.transform (handedAt recipe.signature plan operands writable key m
        k)).2[recipe.signature.arity]? = some (.array core) ∧
      (∀ s ∈ core.data, s.dtype = dtype) ∧
      part m₁ out recipe.signature.outputRank k = core.data.map (·.cast (m.buffer out).dtype) := by
  obtain ⟨-, a, dtype, core, -, -, hkey, hcore, hwf, hdtype, hafter, -⟩ :=
    (copied_elementsAt (.refl m)).after_handed (fun _ hgrows => hgrows) h hout ht hk hok (.inl rfl) hout
  refine ⟨dtype, core, hkey, hcore, fun s hs => (hwf.2 s hs).trans hdtype, ?_⟩
  rw [hp.parts _ out _ k (.inl rfl) hout getElem?_outputRank (Plan.lt_size hk), if_pos hdone, writtenAt, hafter]
  rfl

/-- What has been put back to the outputs of two loops whose operands differ in their types alone. -/
theorem Progress.output_converted (h : Ready recipe.signature plan (inputs ++ [.array out]) m)
    (h' : Ready recipe.signature plan (inputs' ++ [.array out']) m')
    (hlast : (inputs ++ [Value.array out])[recipe.signature.arity]? = some (.array out))
    (hlast' : (inputs' ++ [Value.array out'])[recipe.signature.arity]? = some (.array out'))
    (ht : t.Converts recipe key writable) (ht' : t'.Converts recipe key writable)
    (hcontents : m'.contentsOf (inputs' ++ [.array out']) =
      List.zipWith Contents.cast (m.contentsOf (inputs ++ [.array out])) key)
    (hsize : Shape.size (m.buffer out).shape < Shape.word)
    (hmade : ∀ k < plan.iterations, (recipe.kernel.body.transform (handedAt
      recipe.signature plan (inputs ++ [.array out]) writable key m k)).1 = none)
    {done done' : List Nat} (hall : ∀ k < plan.iterations, k ∈ done)
    (hall' : ∀ k < plan.iterations, k ∈ done')
    (hp : Progress recipe.signature plan (inputs ++ [.array out]) writable t.call m done m₁)
    (hp' : Progress recipe.signature plan (inputs' ++ [.array out']) writable t'.call m' done' m₁') :
    m₁.buffer out = (m₁'.buffer out').cast (m.buffer out).dtype := by
  obtain ⟨dtype, hkey, hcast⟩ : ∃ dtype, key[recipe.signature.arity]? = some dtype ∧
      m'.buffer out' = (m.buffer out).cast dtype := by
    obtain ⟨v, dtype, hv, hdtype, hcast⟩ := Memory.contents_of_cast hcontents hlast'
    cases hlast.symm.trans hv
    exact ⟨dtype, hdtype, Contents.array.inj hcast⟩
  obtain ⟨hdtype, hshape⟩ := hp.grows.buffer out (h.holds _ (List.mem_of_getElem? hlast))
  obtain ⟨-, hshape'⟩ := hp'.grows.buffer out' (h'.holds _ (List.mem_of_getElem? hlast'))
  replace hshape' : (m₁'.buffer out').shape = (m.buffer out).shape := hshape'.trans (hcast ▸ rfl)
  have hsplit := h.output_shape hlast
  apply Buffer.ext_blocks ((hp.grows.wellFormed h.wellFormed).buffer out)
    (Buffer.WellFormed.cast ((hp'.grows.wellFormed h'.wellFormed).buffer out') _) hdtype
    (hshape.trans hsplit) (hshape'.trans hsplit)
  intro k hk
  rcases Nat.eq_zero_or_pos (Shape.size (coreOf (m.buffer out).shape recipe.signature.outputRank))
    with hzero | hpos
  case inl => rw [hzero, Buffer.block, Buffer.block, List.take_zero, List.take_zero]
  -- No part of the output is left out, since there are not more parts than elements.
  replace hk : k < plan.iterations := by
    rw [hsplit, Shape.size_append] at hsize
    rw [Plan.iterations, Shape.count_of_lt (Nat.lt_of_le_of_lt (Nat.le_mul_of_pos_right _ hpos) hsize)]
    exact hk
  have hsame := h.handedAt_cast h' hcontents writable hk
  obtain ⟨dtype₁, core, hkey₁, hcore, hcoreType, hpart⟩ :=
    h.part_output hlast ht hp hk (hall k hk) (hmade k hk)
  obtain ⟨-, core', -, hcore', -, hpart'⟩ :=
    h'.part_output hlast' ht' hp' hk (hall' k hk) (by rw [hsame]; exact hmade k hk)
  cases hkey.symm.trans hkey₁
  rw [hsame] at hcore'
  cases hcore.symm.trans hcore'
  rw [part, coreSize, hshape] at hpart
  rw [part, coreSize, hshape'] at hpart'
  -- What the kernel has made has the type of the converted output already.
  have hkept : core.data.map (·.cast (m'.buffer out').dtype) = core.data := by
    rw [hcast]
    exact Buffer.map_cast_of_dtype hcoreType
  rw [Buffer.block_cast, hpart, hpart', hkept]

/-- With inputs that are only read and an output of its own, whose elements a machine word can count, a loop that
succeeds succeeds on converted operands as well, and its output is what that leaves, converted back. -/
theorem runAll_converted (h : Ready recipe.signature plan (inputs ++ [.array out]) m)
    (h' : Ready recipe.signature plan (inputs' ++ [.array out']) m')
    (hlen : inputs.length = recipe.signature.arity)
    (hlen' : inputs'.length = recipe.signature.arity)
    (hout : .array out ∉ inputs) (hout' : .array out' ∉ inputs')
    (hread : ∀ i < recipe.signature.arity, writable.getD i false = false)
    (ht : t.Converts recipe key writable) (ht' : t'.Converts recipe key writable)
    (hcontents : m'.contentsOf (inputs' ++ [.array out']) =
      List.zipWith Contents.cast (m.contentsOf (inputs ++ [.array out])) key)
    (hsize : Shape.size (m.buffer out).shape < Shape.word)
    {parallel : Bool}
    (hrun : (runAll recipe.signature plan (inputs ++ [.array out]) writable t.call parallel).run m =
      (.ok (), m₁)) :
    ∃ m₁', (runAll recipe.signature plan (inputs' ++ [.array out']) writable t'.call parallel).run m' =
        (.ok (), m₁') ∧
      m₁.buffer out = (m₁'.buffer out').cast (m.buffer out).dtype := by
  have hI := h.independent hlen hout hread
  have hI' := h'.independent hlen' hout' hread
  have hlast : (inputs ++ [Value.array out])[recipe.signature.arity]? = some (.array out) := by
    rw [← hlen, List.getElem?_concat_length]
  have hlast' : (inputs' ++ [Value.array out'])[recipe.signature.arity]? = some (.array out') := by
    rw [← hlen', List.getElem?_concat_length]
  -- The kernel is handed the same in both runs, so it succeeds in both.
  have hsame (k : Nat) (hk : k < plan.iterations) := h.handedAt_cast h' hcontents writable hk
  have hok := (h.runAll_ok_iff t.call_grows hI parallel).1 (congrArg Prod.fst hrun)
  have hmade (k : Nat) (hk : k < plan.iterations) : (recipe.kernel.body.transform (handedAt
      recipe.signature plan (inputs ++ [.array out]) writable key m k)).1 = none := by
    rw [← Body.verdict_eq_ok, ← (h.outcome_handed hlast ht hk).1]
    exact hok k hk
  have hok' (k : Nat) (hk : k < plan.iterations) : (outcome t'.call
      (elementsAt recipe.signature plan (inputs' ++ [.array out']) writable m' k)).result = .ok () := by
    rw [(h'.outcome_handed hlast' ht' hk).1, hsame k hk, Body.verdict_eq_ok]
    exact hmade k hk
  obtain ⟨m₂, done, hrun₂, hall, hp⟩ := h.runAll_progress t.call_grows hI parallel hok
  cases hrun.symm.trans hrun₂
  obtain ⟨m₁', done', hrun', hall', hp'⟩ := h'.runAll_progress t'.call_grows hI' parallel hok'
  refine ⟨m₁', hrun', ?_⟩
  exact Progress.output_converted h h' hlast hlast' ht ht' hcontents hsize hmade
    (fun k hk => hall.mem_iff.2 (List.mem_range.2 hk)) (fun k hk => hall'.mem_iff.2 (List.mem_range.2 hk))
    hp hp'

end Loop

end Corewise
