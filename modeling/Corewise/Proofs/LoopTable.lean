import Corewise.LoopTable
import Corewise.Proofs.Loop.Binding
import Corewise.Proofs.Loop.Trace
import Corewise.Proofs.Lowering.Conversion
/-!
Loop tables at work. The elements that a loop hands over have the ranks that the compiler has checked, so
once the operands are planned only the kernel can fail; before that it is their shapes.
-/

namespace Corewise

namespace Lowering

def Pass.Serves (recipe : Recipe) (p : Pass) : Prop := ∀ q ∈ p.trampolines, q.2.Serves recipe

theorem Pass.serves_empty (recipe : Recipe) (name : String) : (Pass.empty name).Serves recipe :=
  fun _ hq => absurd hq List.not_mem_nil

theorem Pass.Serves.trampoline {recipe : Recipe} {p : Pass} {a : Artifact} (h : p.Serves recipe)
    (ha : a.Serves recipe) (request : Request) (writable : List Bool) (boundsCheck : Bool) :
    (p.trampoline request a writable boundsCheck).1.Serves recipe ∧
      (p.trampoline request a writable boundsCheck).2.Serves recipe := by
  unfold Pass.trampoline
  split
  case h_1 t hfound =>
    obtain ⟨l₁, l₂, hl, -⟩ := List.lookup_eq_some_iff.1 hfound
    exact ⟨h (request, t) (hl ▸ by simp), h⟩
  case h_2 =>
    have ht := Trampoline.serves_of ha request.1 writable boundsCheck
    refine ⟨ht, fun q hq => ?_⟩
    rcases List.mem_append.1 hq with hq | hq
    · exact h q hq
    · exact List.mem_singleton.1 hq ▸ ht

end Lowering

namespace Loop

variable {signature : CoreSignature} {plan : Plan} {operands : List Value} {writable : List Bool}
  {m m' : Memory} {flat : Nat} {elements : List Contents}

theorem hasRank_of_eq {b : Buffer} {rank : Nat} (h : b.shape.length = rank) (pos : rank ≠ 0) :
    (Contents.array b).HasRank rank := by
  have hrank := Contents.HasRank.array b (show b.shape.length ≠ 0 from h ▸ pos)
  rwa [show b.rank = rank from h] at hrank

theorem Access.held_hasRank {a : Access} {b : Buffer} (hle : a.rank ≤ b.shape.length) :
    (a.held b).HasRank (if a.isOutput then max a.rank 1 else a.rank) := by
  unfold held
  by_cases hzero : a.rank = 0
  case pos =>
    rw [if_pos hzero, hzero]
    split
    · exact hasRank_of_eq rfl Nat.one_ne_zero
    · exact .scalar _
  case neg =>
    rw [if_neg hzero]
    have hcore := hasRank_of_eq (b := ⟨b.dtype, coreOf b.shape a.rank, a.run b⟩)
      (length_coreOf hle) hzero
    split
    · rwa [Nat.max_eq_left (Nat.one_le_iff_ne_zero.2 hzero)]
    · exact hcore

/-- The kernel is handed what the compiler has checked its operands to be. -/
theorem Ready.hasRank (h : Ready signature plan operands m) {out : Ref}
    (hout : operands[signature.arity]? = some (.array out)) {i rank : Nat} {e : Contents}
    (hrank : signature.kernelRanks[i]? = some rank)
    (he : (elementsAt signature plan operands writable m flat)[i]? = some e) : e.HasRank rank := by
  rw [elementsAt, List.getElem?_map, Option.map_eq_some_iff] at he
  obtain ⟨⟨v, a⟩, hp, rfl⟩ := he
  have hv : operands[i]? = some v := (List.getElem?_zip_eq_some.1 hp).1
  obtain ⟨rank', hrank', hle, -, -, hp'⟩ := h.access writable flat hv
  cases Option.some.inj (hp.symm.trans hp')
  have hlength : signature.inputRanks.length = signature.arity := List.length_map _
  rcases Nat.lt_or_ge i signature.arity with hlt | hge
  case inl =>
    rw [CoreSignature.kernelRanks, List.getElem?_append_left (hlength ▸ hlt)] at hrank
    rw [ranks_eq, List.getElem?_append_left (hlength ▸ hlt), hrank] at hrank'
    cases hrank'
    have hinput : (i == signature.arity) = false := beq_eq_false_iff_ne.2 (Nat.ne_of_lt hlt)
    cases v with
    | scalar s =>
      cases Nat.le_zero.1 hle
      exact .scalar s
    | array r =>
      have hheld := Access.held_hasRank (b := m.buffer r)
        (a := accessAt signature plan writable flat i rank (outerOf (m.buffer r).shape rank)) hle
      rwa [show Access.isOutput _ = false from hinput, if_neg Bool.false_ne_true] at hheld
  case inr =>
    have hi : i = signature.arity := by
      have hbound := (List.getElem?_eq_some_iff.1 hrank).1
      rw [CoreSignature.kernelRanks, List.length_append, hlength, List.length_singleton] at hbound
      omega
    subst hi
    cases hv.symm.trans hout
    rw [CoreSignature.kernelRanks, List.getElem?_append_right (Nat.le_of_eq hlength), hlength,
      Nat.sub_self] at hrank
    cases hrank
    rw [getElem?_outputRank] at hrank'
    cases hrank'
    have hheld := Access.held_hasRank (b := m.buffer out) (a := accessAt signature plan writable flat
      signature.arity signature.outputRank (outerOf (m.buffer out).shape signature.outputRank)) hle
    rwa [show Access.isOutput _ = true from beq_self_eq_true signature.arity, if_pos rfl] at hheld

/-- What a loop hands over is of the kinds and the ranks that the kernel was compiled for. -/
theorem Copied.suits {recipe : Recipe}
    (hc : Copied recipe.signature plan operands writable m.Grows flat elements)
    (h : Ready recipe.signature plan operands m) {out : Ref}
    (hout : operands[recipe.signature.arity]? = some (.array out)) {call : CallSignature}
    (hcall : Compiler.Checked recipe.signature call) :
    List.Forall₂ Contents.Suits elements call.args := by
  have hcount := h.planned.count
  rw [List.length_map] at hcount
  rw [List.forall₂_iff_get]
  refine ⟨by rw [hc.length_eq m, h.length_elementsAt, hcount, hcall.count], fun i hi hi' => ?_⟩
  have hrank : i < recipe.signature.kernelRanks.length := by
    rw [CoreSignature.length_kernelRanks, ← hcall.count]
    exact hi'
  obtain ⟨m₁, hgrows, helement⟩ := hc.elementsAt (List.getElem?_eq_getElem hi)
  exact ((h.grows hgrows).hasRank hout (List.getElem?_eq_getElem hrank) helement).suits
    (hcall.fits i _ _ (List.getElem?_eq_getElem hrank) (List.getElem?_eq_getElem hi'))

theorem Ready.suits {recipe : Recipe} (h : Ready recipe.signature plan operands m) {out : Ref}
    (hout : operands[recipe.signature.arity]? = some (.array out)) {call : CallSignature}
    (hcall : Compiler.Checked recipe.signature call) (writable : List Bool) (flat : Nat) :
    List.Forall₂ Contents.Suits (elementsAt recipe.signature plan operands writable m flat)
      call.args := (copied_elementsAt (.refl m)).suits h hout hcall

/-- A trampoline that serves the recipe fails only where the kernel does, in its last invocation. -/
theorem outcome_raised {recipe : Recipe} {t : Lowering.Trampoline} (ht : t.Serves recipe)
    (hwf : ∀ e ∈ elements, e.WellFormed) (hsuits : List.Forall₂ Contents.Suits elements t.inner.args)
    {e : Error} (he : (outcome t.call elements).result = .error e) :
    ∃ text held, e = .kernel text ∧ (outcome t.call elements).noted.getLast? = some held ∧
      recipe.kernel.body.Raises text held := by
  have hplaced := placed_place elements .empty
  unfold outcome at he ⊢
  generalize place elements .empty = placed at he hplaced ⊢
  rw [← hplaced.contents] at hsuits
  obtain ⟨values, m₂, hentry⟩ := Lowering.Trampoline.call_error
    (hplaced.wellFormed Memory.wellFormed_empty hwf) hplaced.holds hsuits (Prod.ext he rfl)
  rw [ht.call] at hentry
  obtain ⟨text, rfl, held, hlast, hraises⟩ := Body.call_error hentry
  exact ⟨text, held, rfl, hlast, hraises⟩

section Trampoline

variable {recipe : Recipe} {t : Lowering.Trampoline} {out : Ref} {e : Error}

/-- Through a trampoline that serves the recipe only the kernel can make a loop fail. -/
theorem Ready.runOrder_trampoline (h : Ready recipe.signature plan operands m)
    (hout : operands[recipe.signature.arity]? = some (.array out)) (ht : t.Serves recipe)
    {order : List Nat} (horder : ∀ flat ∈ order, flat < plan.iterations)
    (he : (runOrder recipe.signature plan operands writable t.call order).run m = (.error e, m')) :
    ∃ text, e = .kernel text ∧ recipe.kernel.body.RaisedIn text m' := by
  obtain ⟨before, flat, after, m₁, rfl, -, hready, hfailed, rfl⟩ :=
    h.runOrder_error t.call_grows horder he
  have hflat : flat < plan.iterations := horder flat (by simp)
  obtain ⟨text, held, rfl, hlast, hraises⟩ := outcome_raised ht (hready.elements_wellFormed writable hflat)
    (hready.suits hout ht.checked writable flat) hfailed
  refine ⟨text, rfl, held, ?_, hraises⟩
  show (m₁.invocations ++ _).getLast? = some held
  rw [List.getLast?_append, hlast, Option.some_or]

/-- However the iterations take turns, the kernel has failed in one of them if any has failed. -/
theorem Ready.traced_trampoline (h : Ready recipe.signature plan operands m)
    (hout : operands[recipe.signature.arity]? = some (.array out)) (ht : t.Serves recipe)
    {order : List Nat} (horder : ∀ flat ∈ order, flat < plan.iterations) {s : Memory × List Task}
    {calls : List Handover}
    (htraced : Traced recipe.signature plan operands writable t.call m order s calls)
    (he : .failed e ∈ s.2) :
    ∃ text noted held, e = .kernel text ∧ s.1.invocations = m.invocations ++ noted ∧ held ∈ noted ∧
      recipe.kernel.body.Raises text held := by
  have hconsistent := htraced.consistent h t.call_grows horder (fun _ hgrows => hgrows)
    fun _ _ earlier => earlier.grows
  obtain ⟨c, hc, hraised⟩ := hconsistent.exists_raised he
  have hcopied := hconsistent.copied c hc
  obtain ⟨text, held, rfl, hlast, hraises⟩ := outcome_raised ht
    (hcopied.wellFormed h (hconsistent.lt c hc)) (hcopied.suits h hout ht.checked) hraised
  exact ⟨text, _, held, rfl, htraced.invocations,
    List.mem_flatMap.2 ⟨c, hc, List.mem_of_getLast? hlast⟩, hraises⟩

/-- A loop fails only for the kernel, whichever way it runs its iterations. -/
theorem Ready.runAll_trampoline (h : Ready recipe.signature plan operands m)
    (hout : operands[recipe.signature.arity]? = some (.array out)) (ht : t.Serves recipe)
    {parallel : Bool}
    (he : (runAll recipe.signature plan operands writable t.call parallel).run m = (.error e, m')) :
    ∃ text, e = .kernel text ∧ recipe.kernel.body.Raised parallel text m m' := by
  have hbelow : ∀ flat ∈ List.range plan.iterations, flat < plan.iterations :=
    fun _ => List.mem_range.1
  obtain ⟨tasks, calls, htraced, hended, -⟩ :=
    @traced_runAll recipe.signature plan operands writable t.call parallel m
  rw [he] at htraced hended
  cases hended with
  | stopped raised _ =>
    obtain ⟨text, noted, held, rfl, hnoted, hheld, hraises⟩ :=
      h.traced_trampoline hout ht hbelow htraced raised
    refine ⟨text, rfl, ⟨noted, held, hnoted, hheld, hraises⟩, ?_⟩
    rintro rfl
    rw [runAll_sequential] at he
    obtain ⟨text', htext, hraised⟩ := h.runOrder_trampoline hout ht hbelow he
    cases htext
    exact hraised

end Trampoline

end Loop

/-- How a call on the operands may fail, with the memory before and after it. -/
inductive LoopTable.Failure (recipe : Recipe) (operands : List Value) (m m' : Memory) : Error → Prop
  | planning {conflict : ShapeConflict}
      (refused : Loop.plan recipe.signature (m.contentsOf operands) =
        .error (.shapeConflict conflict)) : Failure recipe operands m m' (.shapeConflict conflict)
  /-- No output can be made for the inputs. -/
  | allocation {function : String} {conflict : ShapeConflict}
      (missing : operands.length = recipe.signature.arity)
      (refused : Loop.outputShape function recipe.signature (operands.map m.shape) =
        .error (.shapeConflict conflict)) : Failure recipe operands m m' (.shapeConflict conflict)
  /-- The output that was made does not fit the inputs. -/
  | allocated {output : Value} {conflict : ShapeConflict}
      (missing : operands.length = recipe.signature.arity)
      (refused : Loop.plan recipe.signature (m'.contentsOf (operands ++ [output])) =
        .error (.shapeConflict conflict)) : Failure recipe operands m m' (.shapeConflict conflict)
  | kernel {text : String} (raised : recipe.kernel.body.Raised recipe.options.parallel text m m') :
      Failure recipe operands m m' (.kernel text)

/-- Trampolines of the recipe stay so. -/
def Execution.Keeps (recipe : Recipe) (x y : Execution) : Prop :=
  x.pass.Serves recipe → y.pass.Serves recipe

instance (recipe : Recipe) : Std.Refl (Execution.Keeps recipe) := ⟨fun _ h => h⟩

instance (recipe : Recipe) :
    Trans (Execution.Keeps recipe) (Execution.Keeps recipe) (Execution.Keeps recipe) :=
  ⟨fun h h' hx => h' (h hx)⟩

theorem Execute.onMemory_keeps {α : Type} (recipe : Recipe) (a : Action α) :
    Effect.Keeps (Execution.Keeps recipe) (Execute.onMemory a) := fun _ h => h

namespace LoopTable

variable {t : LoopTable} {recipe : Recipe} {operands : List Value} {loop : Specialization}
  {x y : Execution}

/-- A table of entries that were made by the recipe. -/
structure Sound (recipe : Recipe) (t : LoopTable) : Prop where
  signature : t.signature = recipe.signature
  options : t.options = recipe.options
  valid : ∀ loop ∈ t.loops, loop.Valid recipe

theorem execute_of_error {e : Error}
    (h : Loop.plan t.signature (x.memory.contentsOf operands) = .error e) :
    (t.execute operands loop).run x = (.error e, x) := by
  unfold execute
  rw [Effect.run_get_bind, h]
  rfl

/-- The trampoline to a loop, with the pass that it is in. -/
def trampolineFor (t : LoopTable) (operands : List Value) (loop : Specialization) (x : Execution) :
    Lowering.Trampoline × Lowering.Pass :=
  x.pass.trampoline (Loop.elementSignature t.signature (x.memory.dtypes operands), loop.key)
    loop.artifact t.writable t.options.boundsCheck

theorem execute_of_ok {plan : Loop.Plan}
    (h : Loop.plan t.signature (x.memory.contentsOf operands) = .ok plan) :
    (t.execute operands loop).run x =
      let ran := (Loop.runAll t.signature plan operands t.writable
        (t.trampolineFor operands loop x).1.call t.options.parallel).run x.memory
      (ran.1, ⟨(t.trampolineFor operands loop x).2, ran.2⟩) := by
  unfold execute
  rw [Effect.run_get_bind, h]
  rfl

theorem execute_keeps (hloop : loop.Valid recipe) :
    Effect.Keeps (Execution.Keeps recipe) (t.execute operands loop) := by
  intro x hx
  rcases hplan : Loop.plan t.signature (x.memory.contentsOf operands) with e | plan
  · rw [execute_of_error hplan]
    exact hx
  · rw [execute_of_ok hplan]
    exact (hx.trampoline hloop.serves _ _ _).2

/-- Running a loop keeps what making an output and running it over all operands keep. -/
theorem executeWith_keeps_of {R : Execution → Execution → Prop} [Std.Refl R] [Trans R R R]
    (hallocate : ∀ inputs dtype, Effect.Keeps R (Execute.onMemory (t.allocate inputs dtype)))
    (hexecute : ∀ operands, Effect.Keeps R (t.execute operands loop)) :
    Effect.Keeps R (t.executeWith operands loop) := by
  have hrun (operands : List Value) : Effect.Keeps R
      (t.execute operands loop >>= fun _ => pure (operands.getD t.arity (.scalar default))) :=
    (hexecute operands).bind fun _ => Effect.Keeps.pure _
  unfold executeWith
  dsimp only
  split
  case isTrue =>
    split
    · exact (hallocate _ _).bind fun _ => (Effect.Keeps.pure _).bind hrun
    · exact (Effect.Keeps.pure _).bind hrun
  case isFalse => exact (Effect.Keeps.pure _).bind hrun

theorem executeWith_keeps (hloop : loop.Valid recipe) :
    Effect.Keeps (Execution.Keeps recipe) (t.executeWith operands loop) :=
  executeWith_keeps_of (fun _ _ => Execute.onMemory_keeps recipe _) fun _ => execute_keeps hloop

theorem Sound.of_select (h : t.Sound recipe) {query : List DType}
    (hselect : t.select? query = some loop) : loop.Valid recipe :=
  h.valid loop (Dispatch.mem_of_select hselect)

section Planned

variable (ht : t.Sound recipe) (hx : x.pass.Serves recipe) (hloop : loop.Valid recipe)
  (hm : x.memory.WellFormed) (hheld : ∀ v ∈ operands, x.memory.Holds v) {plan : Loop.Plan}
  (hplan : Loop.plan t.signature (x.memory.contentsOf operands) = .ok plan) {order : List Nat}
  {e : Error}
include ht hx hloop hm hheld hplan

/-- Once the operands are planned only the kernel can fail, in whichever order the iterations run. -/
theorem runOrder_planned {m : Memory} (horder : ∀ flat ∈ order, flat < plan.iterations)
    (he : (Loop.runOrder t.signature plan operands t.writable
      (t.trampolineFor operands loop x).1.call order).run x.memory = (.error e, m)) :
    ∃ text, e = .kernel text ∧ recipe.kernel.body.RaisedIn text m := by
  have hserves : (t.trampolineFor operands loop x).1.Serves recipe :=
    (hx.trampoline hloop.serves ..).1
  generalize (t.trampolineFor operands loop x).1 = trampoline at he hserves
  rw [ht.signature] at hplan he
  obtain ⟨-, out, hout⟩ := Loop.output_of_plan hplan
  exact (Loop.ready_of_plan hplan hm hheld).runOrder_trampoline hout hserves horder he

/-- However they take turns, an iteration fails only when the kernel does. -/
theorem interleaves_planned {m : Memory} {tasks : List Loop.Task}
    (hreached : Loop.Interleaves t.signature plan operands t.writable
      (t.trampolineFor operands loop x).1.call
      (x.memory, (List.range plan.iterations).map .waiting) (m, tasks)) (he : .failed e ∈ tasks) :
    ∃ text noted held, e = .kernel text ∧ m.invocations = x.memory.invocations ++ noted ∧
      held ∈ noted ∧ recipe.kernel.body.Raises text held := by
  have hserves : (t.trampolineFor operands loop x).1.Serves recipe :=
    (hx.trampoline hloop.serves ..).1
  generalize (t.trampolineFor operands loop x).1 = trampoline at hreached hserves
  rw [ht.signature] at hplan hreached
  obtain ⟨-, out, hout⟩ := Loop.output_of_plan hplan
  obtain ⟨calls, htraced⟩ := hreached.traced
  exact (Loop.ready_of_plan hplan hm hheld).traced_trampoline hout hserves
    (fun _ => List.mem_range.1) htraced he

theorem execute_planned (he : (t.execute operands loop).run x = (.error e, y)) :
    ∃ text, e = .kernel text ∧
      recipe.kernel.body.Raised recipe.options.parallel text x.memory y.memory := by
  have hserves : (t.trampolineFor operands loop x).1.Serves recipe :=
    (hx.trampoline hloop.serves ..).1
  rw [execute_of_ok hplan] at he
  generalize (t.trampolineFor operands loop x) = trampoline at he hserves
  obtain ⟨hresult, rfl⟩ := Prod.mk.injEq .. ▸ he
  rw [ht.signature] at hplan
  rw [ht.options, ht.signature] at hresult ⊢
  obtain ⟨-, out, hout⟩ := Loop.output_of_plan hplan
  exact (Loop.ready_of_plan hplan hm hheld).runAll_trampoline hout hserves (Prod.ext hresult rfl)

end Planned

theorem execute_error (ht : t.Sound recipe) (hx : x.pass.Serves recipe)
    (hloop : loop.Valid recipe) (hm : x.memory.WellFormed)
    (hheld : ∀ v ∈ operands, x.memory.Holds v) {e : Error}
    (he : (t.execute operands loop).run x = (.error e, y)) :
    (∃ conflict, e = .shapeConflict conflict ∧ y = x ∧
      Loop.plan recipe.signature (x.memory.contentsOf operands) = .error (.shapeConflict conflict)) ∨
    ∃ text, e = .kernel text ∧
      recipe.kernel.body.Raised recipe.options.parallel text x.memory y.memory := by
  rcases hplan : Loop.plan t.signature (x.memory.contentsOf operands) with e' | plan
  · rw [execute_of_error hplan] at he
    cases he
    obtain ⟨conflict, rfl⟩ := Loop.plan_shapesOnly _ _ _ hplan
    exact .inl ⟨conflict, rfl, rfl, ht.signature ▸ hplan⟩
  · exact .inr (execute_planned ht hx hloop hm hheld hplan he)

theorem executeWith_of_ne (h : operands.length ≠ t.arity) :
    t.executeWith operands loop =
      t.execute operands loop >>= fun _ => pure (operands.getD t.arity (.scalar default)) := by
  unfold executeWith
  rw [if_neg h]
  rfl

theorem executeWith_of_eq (h : operands.length = t.arity) {dtype : DType} {rest : List DType}
    (hloop : (loop.types t.arity).outputs = dtype :: rest) :
    t.executeWith operands loop =
      Execute.onMemory (t.allocate operands dtype) >>= fun output =>
        t.execute (operands ++ [output]) loop >>= fun _ =>
          pure ((operands ++ [output]).getD t.arity (.scalar default)) := by
  unfold executeWith
  rw [if_pos h, hloop]
  rfl

theorem onMemory_allocate_run {inputs : List Value} {dtype : DType} :
    (Execute.onMemory (t.allocate inputs dtype)).run x =
      match t.outputShape x.memory inputs with
      | .error e => (.error e, x)
      | .ok shape => (.ok (.array x.memory.buffers.length),
          { x with memory := (x.memory.alloc (.zeros dtype shape)).2 }) := by
  have hrun : (t.allocate inputs dtype).run x.memory =
      (Action.ofExcept (t.outputShape x.memory inputs) >>= fun shape =>
        Action.newArray (.zeros dtype shape)).run x.memory := rfl
  show (((t.allocate inputs dtype).run x.memory).1,
    { x with memory := ((t.allocate inputs dtype).run x.memory).2 }) = _
  rw [hrun]
  cases t.outputShape x.memory inputs <;> rfl

theorem outputs_of_valid (ht : t.signature = recipe.signature) (hloop : loop.Valid recipe) :
    ∃ dtype, (loop.types t.arity).outputs = [dtype] := by
  have hlength := hloop.length_key
  have harity : t.arity = recipe.signature.arity := congrArg CoreSignature.arity ht
  rw [← List.length_eq_one_iff]
  show (loop.key.drop t.arity).length = 1
  rw [List.length_drop]
  omega

theorem executeWith_error (ht : t.Sound recipe) (hx : x.pass.Serves recipe)
    (hloop : loop.Valid recipe) (hm : x.memory.WellFormed)
    (hheld : ∀ v ∈ operands, x.memory.Holds v) {e : Error}
    (he : (t.executeWith operands loop).run x = (.error e, y)) :
    Failure recipe operands x.memory y.memory e := by
  by_cases hcount : operands.length = t.arity
  case neg =>
    rw [executeWith_of_ne hcount] at he
    rcases Effect.run_bind_eq_error he with he | ⟨a, z, _, he⟩
    · rcases execute_error ht hx hloop hm hheld he with
        ⟨conflict, rfl, rfl, hrefused⟩ | ⟨text, rfl, hraised⟩
      · exact .planning hrefused
      · exact .kernel hraised
    · cases he
  case pos =>
    obtain ⟨dtype, houtputs⟩ := outputs_of_valid ht.signature hloop
    have hinputs : operands.length = recipe.signature.arity := by rw [hcount, arity, ht.signature]
    rw [executeWith_of_eq hcount houtputs] at he
    rcases hshape : t.outputShape x.memory operands with e' | shape
    · have hrun : (Execute.onMemory (t.allocate operands dtype)).run x = (.error e', x) := by
        rw [onMemory_allocate_run, hshape]
      rw [Effect.run_bind_of_error hrun] at he
      cases he
      have hlength : (operands.map x.memory.shape).length = recipe.signature.arity := by
        rw [List.length_map, hinputs]
      rw [outputShape, ht.signature] at hshape
      obtain ⟨conflict, rfl⟩ := Loop.outputShape_shapesOnly _ hlength
        hloop.serves.checked.bound _ hshape
      exact .allocation hinputs hshape
    · have hrun : (Execute.onMemory (t.allocate operands dtype)).run x =
          (.ok (.array x.memory.buffers.length),
            ⟨x.pass, (x.memory.alloc (.zeros dtype shape)).2⟩) := by
        rw [onMemory_allocate_run, hshape]
      rw [Effect.run_bind_of_ok hrun] at he
      have hwf := hm.alloc (Buffer.wellFormed_zeros dtype shape)
      have hall := Memory.holds_alloc (b := .zeros dtype shape) hheld
      have hnoted : (x.memory.alloc (.zeros dtype shape)).2.invocations = x.memory.invocations := rfl
      generalize (x.memory.alloc (.zeros dtype shape)).2 = m at he hwf hall hnoted
      rcases Effect.run_bind_eq_error he with he | ⟨a, z, _, he⟩
      · rcases execute_error (x := ⟨x.pass, m⟩) ht hx hloop hwf hall he with
          ⟨conflict, rfl, rfl, hrefused⟩ | ⟨text, rfl, hraised⟩
        · exact .allocated hinputs hrefused
        · exact .kernel ⟨hnoted ▸ hraised.since, hraised.last⟩
      · cases he

section Count

variable {args : List Value} {out : Option Value}

theorem call_of_count (hcount : (args ++ out.toList).length ≠ t.arity ∧
    (args ++ out.toList).length ≠ t.arity + 1) :
    (t.call args out).run x =
      (.error (.argumentRange t.name t.arity (args ++ out.toList).length), x) := by
  unfold call
  dsimp only
  rw [if_pos hcount]
  rfl

variable (hcount : ¬ ((args ++ out.toList).length ≠ t.arity ∧
  (args ++ out.toList).length ≠ t.arity + 1))
include hcount

theorem call_of_none (hselect : t.select? (x.memory.dtypes (args ++ out.toList)) = none) :
    (t.call args out).run x =
      (.error (.noMatch t.name (x.memory.dtypes (args ++ out.toList))), x) := by
  unfold call
  dsimp only
  rw [if_neg hcount, Effect.run_get_bind, hselect]
  rfl

theorem call_of_select (hselect : t.select? (x.memory.dtypes (args ++ out.toList)) = some loop) :
    (t.call args out).run x = (t.executeWith (args ++ out.toList) loop).run x := by
  unfold call
  dsimp only
  rw [if_neg hcount, Effect.run_get_bind, hselect]

end Count

/-- A call keeps what running the loop that it selects keeps. -/
theorem call_keeps_of {R : Execution → Execution → Prop} [Std.Refl R] (args : List Value)
    (out : Option Value) (hrun : ∀ query loop, t.select? query = some loop →
      Effect.Keeps R (t.executeWith (args ++ out.toList) loop)) : Effect.Keeps R (t.call args out) := by
  intro x
  by_cases hcount : (args ++ out.toList).length ≠ t.arity ∧
      (args ++ out.toList).length ≠ t.arity + 1
  case pos =>
    rw [call_of_count hcount]
    exact Std.Refl.refl x
  rcases hselect : t.select? (x.memory.dtypes (args ++ out.toList)) with _ | loop
  · rw [call_of_none hcount hselect]
    exact Std.Refl.refl x
  · rw [call_of_select hcount hselect]
    exact hrun _ loop hselect x

theorem Sound.call_keeps (h : t.Sound recipe) (args : List Value) (out : Option Value) :
    Effect.Keeps (Execution.Keeps recipe) (t.call args out) :=
  call_keeps_of args out fun _ _ hselect => executeWith_keeps (h.of_select hselect)

/-- How a call through a table may fail, with the memory before and after it. -/
inductive Rejection (recipe : Recipe) (t : LoopTable) (operands : List Value) (m m' : Memory) :
    Error → Prop
  | argumentRange (wrong : operands.length ≠ t.arity ∧ operands.length ≠ t.arity + 1) :
      Rejection recipe t operands m m' (.argumentRange t.name t.arity operands.length)
  | noMatch (unmatched : t.select? (m.dtypes operands) = none) :
      Rejection recipe t operands m m' (.noMatch t.name (m.dtypes operands))
  | failure {e : Error} (failure : Failure recipe operands m m' e) :
      Rejection recipe t operands m m' e

theorem Sound.call_error (h : t.Sound recipe) (hx : x.pass.Serves recipe)
    (hm : x.memory.WellFormed) {args : List Value} {out : Option Value}
    (hheld : ∀ v ∈ args ++ out.toList, x.memory.Holds v) {e : Error}
    (he : (t.call args out).run x = (.error e, y)) :
    Rejection recipe t (args ++ out.toList) x.memory y.memory e := by
  by_cases hcount : (args ++ out.toList).length ≠ t.arity ∧
      (args ++ out.toList).length ≠ t.arity + 1
  case pos =>
    rw [call_of_count hcount] at he
    cases he
    exact .argumentRange hcount
  rcases hselect : t.select? (x.memory.dtypes (args ++ out.toList)) with _ | loop
  · rw [call_of_none hcount hselect] at he
    cases he
    exact .noMatch hselect
  · rw [call_of_select hcount hselect] at he
    exact .failure (executeWith_error h hx (h.of_select hselect) hm hheld he)

end LoopTable

end Corewise
