import Corewise.Proofs.DynamicFunction.Launch
import Corewise.Proofs.LoopTable.Growth
import Corewise.Proofs.Registry.Twins
/-!
Tables whose recipes differ in their calling options alone. Trampolines that differ in the convention of
their entry points and in whether they check ranks do the same, since boxes are always full and what a loop
hands over always has the ranks that are asked for; and so do calls through such tables.
-/

namespace Corewise

namespace Lowering.Trampoline

/-- Nothing but the convention and the check of ranks tells the trampolines apart. -/
structure Twins (t t' : Trampoline) : Prop where
  outer : t'.outer = t.outer
  inner : t'.inner = t.inner
  writable : t'.writable = t.writable
  call : t'.entry.call = t.entry.call

variable {t t' : Trampoline} {m : Memory}

theorem Twins.call_eq (h : t.Twins t') {args : List Value}
    (hsuits : List.Forall₂ Contents.Suits (m.contentsOf args) t.inner.args) :
    (t'.call args).run m = (t.call args).run m := by
  have hcount : args.length = t.inner.args.length := by
    rw [← hsuits.length_eq, Memory.length_contentsOf]
  have hleft := call_run hcount fun _ => rankConflict?_eq_none hsuits
  rw [← h.inner] at hcount hsuits
  have hright := call_run hcount fun _ => rankConflict?_eq_none hsuits
  rw [hleft, hright, h.outer, h.inner, h.writable, h.call]

end Lowering.Trampoline

namespace Loop

section

variable {t t' : Lowering.Trampoline}

theorem outcome_twins (h : t.Twins t') {elements : List Contents}
    (hsuits : List.Forall₂ Contents.Suits elements t.inner.args) :
    outcome t'.call elements = outcome t.call elements := by
  have hplaced := placed_place elements .empty
  unfold outcome
  generalize place elements .empty = placed at hplaced
  obtain ⟨values, frame⟩ := placed
  rw [← hplaced.contents] at hsuits
  dsimp only
  rw [h.call_eq hsuits]

end

/-! Loops do the same with kernels that do the same with all elements that may be handed to them. -/

/-- The kernels agree on what the loop may hand over when it is run from this memory. -/
def Agree (signature : CoreSignature) (plan : Plan) (operands : List Value) (writable : List Bool)
    (m : Memory) (callee callee' : Callee) : Prop :=
  ∀ flat elements, flat < plan.iterations → Copied signature plan operands writable m.Grows flat elements →
    outcome callee' elements = outcome callee elements

section

variable {signature : CoreSignature} {plan : Plan} {operands : List Value} {writable : List Bool}
  {callee callee' : Callee} {m : Memory}

theorem Ready.iterate_congr (h : Ready signature plan operands m)
    (hagree : Agree signature plan operands writable m callee callee') {m₁ : Memory} (hgrows : m.Grows m₁)
    {flat : Nat} (hflat : flat < plan.iterations) :
    (iterate signature plan operands writable callee' flat).run m₁ =
      (iterate signature plan operands writable callee flat).run m₁ := by
  have hread := (h.grows hgrows).mapM_element writable hflat
  rw [iterate_run hread, iterate_run hread, hagree flat _ hflat (copied_elementsAt hgrows)]

theorem Ready.runOrder_congr (h : Ready signature plan operands m)
    (hagree : Agree signature plan operands writable m callee callee') {m₁ : Memory} (hgrows : m.Grows m₁)
    {order : List Nat} (horder : ∀ flat ∈ order, flat < plan.iterations) :
    (runOrder signature plan operands writable callee' order).run m₁ =
      (runOrder signature plan operands writable callee order).run m₁ := by
  induction order generalizing m₁ with
  | nil => rfl
  | cons flat order ih =>
    obtain ⟨hflat, hrest⟩ := List.forall_mem_cons.1 horder
    have hfirst := h.iterate_congr hagree hgrows hflat
    have hcons (callee : Callee) : (runOrder signature plan operands writable callee (flat :: order)).run m₁ =
        (iterate signature plan operands writable callee flat >>= fun _ =>
          runOrder signature plan operands writable callee order).run m₁ := rfl
    rw [hcons, hcons]
    rcases hrun : (iterate signature plan operands writable callee flat).run m₁ with ⟨e | ⟨⟩, m₂⟩
    case error => rw [Effect.run_bind_of_error hrun, Effect.run_bind_of_error (hfirst.trans hrun)]
    case ok =>
      rw [Effect.run_bind_of_ok hrun, Effect.run_bind_of_ok (hfirst.trans hrun)]
      exact ih (hgrows.trans ((iterate_grows flat).of_run hrun)) hrest

/-- Only the step that calls the kernel depends on it. -/
theorem Task.step_congr (hagree : Agree signature plan operands writable m callee callee') {task : Task}
    {calls : List Handover}
    (htask : task.Consistent signature plan operands writable callee m.Grows calls) (m₁ : Memory) :
    step signature plan operands writable callee' (m₁, task) =
      step signature plan operands writable callee (m₁, task) := by
  cases htask with
  | waiting => rfl
  | @reading flat done rest elements lt split copied =>
    cases rest with
    | cons p rest => rfl
    | nil =>
      rw [List.append_nil] at split
      have hcopied : Copied signature plan operands writable m.Grows flat elements := by
        rwa [Copied, split]
      simp only [step, hagree flat elements lt hcopied]
  | @returning c rest => cases rest <;> rfl
  | failed => rfl

section Started

variable (h : Ready signature plan operands m) (hcallee : callee.KeepsShapes)
  (hagree : Agree signature plan operands writable m callee callee') {s : Memory × List Task}
  (hs : Interleaves signature plan operands writable callee
    (m, (List.range plan.iterations).map .waiting) s)
include h hcallee hagree hs

theorem steps_congr (count : Nat) {k : Nat} {task : Task} (hk : s.2[k]? = some task) :
    Task.steps signature plan operands writable callee' count (s.1, task) =
      Task.steps signature plan operands writable callee count (s.1, task) := by
  induction count generalizing s task with
  | zero => rfl
  | succ count ih =>
    obtain ⟨calls, htraced⟩ := hs.traced
    have hconsistent := htraced.consistent h hcallee (fun _ => List.mem_range.1)
      (fun _ hgrows => hgrows) fun _ _ earlier => earlier.grows
    have hstep := Task.step_congr hagree (hconsistent.task task (List.mem_of_getElem? hk)) s.1
    rw [Task.steps, Task.steps, hstep]
    have hnext := hs.trans (turn_interleaves 1 s k)
    rw [turn_eq 1 hk] at hnext
    exact ih hnext (List.getElem?_set_self (List.getElem?_eq_some_iff.1 hk).1)

theorem turn_congr (count k : Nat) :
    turn signature plan operands writable callee' count s k =
      turn signature plan operands writable callee count s k := by
  rcases hk : s.2[k]? with _ | task
  · rw [turn_of_none count hk, turn_of_none count hk]
  · rw [turn_eq count hk, turn_eq count hk, steps_congr h hcallee hagree hs count hk]

theorem finish_congr (k : Nat) :
    finish signature plan operands writable callee' s k =
      finish signature plan operands writable callee s k := by
  rw [finish, finish, turn_congr h hcallee hagree hs]

end Started

theorem foldl_congr {f f' : Memory × List Task → Nat → Memory × List Task} {s₀ : Memory × List Task}
    (hf : ∀ s k, Interleaves signature plan operands writable callee s₀ s → f' s k = f s k)
    (hturns : ∀ s k, Interleaves signature plan operands writable callee s (f s k)) {s : Memory × List Task}
    (hs : Interleaves signature plan operands writable callee s₀ s) (ks : List Nat) :
    ks.foldl f' s = ks.foldl f s := by
  induction ks generalizing s with
  | nil => rfl
  | cons k ks ih =>
    rw [List.foldl_cons, List.foldl_cons, hf s k hs]
    exact ih (hs.trans (hturns s k))

theorem Ready.together_congr (h : Ready signature plan operands m) (hcallee : callee.KeepsShapes)
    (hagree : Agree signature plan operands writable m callee callee') (turns : List Nat) :
    together signature plan operands writable callee' turns m =
      together signature plan operands writable callee turns m := by
  rw [together, together, foldl_congr (fun s k hs => turn_congr h hcallee hagree hs 1 k)
    (turn_interleaves 1) .refl turns]
  exact foldl_congr (fun s k hs => finish_congr h hcallee hagree hs k) finish_interleaves
    (foldl_interleaves (turn_interleaves 1) turns _) _

/-- A loop does the same with either kernel, in a row and at the same time. -/
theorem Ready.runAll_congr (h : Ready signature plan operands m) (hcallee : callee.KeepsShapes)
    (hagree : Agree signature plan operands writable m callee callee') (parallel : Bool) :
    (runAll signature plan operands writable callee' parallel).run m =
      (runAll signature plan operands writable callee parallel).run m := by
  cases parallel with
  | false =>
    rw [runAll_sequential, runAll_sequential, run, run]
    exact h.runOrder_congr hagree (.refl m) fun _ => List.mem_range.1
  | true =>
    have hrun (callee : Callee) : (runTogether signature plan operands writable callee).run m =
        (report m.schedule.report
            (together signature plan operands writable callee m.schedule.turns m).2,
          (together signature plan operands writable callee m.schedule.turns m).1) := rfl
    rw [runAll_parallel, runAll_parallel, hrun, hrun, h.together_congr hcallee hagree]

end

end Loop

variable {recipe : Recipe} {forceObject boundsCheck : Bool}

/-- A loop does the same through either trampoline. -/
theorem Launch.Takes.runAll_twins {l : Launch} {selected : Option Specialization} {args : List Value}
    {m : Memory} (h : l.Takes recipe selected args m) (hm : m.WellFormed)
    (hheld : ∀ v ∈ args, m.Holds v) {loop : Specialization}
    (hloop : loop.Valid (recipe.calledBy forceObject boundsCheck))
    (hsignature : loop.signature = l.loop.signature) (writable : List Bool) :
    ({ l with loop } : Launch).runAll (recipe.calledBy forceObject boundsCheck) writable =
      l.runAll recipe writable := by
  obtain ⟨-, out, hout⟩ := Loop.output_of_plan h.plan
  have hready := h.ready hm hheld
  have hserves := (h.converts writable).serves
  have hinner : loop.artifact.signature = l.loop.artifact.signature := by
    rw [hloop.signature, h.valid.signature, hsignature]
  have htwins : (l.trampoline recipe writable).Twins
      (({ l with loop } : Launch).trampoline (recipe.calledBy forceObject boundsCheck) writable) :=
    { outer := rfl
      inner := hinner
      writable := congrArg (fun call : CallSignature =>
        Lowering.Trampoline.writableFlags call.args.length writable) hinner
      call := hloop.serves.call.trans h.valid.serves.call.symm }
  exact hready.runAll_congr (l.trampoline recipe writable).call_grows
    (fun _ _ _ hcopied => Loop.outcome_twins htwins (hcopied.suits hready hout hserves.checked)) _

/-- One result, and one memory after it. -/
structure Execution.Tied {α : Type} (x y : Except Error α × Execution) : Prop where
  result : y.1 = x.1
  memory : y.2.memory = x.2.memory

namespace LoopTable

/-- Tables that list entries for the same call signatures, of a name and a core signature in common. -/
structure Twins (t t' : LoopTable) : Prop where
  name : t'.name = t.name
  signature : t'.signature = t.signature
  writable : t'.writable = t.writable
  faces : t'.loops.map Specialization.face = t.loops.map Specialization.face

variable {t t' : LoopTable} {r r' : Registry} {loop loop' : Specialization}
  {pass pass' : Lowering.Pass} {m : Memory}

theorem Twins.arity_eq (h : t.Twins t') : t'.arity = t.arity :=
  congrArg CoreSignature.arity h.signature

theorem Twins.select_face (h : t.Twins t') (query : List DType) :
    (t'.select? query).map Specialization.face = (t.select? query).map Specialization.face := by
  unfold select?
  rw [h.arity_eq]
  exact Specialization.select_face h.faces t.arity query

theorem Twins.execute (h : t.Twins t') (hruns : t.Runs recipe r loop pass)
    (hruns' : t'.Runs (recipe.calledBy forceObject boundsCheck) r' loop' pass')
    (hface : loop'.face = loop.face) (hm : m.WellFormed) {operands : List Value}
    (hheld : ∀ v ∈ operands, m.Holds v) :
    Execution.Tied ((t.execute operands loop).run ⟨pass, m⟩)
      ((t'.execute operands loop').run ⟨pass', m⟩) := by
  rcases LoopTable.Runs.execute (x := ⟨pass, m⟩) hruns operands with
    ⟨conflict, hplan, hrun⟩ | ⟨plan, after, hplan, hrun⟩
  case inl =>
    rcases LoopTable.Runs.execute (x := ⟨pass', m⟩) hruns' operands with
      ⟨conflict', hplan', hrun'⟩ | ⟨plan, after, hplan', -⟩
    · cases hplan.symm.trans hplan'
      rw [hrun, hrun']
      exact ⟨rfl, rfl⟩
    · cases hplan.symm.trans hplan'
  case inr =>
    rcases LoopTable.Runs.execute (x := ⟨pass', m⟩) hruns' operands with
      ⟨conflict, hplan', -⟩ | ⟨plan', after', hplan', hrun'⟩
    · cases hplan.symm.trans hplan'
    · cases hplan.symm.trans hplan'
      have htakes : (Launch.mk loop operands m plan).Takes recipe (some loop) operands m :=
        ⟨rfl, hruns.valid, hplan, .inl ⟨rfl, rfl⟩⟩
      have hsame : (Launch.mk loop' operands m plan).runAll (recipe.calledBy forceObject boundsCheck)
            t.writable = (Launch.mk loop operands m plan).runAll recipe t.writable :=
        htakes.runAll_twins hm hheld hruns'.valid (congrArg Prod.fst hface) t.writable
      rw [hrun, hrun', h.writable]
      dsimp only
      rw [hsame]
      exact ⟨rfl, rfl⟩

theorem Twins.executeWith (h : t.Twins t') (hruns : t.Runs recipe r loop pass)
    (hruns' : t'.Runs (recipe.calledBy forceObject boundsCheck) r' loop' pass')
    (hface : loop'.face = loop.face) (hm : m.WellFormed) {operands : List Value}
    (hheld : ∀ v ∈ operands, m.Holds v) :
    Execution.Tied ((t.executeWith operands loop).run ⟨pass, m⟩)
      ((t'.executeWith operands loop').run ⟨pass', m⟩) := by
  by_cases hcount : operands.length = t.arity
  case neg =>
    have hcount' : operands.length ≠ t'.arity := h.arity_eq ▸ hcount
    obtain ⟨hresult, hmemory⟩ := h.execute hruns hruns' hface hm hheld
    rw [executeWith_of_ne hcount, executeWith_of_ne hcount', Effect.run_bind_pure,
      Effect.run_bind_pure, hresult, h.arity_eq]
    exact ⟨rfl, hmemory⟩
  case pos =>
    have hcount' : operands.length = t'.arity := h.arity_eq ▸ hcount
    obtain ⟨dtype, houtputs⟩ := outputs_of_valid hruns.signature hruns.valid
    have houtputs' : (loop'.types t'.arity).outputs = [dtype] := by
      rw [← houtputs, h.arity_eq]
      exact congrArg (fun face : CallSignature × List DType => face.2.drop t.arity) hface
    have hshape : t'.outputShape m operands = t.outputShape m operands := by
      rw [outputShape, outputShape, h.name, h.signature]
    have hmade : (Execute.onMemory (t.allocate operands dtype)).run ⟨pass, m⟩ = _ :=
      onMemory_allocate_run
    have hmade' : (Execute.onMemory (t'.allocate operands dtype)).run ⟨pass', m⟩ = _ :=
      onMemory_allocate_run
    rw [hshape] at hmade'
    rw [executeWith_of_eq hcount houtputs, executeWith_of_eq hcount' houtputs']
    rcases hallocated : t.outputShape m operands with e | shape
    case error =>
      rw [hallocated] at hmade hmade'
      rw [Effect.run_bind_of_error hmade, Effect.run_bind_of_error hmade']
      exact ⟨rfl, rfl⟩
    case ok =>
      rw [hallocated] at hmade hmade'
      have hallocWf := hm.alloc (Buffer.wellFormed_zeros dtype shape)
      obtain ⟨hresult, hmemory⟩ := h.execute hruns hruns' hface hallocWf (Memory.holds_alloc hheld)
      rw [Effect.run_bind_of_ok hmade, Effect.run_bind_of_ok hmade', Effect.run_bind_pure,
        Effect.run_bind_pure, h.arity_eq]
      dsimp only
      rw [hresult]
      exact ⟨rfl, hmemory⟩

/-- Calls through the tables come to the same. -/
theorem Twins.call (h : t.Twins t') (hruns : ∀ query loop, t.select? query = some loop →
      t.Runs recipe r loop pass)
    (hruns' : ∀ query loop, t'.select? query = some loop →
      t'.Runs (recipe.calledBy forceObject boundsCheck) r' loop pass')
    (hm : m.WellFormed) {args : List Value} {out : Option Value}
    (hheld : ∀ v ∈ args ++ out.toList, m.Holds v) :
    Execution.Tied ((t.call args out).run ⟨pass, m⟩) ((t'.call args out).run ⟨pass', m⟩) := by
  by_cases hcount : (args ++ out.toList).length ≠ t.arity ∧
      (args ++ out.toList).length ≠ t.arity + 1
  case pos =>
    have hcount' := hcount
    rw [← h.arity_eq] at hcount'
    rw [call_of_count hcount, call_of_count hcount', h.name, h.arity_eq]
    exact ⟨rfl, rfl⟩
  have hcount' := hcount
  rw [← h.arity_eq] at hcount'
  rcases Specialization.face_cases (h.select_face (m.dtypes (args ++ out.toList))) with
    ⟨hnone, hnone'⟩ | ⟨loop, loop', hselect, hselect', hface⟩
  · rw [call_of_none (x := ⟨pass, m⟩) hcount hnone, call_of_none (x := ⟨pass', m⟩) hcount' hnone',
      h.name]
    exact ⟨rfl, rfl⟩
  · rw [call_of_select (x := ⟨pass, m⟩) hcount hselect,
      call_of_select (x := ⟨pass', m⟩) hcount' hselect']
    exact h.executeWith (hruns _ loop hselect) (hruns' _ loop' hselect') hface hm hheld

end LoopTable

end Corewise
