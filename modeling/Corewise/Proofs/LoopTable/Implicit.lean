import Corewise.Proofs.Loop.WellShaped
import Corewise.Proofs.LoopTable
import Corewise.Proofs.Registry.Compatible
import Corewise.Proofs.Registry.Scan
/-!
Outputs that are left out. A loop that accepts the inputs accepts its own output type with them, and no loop
before it does; and the shape that the inputs imply for an output can be planned with them. So calling
without an output is calling with one that has just been made.
-/

namespace Corewise

theorem DType.castsWithinKind_self (dtype : DType) : dtype.castsWithinKind dtype = true := by
  simp [castsWithinKind, castsSafely]

namespace LoopTypes

variable {l : LoopTypes} {inputs : List DType} {dtype : DType}

theorem isExact_output (h : l.isExact inputs [] = true) (houtput : l.outputs = [dtype]) :
    l.isExact inputs [dtype] = true := by
  simp_all [isExact]

theorem isExact_inputs (h : l.isExact inputs [dtype] = true) : l.isExact inputs [] = true := by
  simp_all [isExact]

theorem accepts_output (h : l.accepts inputs [] = true) (houtput : l.outputs = [dtype]) :
    l.accepts inputs [dtype] = true := by
  simp_all [accepts, DType.castsWithinKind_self]

theorem accepts_inputs (h : l.accepts inputs [dtype] = true) : l.accepts inputs [] = true := by
  simp_all [accepts]

end LoopTypes

/-- A loop that is selected for inputs is also selected for them with its own output type. -/
theorem Dispatch.select_output {α : Type} {types : α → LoopTypes} {loops : List α} {loop : α}
    {inputs : List DType} {dtype : DType} (houtput : (types loop).outputs = [dtype])
    (h : select types loops inputs.length inputs = some loop) :
    select types loops inputs.length (inputs ++ [dtype]) = some loop := by
  have hle : inputs.length ≤ (inputs ++ [dtype]).length := by simp
  rw [select_of_le (Nat.le_refl _), List.take_length, List.drop_length, Option.or_eq_some_iff] at h
  rw [select_of_le hle, List.take_left, List.drop_left, Option.or_eq_some_iff]
  have hweaker (l : α) (hl : (types l).isExact inputs [dtype] = true) :
      (types l).isExact inputs [] = true := LoopTypes.isExact_inputs hl
  rcases h with hexact | ⟨hnone, haccepts⟩
  case inl =>
    have hloop : (types loop).isExact inputs [] = true :=
      List.find?_some (p := fun l => (types l).isExact inputs []) hexact
    exact .inl (find?_eq_some_of_imp hexact (LoopTypes.isExact_output hloop houtput) hweaker)
  case inr =>
    have hloop : (types loop).accepts inputs [] = true :=
      List.find?_some (p := fun l => (types l).accepts inputs []) haccepts
    refine .inr ⟨?_, find?_eq_some_of_imp haccepts (LoopTypes.accepts_output hloop houtput)
      fun l hl => LoopTypes.accepts_inputs hl⟩
    rw [List.find?_eq_none] at hnone ⊢
    exact fun l hl hl' => hnone l hl (hweaker l hl')

namespace LoopTable

variable {t : LoopTable} {loop : Specialization} {inputs : List Value} {m : Memory} {dtype : DType}
  {shape : List Nat}

theorem dtypes_alloc (hheld : ∀ v ∈ inputs, m.Holds v) (dtype : DType) (shape : List Nat) :
    (m.alloc (.zeros dtype shape)).2.dtypes (inputs ++ [.array m.buffers.length]) =
      m.dtypes inputs ++ [dtype] := by
  have hdtypes (m : Memory) (values : List Value) :
      m.dtypes values = (m.contentsOf values).map Contents.dtype := by
    rw [Memory.contentsOf, List.map_map]
    rfl
  rw [hdtypes, Memory.contentsOf_alloc hheld, List.map_append, ← hdtypes]
  rfl

/-- Making the output and then running the loop is what running the loop does on its own. -/
theorem executeWith_alloc (hcount : inputs.length = t.arity) {rest : List DType}
    (houtputs : (loop.types t.arity).outputs = dtype :: rest)
    (hshape : t.outputShape m inputs = .ok shape) (pass : Lowering.Pass) :
    (t.executeWith inputs loop).run ⟨pass, m⟩ =
      (t.executeWith (inputs ++ [.array m.buffers.length]) loop).run
        ⟨pass, (m.alloc (.zeros dtype shape)).2⟩ := by
  have hallocated : (Execute.onMemory (t.allocate inputs dtype)).run ⟨pass, m⟩ =
      (.ok (.array m.buffers.length), ⟨pass, (m.alloc (.zeros dtype shape)).2⟩) := by
    rw [onMemory_allocate_run, hshape]
  have hcomplete : (inputs ++ [Value.array m.buffers.length]).length ≠ t.arity := by
    rw [List.length_append, hcount, List.length_singleton]
    exact Nat.succ_ne_self _
  rw [executeWith_of_eq hcount houtputs, Effect.run_bind_of_ok hallocated, executeWith_of_ne hcomplete]

theorem select?_alloc (hheld : ∀ v ∈ inputs, m.Holds v) (hcount : inputs.length = t.arity)
    (houtputs : (loop.types t.arity).outputs = [dtype])
    (hselect : t.select? (m.dtypes inputs) = some loop) :
    t.select? ((m.alloc (.zeros dtype shape)).2.dtypes (inputs ++ [.array m.buffers.length])) =
      some loop := by
  have hlength : (m.dtypes inputs).length = t.arity := (List.length_map _).trans hcount
  rw [dtypes_alloc hheld]
  rw [select?, ← hlength] at hselect ⊢
  exact Dispatch.select_output (hlength ▸ houtputs) hselect

theorem plan_alloc (hheld : ∀ v ∈ inputs, m.Holds v) (hcount : inputs.length = t.arity)
    (hshape : t.outputShape m inputs = .ok shape) (dtype : DType) :
    ∃ plan, Loop.plan t.signature ((m.alloc (.zeros dtype shape)).2.contentsOf
        (inputs ++ [.array m.buffers.length])) = .ok plan ∧
      Loop.broadcast ((inputs.zip t.signature.inputs).map fun i =>
        Loop.outerOf (m.shape i.1) i.2.length) = .ok plan.outer := by
  have hcontents : inputs.map m.shape = (m.contentsOf inputs).map Contents.shape := by
    rw [Memory.contentsOf, List.map_map]
    rfl
  replace hshape : Loop.outputShape t.name t.signature ((m.contentsOf inputs).map Contents.shape) =
      .ok (Buffer.zeros dtype shape).shape := hcontents ▸ hshape
  obtain ⟨size, hshaped, hjoined⟩ :=
    Loop.wellShaped_of_outputShape ((List.length_map _).trans hcount) hshape
  rw [List.zip_map_left, List.map_map] at hjoined
  rw [Memory.contentsOf_alloc hheld]
  exact ⟨_, hshaped.plan, hjoined⟩

theorem call_alloc (hheld : ∀ v ∈ inputs, m.Holds v) (hcount : inputs.length = t.arity)
    (houtputs : (loop.types t.arity).outputs = [dtype])
    (hselect : t.select? (m.dtypes inputs) = some loop) (hshape : t.outputShape m inputs = .ok shape)
    {args : List Value} {out : Option Value}
    (hargs : args ++ out.toList = inputs ++ [.array m.buffers.length]) (pass : Lowering.Pass) :
    (t.call args out).run ⟨pass, (m.alloc (.zeros dtype shape)).2⟩ =
      (t.call inputs none).run ⟨pass, m⟩ := by
  have hnone : inputs ++ (none : Option Value).toList = inputs := List.append_nil inputs
  have himplicit : (t.call inputs none).run ⟨pass, m⟩ = (t.executeWith inputs loop).run ⟨pass, m⟩ := by
    rw [call_of_select (by simp [hcount]) (by rwa [hnone]), hnone]
  have hexplicit : (t.call args out).run ⟨pass, (m.alloc (.zeros dtype shape)).2⟩ =
      (t.executeWith (args ++ out.toList) loop).run ⟨pass, (m.alloc (.zeros dtype shape)).2⟩ := by
    apply call_of_select
    · simp only [hargs, List.length_append, hcount, List.length_singleton]
      exact fun hwrong => hwrong.2 rfl
    · rw [hargs]
      exact select?_alloc hheld hcount houtputs hselect
  rw [hexplicit, himplicit, hargs, executeWith_alloc hcount houtputs hshape]

end LoopTable

/-- A call without an output comes to the same as one with zeros that have just been made, in the type of
the loop that is selected and the shape that the inputs imply. That loop is selected again, and the output is
planned with the inputs, to be looped over in the broadcast of their outer shapes; the schedule of the
iterations is any. -/
theorem Registry.Reachable.implicit_output {r : Registry} (h : r.Reachable) {t : LoopTable} {name : String}
    {identity : Identity} {writableArgs : List Nat}
    (ht : t = .ofRegistry name r identity writableArgs) {m : Memory} {inputs : List Value}
    (hheld : ∀ v ∈ inputs, m.Holds v) (hcount : inputs.length = t.arity) {loop : Specialization}
    (hselect : t.select? (m.dtypes inputs) = some loop) {shape : List Nat}
    (hshape : t.outputShape m inputs = .ok shape) :
    ∃ dtype, (loop.types t.arity).outputs = [dtype] ∧
      ∀ output m', m.alloc (.zeros dtype shape) = (output, m') →
        t.select? (m'.dtypes (inputs ++ [.array output])) = some loop ∧
        (∃ plan, Loop.plan t.signature (m'.contentsOf (inputs ++ [.array output])) = .ok plan ∧
          Loop.broadcast ((inputs.zip t.signature.inputs).map fun i =>
            Loop.outerOf (m.shape i.1) i.2.length) = .ok plan.outer) ∧
        ∀ args out pass, args ++ out.toList = inputs ++ [.array output] →
          (t.call args out).run ⟨pass, m'⟩ = (t.call inputs none).run ⟨pass, m⟩ := by
  subst ht
  have hsound : LoopTable.Sound r.recipe (.ofRegistry name r identity writableArgs) :=
    ⟨rfl, rfl, h.sound.valid⟩
  generalize LoopTable.ofRegistry name r identity writableArgs = t at *
  obtain ⟨dtype, houtputs⟩ := LoopTable.outputs_of_valid hsound.signature (hsound.of_select hselect)
  refine ⟨dtype, houtputs, ?_⟩
  intro output m' halloc
  cases (Prod.eta (m.alloc (.zeros dtype shape))).trans halloc
  refine ⟨LoopTable.select?_alloc hheld hcount houtputs hselect,
    LoopTable.plan_alloc hheld hcount hshape dtype, ?_⟩
  intro args out pass hargs
  exact LoopTable.call_alloc hheld hcount houtputs hselect hshape hargs pass

/-- Integers are widened to floats whether or not the output is passed. -/
theorem Registry.Reachable.implicit_output_twoLayouts :
    let t := LoopTable.ofRegistry "copy" Registry.twoLayouts .none []
    let integers : Buffer := ⟨.int64, [2, 1], [.int64 7, .int64 8]⟩
    (t.call [.array 0, .array 1] none).run
        ⟨.empty "copy", .holding [integers, .zeros .float64 [2, 1]]⟩ =
      (t.call [.array 0] none).run ⟨.empty "copy", .holding [integers]⟩ := by
  intro t integers
  have hheld : ∀ v ∈ [Value.array 0], Memory.Holds (.holding [integers]) v := by decide
  obtain ⟨dtype, houtputs, hsame⟩ := Registry.Reachable.implicit_output reachable_twoLayouts
    (t := t) rfl hheld (by rfl) (by rfl) (by rfl)
  cases houtputs
  exact (hsame _ _ rfl).2.2 [.array 0, .array 1] none _ rfl

end Corewise
