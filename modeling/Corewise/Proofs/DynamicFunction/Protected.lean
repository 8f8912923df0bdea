import Corewise.Proofs.DynamicFunction.Launch
/-!
Operands that a call only reads. Whatever the kernel does to the elements that it is handed, what it does
comes back to the output and to the writable operands, and arrays that are none of these are after the call
what they were before it.
-/

namespace Corewise

variable {m m' : Memory}

/-- What is refused has written nothing. -/
theorem Memory.Extends.spares (h : m.Extends m') (spared : Ref → Prop) : m.Spares spared m' where
  length_le := h.length_le
  kind r hr := by
    rw [h.buffer r hr]
    exact ⟨rfl, rfl⟩
  buffer r hr _ := h.buffer r hr

/-- The memory may be this one while the iterations of the loop run at the same time, or after them. -/
def Launch.Reaches (recipe : Recipe) (writable : List Bool) (l : Launch) (m : Memory) : Prop :=
  ∃ tasks, Loop.Interleaves recipe.signature l.plan l.operands writable
    (l.trampoline recipe writable).call
    (l.memory, (List.range l.plan.iterations).map .waiting) (m, tasks)

theorem Launch.reaches_runAll (recipe : Recipe) (writable : List Bool) (l : Launch) :
    l.Reaches recipe writable (l.runAll recipe writable).2 := by
  obtain ⟨tasks, calls, htraced, -⟩ := l.traced_runAll recipe writable
  exact ⟨tasks, htraced.interleaves⟩

/-- The output that a launch has made is none of the arrays that were there. -/
theorem Launch.Takes.receives {recipe : Recipe} {writable : List Bool} {selected : Option Specialization}
    {args : List Value} {l : Launch} (h : l.Takes recipe selected args m) {r : Ref} (hr : r < m.buffers.length)
    (hreceives : Loop.Receives recipe.signature l.operands writable r) :
    Loop.Receives recipe.signature args writable r := by
  obtain ⟨i, hback, hi⟩ := hreceives
  refine ⟨i, hback, ?_⟩
  rcases h.operands with ⟨hoperands, -⟩ | ⟨dtype, shape, hoperands, -⟩
  · rwa [hoperands] at hi
  · rw [hoperands, List.getElem?_append] at hi
    split at hi
    case isTrue => exact hi
    case isFalse =>
      cases List.mem_singleton.1 (List.mem_of_getElem? hi)
      exact absurd hr (Nat.lt_irrefl _)

namespace DynamicFunction

variable {f : DynamicFunction}

/-- What the kernel writes to the operand at position `i` is copied back: it is the output, or it is listed
as writable. -/
def CopiesBack (f : DynamicFunction) (i : Nat) : Prop := i = f.arity ∨ i ∈ f.writableArgs

/-- The array is no operand that anything is copied back to. -/
def ReadOnly (f : DynamicFunction) (operands : List Value) (r : Ref) : Prop :=
  ∀ i, f.CopiesBack i → operands[i]? ≠ some (.array r)

theorem Coherent.copiesBack_of_writable (h : f.Coherent) {i : Nat}
    (hwritable : f.table.writable.getD i false = true) : f.CopiesBack i := by
  rw [h.writable_eq, List.getD_eq_getElem?_getD, List.getElem?_map] at hwritable
  rcases hi : (List.range (f.registry.arity + 1))[i]? with _ | j
  case none =>
    rw [hi] at hwritable
    cases hwritable
  case some =>
    obtain ⟨hlt, rfl⟩ := List.getElem?_eq_some_iff.1 hi
    rw [hi, List.getElem_range] at hwritable
    exact .inr (List.contains_iff_mem.1 hwritable)

theorem Coherent.copiesBack_of_receives (h : f.Coherent) {operands : List Value} {r : Ref}
    (hreceives : Loop.Receives f.registry.recipe.signature operands f.table.writable r) :
    ∃ i, f.CopiesBack i ∧ operands[i]? = some (.array r) := by
  obtain ⟨i, houtput | hwritable, hoperand⟩ := hreceives
  · exact ⟨i, .inl (houtput.trans h.arity_eq.symm), hoperand⟩
  · exact ⟨i, h.copiesBack_of_writable hwritable, hoperand⟩

/-- However the iterations of a loop take turns, arrays that are only read stay as they are. -/
theorem Coherent.launch_spares (h : f.Coherent) {selected : Option Specialization} {args : List Value}
    {l : Launch} (htakes : l.Takes f.registry.recipe selected args m)
    (hreaches : l.Reaches f.registry.recipe f.table.writable m') :
    m.Spares (f.ReadOnly args) m' := by
  obtain ⟨tasks, hruns⟩ := hreaches
  have hspares := hruns.spares_of_waiting
  have hextends := htakes.extends
  refine ⟨Nat.le_trans hextends.length_le hspares.length_le, fun r hr => ?_, fun r hr hread => ?_⟩
  case refine_1 =>
    rw [← hextends.buffer r hr]
    exact hspares.kind r (Nat.lt_of_lt_of_le hr hextends.length_le)
  case refine_2 =>
    rw [← hextends.buffer r hr]
    refine hspares.buffer r (Nat.lt_of_lt_of_le hr hextends.length_le) fun hreceives => ?_
    obtain ⟨i, hback, hoperand⟩ := h.copiesBack_of_receives (htakes.receives hr hreceives)
    exact hread i hback hoperand

theorem Coherent.ran_spares (h : f.Coherent) {selected : Option Specialization} {args : List Value}
    {result : Except Error Value}
    (hran : Ran f.registry.recipe f.table.writable selected args m result m') :
    m.Spares (f.ReadOnly args) m' := by
  cases hran with
  | refused _ kept => exact kept.spares _
  | @launched l _ _ takes run =>
    refine h.launch_spares takes ?_
    have hreaches := l.reaches_runAll f.registry.recipe f.table.writable
    rwa [run] at hreaches

end DynamicFunction

/-- A call, of the function or of a typed call site, leaves arrays as they are that are only read, and all
others apart from their elements, whether it succeeds or fails, whatever the kernel does with the elements
that it is handed, and however the iterations of its loop take turns. -/
theorem Reachable.read_only_operands {f : DynamicFunction} (h : Reachable f) (m : Memory) :
    (∀ engine args out, m.Spares (f.ReadOnly (args ++ out.toList))
      ((DynamicFunction.call args out).run ⟨f, engine, m⟩).2.memory) ∧
    (∀ engine args, m.Spares (f.ReadOnly args)
      ((DynamicFunction.lowerCall args).run ⟨f, engine, m⟩).2.memory) ∧
    ∀ selected args (l : Launch) m', l.Takes f.registry.recipe selected args m →
      l.Reaches f.registry.recipe f.table.writable m' → m.Spares (f.ReadOnly args) m' := by
  have hf := h.coherent
  refine ⟨fun engine args out => ?_, fun engine args => ?_, fun selected args l m' htakes hreaches => ?_⟩
  · exact hf.ran_spares (hf.call_ran engine m args out)
  · exact hf.ran_spares (hf.lowerCall_ran engine m args)
  · exact hf.launch_spares htakes hreaches

/-- A function whose kernel overwrites all that it is handed. Its second input is writable, and so is a
position that no operand has. -/
def overwriting : DynamicFunction :=
  .new ⟨"overwrite", 1⟩ ⟨⟨"overwrite", none, .native fun _ => .write 0 0 (.int64 9) fun _ =>
    .write 1 0 (.int64 9) fun _ => .write 2 0 (.int64 9) fun _ => .done, 0⟩, ⟨[["n"], ["n"]], ["n"]⟩,
    .default⟩ "(n),(n)->(n)" .none false [1, 7] .dynamic

/-- Three arrays, one for each operand. -/
def threeArrays : Memory :=
  .holding [⟨.int64, [2], [.int64 1, .int64 2]⟩, ⟨.int64, [2], [.int64 3, .int64 4]⟩,
    ⟨.int64, [2], [.int64 5, .int64 6]⟩]

theorem readOnly_overwriting :
    overwriting.ReadOnly ([.array 0, .array 1] ++ (some (Value.array 2)).toList) 0 := by
  rintro i (rfl | hi)
  · decide
  · rcases List.mem_pair.1 hi with rfl | rfl
    · decide
    · decide

/-- The first operand holds what it held, after the call and however its loop runs, and the other two are
written. -/
theorem Reachable.read_only_operands_overwriting : ∃ s,
    (DynamicFunction.call [.array 0, .array 1] (some (.array 2))).run ⟨overwriting, .fresh, threeArrays⟩ =
      (.ok (.array 2), s) ∧
    s.memory.buffer 0 = ⟨.int64, [2], [.int64 1, .int64 2]⟩ ∧
    s.memory.buffer 1 = ⟨.int64, [2], [.int64 9, .int64 4]⟩ ∧
    s.memory.buffer 2 = ⟨.int64, [2], [.int64 9, .int64 6]⟩ ∧
    ∃ l : Launch, (∃ selected, l.Takes overwriting.registry.recipe selected
        ([.array 0, .array 1] ++ (some (Value.array 2)).toList) threeArrays) ∧
      ∀ m', l.Reaches overwriting.registry.recipe overwriting.table.writable m' →
        m'.buffer 0 = ⟨.int64, [2], [.int64 1, .int64 2]⟩ := by
  have hreached : Reachable overwriting := .new ..
  have hok : ((DynamicFunction.call [.array 0, .array 1] (some (.array 2))).run
      ⟨overwriting, .fresh, threeArrays⟩).1 = .ok (.array 2) := by
    decide +kernel
  obtain ⟨hcall, -, hlaunch⟩ := Reachable.read_only_operands hreached threeArrays
  have hread := (hcall .fresh [.array 0, .array 1] (some (.array 2))).buffer 0 (by decide)
    readOnly_overwriting
  have hran := hreached.coherent.call_ran .fresh threeArrays [.array 0, .array 1] (some (.array 2))
  rw [hok] at hran
  obtain ⟨l, takes, -⟩ := hran.launched_of_ok
  refine ⟨_, Effect.run_of_result hok, hread, by decide +kernel, by decide +kernel, l, ⟨_, takes⟩, ?_⟩
  intro m' hreaches
  exact (hlaunch _ _ l m' takes hreaches).buffer 0 (by decide) readOnly_overwriting

end Corewise
