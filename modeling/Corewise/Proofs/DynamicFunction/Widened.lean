import Corewise.Proofs.DynamicFunction.Launch
import Corewise.Proofs.Loop.Converted
/-!
Calls with operands that have been converted to the types of the loop beforehand. The loop that was
selected for the operands is selected for its own types as well, and with inputs that are only read it makes
the same of converted operands, up to the type of the output.
-/

namespace Corewise

namespace LoopTable

variable {t : LoopTable} {recipe : Recipe} {loop : Specialization} {x : Execution} {r : Registry}

/-- A loop that a table selects is also what it selects for the types of that loop. -/
theorem Sound.select?_key (h : t.Sound recipe) {query : List DType}
    (hselect : t.select? query = some loop) : t.select? loop.key = some loop := by
  have harity : recipe.signature.arity = t.arity := congrArg CoreSignature.arity h.signature.symm
  have hlength := (h.valid loop (Dispatch.mem_of_select hselect)).length_key
  rw [harity] at hlength
  -- No loop before it has the same types, since it would have been selected in its place.
  have hfirst : t.loops.find? (fun s => s.key == loop.key) = some loop := by
    have hsame {p : LoopTypes → Bool}
        (hp : t.loops.find? (fun s => p (s.types t.arity)) = some loop) :
        t.loops.find? (fun s => s.key == loop.key) = some loop := by
      refine find?_eq_some_of_imp hp (beq_self_eq_true _) fun s hs => ?_
      rw [Specialization.types, eq_of_beq hs]
      exact List.find?_some (p := fun s : Specialization => p (s.types t.arity)) hp
    obtain ⟨-, hexact | haccepts⟩ := Dispatch.find?_of_select hselect
    · exact hsame (p := (·.isExact (query.take t.arity) (query.drop t.arity))) hexact
    · exact hsame (p := (·.accepts (query.take t.arity) (query.drop t.arity))) haccepts
  have hexact : (t.loops.find? fun s => (s.types t.arity).isExact (loop.key.take t.arity)
      (loop.key.drop t.arity)) = some loop := by
    rw [← hfirst]
    refine List.find?_congr fun s hs => ?_
    rw [← harity, (h.valid s hs).isExact_iff (.inr (harity ▸ hlength)),
      if_neg (by rw [harity, hlength]; exact Nat.succ_ne_self _)]
  exact Dispatch.select_of_exact (by omega) hexact

theorem Runs.call (h : t.Runs recipe r loop x.pass) {inputs : List Value} {out : Value}
    (hcount : inputs.length = t.arity)
    (hselect : t.select? (x.memory.dtypes (inputs ++ [out])) = some loop) :
    (∃ conflict, Loop.plan recipe.signature (x.memory.contentsOf (inputs ++ [out])) =
        .error (.shapeConflict conflict) ∧
      (t.call inputs (some out)).run x = (.error (.shapeConflict conflict), x)) ∨
    ∃ plan pass, Loop.plan recipe.signature (x.memory.contentsOf (inputs ++ [out])) = .ok plan ∧
      (t.call inputs (some out)).run x =
        (((Launch.mk loop (inputs ++ [out]) x.memory plan).runAll recipe t.writable).1.map fun _ => out,
          ⟨pass, ((Launch.mk loop (inputs ++ [out]) x.memory plan).runAll recipe t.writable).2⟩) := by
  have hlength : (inputs ++ [out]).length = t.arity + 1 := by
    rw [List.length_append, List.length_singleton, hcount]
  have hresult : (inputs ++ [out]).getD t.arity (.scalar default) = out := by
    rw [List.getD_eq_getElem?_getD, ← hcount, List.getElem?_concat_length]
    rfl
  have hrun : (t.call inputs (some out)).run x =
      (((t.execute (inputs ++ [out]) loop).run x).1.map fun _ => out,
        ((t.execute (inputs ++ [out]) loop).run x).2) := by
    rw [call_of_select (fun hwrong => hwrong.2 hlength) hselect]
    show (t.executeWith (inputs ++ [out]) loop).run x = _
    rw [executeWith_of_ne (by omega), Effect.run_bind_pure, hresult]
  rw [hrun]
  rcases h.execute (inputs ++ [out]) with ⟨conflict, hplan, hexecute⟩ | ⟨plan, pass, hplan, hexecute⟩
  · rw [hexecute]
    exact .inl ⟨conflict, hplan, rfl⟩
  · rw [hexecute]
    exact .inr ⟨plan, pass, hplan, rfl⟩

/-- With inputs that are only read and an output of its own, what a call that succeeds leaves in its output
is what it leaves when all operands have been converted, converted back. -/
theorem Runs.call_converted {r' : Registry} {x x₁ y : Execution} (h : t.Runs recipe r loop x.pass)
    (h' : t.Runs recipe r' loop y.pass) (hm : x.memory.WellFormed) (hm' : y.memory.WellFormed)
    {inputs inputs' : List Value} {out out' : Ref} (hcount : inputs.length = t.arity)
    (hcount' : inputs'.length = t.arity) (hheld : ∀ v ∈ inputs ++ [.array out], x.memory.Holds v)
    (hheld' : ∀ v ∈ inputs' ++ [.array out'], y.memory.Holds v) (hout : .array out ∉ inputs)
    (hout' : .array out' ∉ inputs')
    (hread : ∀ i < t.arity, t.writable.getD i false = false)
    (hselect : t.select? (x.memory.dtypes (inputs ++ [.array out])) = some loop)
    (hselect' : t.select? (y.memory.dtypes (inputs' ++ [.array out'])) = some loop)
    (hcontents : y.memory.contentsOf (inputs' ++ [.array out']) =
      List.zipWith Contents.cast (x.memory.contentsOf (inputs ++ [.array out])) loop.key)
    (hsize : Shape.size (x.memory.buffer out).shape < Shape.word) {v : Value}
    (hcall : (t.call inputs (some (.array out))).run x = (.ok v, x₁)) :
    ∃ y₁, (t.call inputs' (some (.array out'))).run y = (.ok (.array out'), y₁) ∧
      x₁.memory.buffer out = (y₁.memory.buffer out').cast (x.memory.buffer out).dtype := by
  have harity : t.arity = recipe.signature.arity := congrArg CoreSignature.arity h.signature
  rw [harity] at hread
  have hlength : (x.memory.contentsOf (inputs ++ [.array out])).length = loop.key.length := by
    rw [h.valid.length_key, ← harity, ← hcount, Memory.length_contentsOf, List.length_append,
      List.length_singleton]
  rcases h.call hcount hselect with ⟨conflict, -, hrun⟩ | ⟨plan, pass, hplan, hrun⟩
  case inl => cases hrun.symm.trans hcall
  have hplan' : Loop.plan recipe.signature (y.memory.contentsOf (inputs' ++ [.array out'])) =
      .ok plan := by
    rw [hcontents, Loop.plan_cast hlength, hplan]
  rcases h'.call hcount' hselect' with ⟨conflict, hrefused, -⟩ | ⟨plan', pass', hplan'', hrun'⟩
  case inl => cases hplan'.symm.trans hrefused
  cases hplan'.symm.trans hplan''
  have htakes : (Launch.mk loop (inputs ++ [.array out]) x.memory plan).Takes recipe (some loop)
      (inputs ++ [.array out]) x.memory := ⟨rfl, h.valid, hplan, .inl ⟨rfl, rfl⟩⟩
  have htakes' : (Launch.mk loop (inputs' ++ [.array out']) y.memory plan).Takes recipe (some loop)
      (inputs' ++ [.array out']) y.memory := ⟨rfl, h.valid, hplan', .inl ⟨rfl, rfl⟩⟩
  rcases hlaunch : (Launch.mk loop (inputs ++ [.array out]) x.memory plan).runAll recipe t.writable with
    ⟨e | ⟨⟩, m₁⟩
  all_goals rw [hlaunch] at hrun
  case error => cases hrun.symm.trans hcall
  cases hrun.symm.trans hcall
  obtain ⟨m₁', hlaunch', hbuffer⟩ := Loop.runAll_converted (htakes.ready hm hheld)
    (htakes'.ready hm' hheld') (hcount.trans harity) (hcount'.trans harity) hout hout' hread
    (htakes.converts t.writable) (htakes'.converts t.writable) hcontents hsize hlaunch
  have hlaunched : (Launch.mk loop (inputs' ++ [.array out']) y.memory plan).runAll recipe t.writable =
    (.ok (), m₁') := hlaunch'
  rw [hlaunched] at hrun'
  exact ⟨_, hrun', hbuffer⟩

end LoopTable

theorem DynamicFunction.Coherent.reads {f : DynamicFunction} (h : f.Coherent)
    (hread : ∀ i ∈ f.writableArgs, f.arity ≤ i) :
    ∀ i < f.table.arity, f.table.writable.getD i false = false := by
  intro i hi
  have hbound : i < f.registry.arity + 1 := Nat.lt_succ_of_lt (h.arity_eq ▸ hi)
  rw [h.writable_eq, List.getD_eq_getElem?_getD, List.getElem?_map,
    List.getElem?_eq_getElem (List.length_range ▸ hbound), List.getElem_range, Option.map_some,
    Option.getD_some, List.contains_eq_mem, decide_eq_false_iff_not]
  intro hmem
  exact absurd (hread i hmem) (Nat.not_le.2 hi)

/-- With inputs that are only read, a call that succeeds with an output of its own selects the same loop and
succeeds when all operands have been converted to the types of that loop beforehand, and has then the same
output but for its type. A machine word counts the elements of the output, as it does of any array in a machine. -/
theorem Reachable.converted_calls {f g : DynamicFunction} (hf : Reachable f) (hg : Reachable g)
    (htable : g.table = f.table) (hread : ∀ i ∈ f.writableArgs, f.arity ≤ i) {m m' : Memory}
    (hm : m.WellFormed) (hm' : m'.WellFormed) {inputs inputs' : List Value} {out out' : Ref}
    (hcount : inputs.length = f.arity) (hheld : ∀ v ∈ inputs ++ [.array out], m.Holds v)
    (hheld' : ∀ v ∈ inputs' ++ [.array out'], m'.Holds v) (hout : .array out ∉ inputs)
    (hout' : .array out' ∉ inputs') (hsize : Shape.size (m.buffer out).shape < Shape.word) {loop : Specialization}
    (hselect : f.table.select? (m.dtypes (inputs ++ [.array out])) = some loop) {v : Value}
    {x : Execution}
    (hcall : (f.table.call inputs (some (.array out))).run ⟨f.pass, m⟩ = (.ok v, x))
    (hcontents : m'.contentsOf (inputs' ++ [.array out']) =
      List.zipWith Contents.cast (m.contentsOf (inputs ++ [.array out])) loop.key) :
    f.table.select? (m'.dtypes (inputs' ++ [.array out'])) = some loop ∧
      ∃ x', (f.table.call inputs' (some (.array out'))).run ⟨g.pass, m'⟩ =
          (.ok (.array out'), x') ∧
        x.memory.buffer out = (x'.memory.buffer out').cast (m.buffer out).dtype := by
  have hfc := hf.coherent
  have hgc := hg.coherent
  have hkey : loop.key.length = f.arity + 1 := by
    rw [(hfc.sound.table.of_select hselect).length_key]
    exact congrArg (· + 1) hfc.arity_eq.symm
  have hlength : (m.contentsOf (inputs ++ [.array out])).length = loop.key.length := by
    rw [hkey, Memory.length_contentsOf, List.length_append, hcount, List.length_singleton]
  have hcount' : inputs'.length = f.arity := by
    have hlengths := congrArg List.length hcontents
    rw [List.length_zipWith, hlength, Nat.min_self, hkey, Memory.length_contentsOf,
      List.length_append, List.length_singleton] at hlengths
    exact Nat.succ.inj hlengths
  have hselect' : f.table.select? (m'.dtypes (inputs' ++ [.array out'])) = some loop := by
    have hdtypes : m'.dtypes (inputs' ++ [.array out']) = loop.key := by
      rw [← map_dtype_cast hlength, ← hcontents, Memory.contentsOf, List.map_map]
      rfl
    rw [hdtypes]
    exact hfc.sound.table.select?_key hselect
  have hruns : f.table.Runs f.registry.recipe f.registry loop f.pass :=
    hfc.runs_of_select hselect
  have hruns' : f.table.Runs f.registry.recipe g.registry loop g.pass :=
    { hruns with
      pass := htable ▸ hgc.pass
      first := hgc.find?_of_select (htable ▸ hselect) }
  refine ⟨hselect', ?_⟩
  exact LoopTable.Runs.call_converted (x := ⟨f.pass, m⟩) (y := ⟨g.pass, m'⟩) hruns hruns' hm hm' hcount
    hcount' hheld hheld' hout hout' (hfc.reads hread) hselect hselect' hcontents hsize hcall

/-- A function that copies rows, with one entry, for 32-bit integers. -/
def copyNarrow : DynamicFunction :=
  (DynamicFunction.new ⟨"copy", 1⟩ ⟨⟨"copy", none, Loop.copyFirst, 0⟩, ⟨[["n"]], ["n"]⟩, .default⟩
    "(n)->(n)" .none false [] .dynamic).after
    [⟨.add (.void [.anyArray .int32 1, .anyArray .int32 1]), .fresh, .empty⟩,
      ⟨.buildTable, .fresh, .empty⟩]

theorem reachable_copyNarrow : Reachable copyNarrow := (Reachable.new ..).after _

/-- A narrow row, with two wide rows to copy it to. -/
def wideRows : Memory :=
  .holding [⟨.int16, [1], [.int16 7]⟩, ⟨.int64, [2, 1], [.int64 1, .int64 2]⟩]

/-- All of them in the type of the loop. -/
def wideRowsConverted : Memory :=
  .holding [⟨.int32, [1], [.int32 7]⟩, ⟨.int32, [2, 1], [.int32 1, .int32 2]⟩]

/-- 16-bit integers are copied to 64-bit ones by way of 32 bits, or handed over as 32-bit integers. -/
theorem Reachable.converted_calls_copyNarrow : ∃ x,
    (copyNarrow.table.call [.array 0] (some (.array 1))).run ⟨copyNarrow.pass, wideRowsConverted⟩ =
      (.ok (.array 1), x) ∧
    (x.memory.buffer 1).cast .int64 = ⟨.int64, [2, 1], [.int64 7, .int64 7]⟩ := by
  have hok : ((copyNarrow.table.call [.array 0] (some (.array 1))).run
      ⟨copyNarrow.pass, wideRows⟩).1 = .ok (.array 1) := by
    decide +kernel
  have hcopied : ((copyNarrow.table.call [.array 0] (some (.array 1))).run
      ⟨copyNarrow.pass, wideRows⟩).2.memory.buffer 1 =
      ⟨.int64, [2, 1], [.int64 7, .int64 7]⟩ := by
    decide +kernel
  have hkey : (copyNarrow.table.select? (wideRows.dtypes ([.array 0] ++ [.array 1]))).map (·.key) =
      some [.int32, .int32] := by
    decide +kernel
  obtain ⟨loop, hselect, hloop⟩ := Option.map_eq_some_iff.1 hkey
  have hcontents : wideRowsConverted.contentsOf ([.array 0] ++ [.array 1]) =
      List.zipWith Contents.cast (wideRows.contentsOf ([.array 0] ++ [.array 1])) loop.key := by
    rw [hloop]
    decide +kernel
  generalize hcall : (copyNarrow.table.call [.array 0] (some (.array 1))).run
    ⟨copyNarrow.pass, wideRows⟩ = result at hok hcopied
  obtain ⟨_, x⟩ := result
  cases hok
  obtain ⟨-, x', hrun, hbuffer⟩ := Reachable.converted_calls reachable_copyNarrow
    reachable_copyNarrow rfl (by decide +kernel) (by decide) (by decide) (by decide +kernel) (by decide)
    (by decide) (by decide) (by decide) (by decide) hselect hcall hcontents
  exact ⟨x', hrun, hbuffer.symm.trans hcopied⟩

end Corewise
