import Corewise.Proofs.DynamicFunction.Protected
import Corewise.Proofs.Loop.Converted
import Corewise.Proofs.Loop.Served
import Corewise.Proofs.Registry.Resolve
/-!
Integers on their way to the kernel. A loop is only selected for operands whose types cast safely to its own,
so each iteration hands the kernel the numbers that its inputs hold by then; and these are the numbers that were
passed, unless the array is one that the kernel's writes are put back to.
-/

namespace Corewise

open Loop (InputAt Receives)

/-- What the kernel is handed in the iteration numbered `flat` of a loop, for each input out of one of these
memories. -/
structure Delivery (recipe : Recipe) (writable : List Bool) (args : List Value) (m : Memory) (l : Launch)
    (memories : Memory → Prop) (flat : Nat) (held : List Contents) : Prop where
  /-- An input of a whole type in a loop with a whole type for it. Its element by then comes in the type of the
  loop with the same numbers, and it is an element of what was passed if nothing is put back to the array. -/
  input : ∀ (i : Nat) v rank dtype, args[i]? = some v → recipe.signature.inputRanks[i]? = some rank →
    l.loop.key[i]? = some dtype → (m.dtype v).IsWhole → dtype.IsWhole →
    ∃ before element got, memories before ∧
      InputAt before (Shape.unravel flat l.plan.outer) rank v element ∧ held[i]? = some got ∧
      got.dtype = dtype ∧ got.shape = element.shape ∧ got.numbers = element.numbers ∧
      ((∀ r, v = .array r → ¬ Receives recipe.signature args writable r) →
        InputAt m (Shape.unravel flat l.plan.outer) rank v element)

/-- How a call comes out, with the memory that it leaves, and what the kernel has been handed. -/
inductive Delivered (recipe : Recipe) (writable : List Bool) (selected : Option Specialization)
    (args : List Value) (m : Memory) : Except Error Value → Memory → Prop
  /-- No kernel has run. -/
  | refused {e : Error} {m' : Memory} (cause : ∀ text, e ≠ .kernel text) (kept : m.Extends m') :
      Delivered recipe writable selected args m (.error e) m'
  /-- One iteration after the other has run, on the memory `before` that those with lower numbers have left. -/
  | launched {l : Launch} {result : Except Error Value} {m' : Memory} {handed : List (List Contents)}
      (sequential : recipe.options.parallel = false) (takes : l.Takes recipe selected args m)
      (noted : m'.invocations = m.invocations ++ handed) (within : handed.length ≤ l.plan.iterations)
      (all : ∀ v, result = .ok v → handed.length = l.plan.iterations)
      (each : ∀ k held, handed[k]? = some held → ∃ before,
        l.run recipe writable (List.range k) = (.ok (), before) ∧
        Delivery recipe writable args m l (· = before) k held) :
      Delivered recipe writable selected args m result m'
  /-- Iterations have run at the same time, each of them once at most. -/
  | together {l : Launch} {result : Except Error Value} {m' : Memory} {handed : List (Nat × List Contents)}
      (parallel : recipe.options.parallel = true) (takes : l.Takes recipe selected args m)
      (noted : m'.invocations = m.invocations ++ handed.map Prod.snd)
      (once : (handed.map Prod.fst).Nodup) (within : ∀ h ∈ handed, h.1 < l.plan.iterations)
      (all : ∀ v, result = .ok v → handed.length = l.plan.iterations)
      (each : ∀ h ∈ handed, Delivery recipe writable args m l (l.Reaches recipe writable) h.1 h.2) :
      Delivered recipe writable selected args m result m'

section Selected

variable {query : List DType} {loop : Specialization}

theorem LoopTable.castsSafely_of_select {t : LoopTable} (h : t.select? query = some loop) :
    List.Forall₂ (fun given taken => given.castsSafely taken = true) (query.take t.arity)
      (loop.key.take t.arity) := Dispatch.castsSafely_of_select h

theorem Registry.Sound.length_of_find? {r : Registry} (h : r.Sound) (hfound : r.find? query = some loop) :
    query.length = r.arity ∨ query.length = r.arity + 1 := by
  by_cases hlength : query.length = r.arity
  case pos => exact .inl hlength
  case neg =>
    rw [h.find?_eq] at hfound
    have hkey := List.find?_some hfound
    rw [if_neg hlength, beq_iff_eq] at hkey
    exact .inr (hkey ▸ (h.valid loop (List.mem_of_find?_eq_some hfound)).length_key)

theorem DynamicFunction.Sound.castsSafely_of_specialization {f : DynamicFunction} (h : f.Sound)
    (hloop : f.specialization? query = some loop) :
    List.Forall₂ (fun given taken => given.castsSafely taken = true) (query.take f.registry.arity)
      (loop.key.take f.registry.arity) := by
  cases hfrozen : f.lifecycle.isFrozen with
  | false =>
    rw [specialization?_of_open hfrozen] at hloop
    exact Dispatch.castsSafely_of_select
      (h.registry.select_of_find? (h.registry.length_of_find? hloop) hloop)
  | true =>
    rw [h.specialization?_of_frozen hfrozen] at hloop
    exact Dispatch.castsSafely_of_select hloop

end Selected

variable {recipe : Recipe} {writable : List Bool} {selected : Option Specialization} {args : List Value}
  {m m' : Memory} {l : Launch}

theorem Launch.Takes.getElem?_operands (h : l.Takes recipe selected args m) {i : Nat} {v : Value}
    (hi : args[i]? = some v) : l.operands[i]? = some v := by
  rcases h.operands with ⟨hoperands, -⟩ | ⟨dtype, shape, hoperands, -⟩
  · rwa [hoperands]
  · rw [hoperands, List.getElem?_append_left (List.getElem?_eq_some_iff.1 hi).1, hi]

/-- What a loop has put back to some arrays leaves the others as they were passed. -/
theorem Launch.Takes.contents_before (h : l.Takes recipe selected args m) {before : Memory}
    (hspares : l.memory.Spares (fun r => ¬ Receives recipe.signature l.operands writable r) before) {v : Value}
    (hv : m.Holds v) (hread : ∀ r, v = .array r → ¬ Receives recipe.signature args writable r) :
    m.contents v = before.contents v := by
  cases v with
  | scalar s => rfl
  | array r =>
    have hkept := hspares.buffer r (Nat.lt_of_lt_of_le hv h.extends.length_le)
      fun hreceives => hread r rfl (h.receives hv hreceives)
    rw [h.extends.buffer r hv] at hkept
    exact congrArg Contents.array hkept.symm

/-- What an iteration hands over for whole inputs that cast safely to the types of the loop. -/
theorem Launch.Takes.delivery (h : l.Takes recipe selected args m) (hm : m.WellFormed)
    (hheld : ∀ v ∈ args, m.Holds v)
    (hsafe : List.Forall₂ (fun given taken => given.castsSafely taken = true)
      ((m.dtypes args).take recipe.signature.arity) (l.loop.key.take recipe.signature.arity))
    {memories : Memory → Prop} (hgrows : ∀ before, memories before → l.memory.Grows before)
    (hspares : ∀ before, memories before →
      l.memory.Spares (fun r => ¬ Receives recipe.signature l.operands writable r) before)
    {flat : Nat} (hflat : flat < l.plan.iterations) {elements : List Contents}
    (hc : Loop.Copied recipe.signature l.plan l.operands writable memories flat elements) :
    Delivery recipe writable args m l memories flat (List.zipWith Contents.cast elements l.loop.key) := by
  refine ⟨fun i v rank dtype hv hrank hdtype hwhole hwhole' => ?_⟩
  have hvheld : m.Holds v := hheld v (List.mem_of_getElem? hv)
  have hoperand := h.getElem?_operands hv
  obtain ⟨rank', -, -, -, -, haddressed⟩ := (h.ready hm hheld).access writable flat hoperand
  obtain ⟨before, hbefore, hcopied⟩ := hc.getElem? haddressed
  have hready := (h.ready hm hheld).grows (hgrows before hbefore)
  obtain ⟨element, helement, hinput⟩ := hready.input_at writable hflat hoperand hrank
  have hwellFormed : element.WellFormed :=
    hready.elements_wellFormed writable hflat element (List.mem_of_getElem? helement)
  rw [Loop.elementsAt, List.getElem?_map, haddressed, Option.map_some, ← hcopied] at helement
  have htype : element.dtype = m.dtype v := by
    rw [hinput.dtype_eq hready.wellFormed, Memory.dtype, (hgrows before hbefore).dtype,
      h.extends.contents_eq hvheld]
    · rfl
    · exact (h.ready hm hheld).holds v (List.mem_of_getElem? hoperand)
  have hcast : element.dtype.castsSafely dtype = true := by
    have hi : i < recipe.signature.arity := by
      have hlt := (List.getElem?_eq_some_iff.1 hrank).1
      rwa [CoreSignature.inputRanks, List.length_map] at hlt
    have hgiven : ((m.dtypes args).take recipe.signature.arity)[i]? = some (m.dtype v) := by
      rw [List.getElem?_take_of_lt hi, Memory.dtypes, List.getElem?_map, hv, Option.map_some]
    obtain ⟨taken, htaken, hcast⟩ := exists_getElem?_of_forall₂ hsafe hgiven
    rw [List.getElem?_take_of_lt hi, hdtype] at htaken
    cases htaken
    rwa [htype]
  refine ⟨before, element, element.cast dtype, hbefore, hinput, ?_, element.dtype_cast dtype,
    element.shape_cast dtype, Contents.numbers_cast hwellFormed (htype ▸ hwhole) hwhole' hcast,
    fun hread => ?_⟩
  · exact List.getElem?_zipWith_eq_some.2 ⟨element, dtype, helement, hdtype, rfl⟩
  · exact hinput.of_contents (h.contents_before (hspares before hbefore) hvheld hread)

section Launched

variable (h : l.Takes recipe selected args m) (hm : m.WellFormed) (hheld : ∀ v ∈ args, m.Holds v)
  (hsafe : List.Forall₂ (fun given taken => given.castsSafely taken = true)
    ((m.dtypes args).take recipe.signature.arity) (l.loop.key.take recipe.signature.arity))
  {result : Except Error Unit} (hrun : l.runAll recipe writable = (result, m')) (v : Value)
include h hm hheld hsafe hrun

theorem Launch.Takes.delivered_row (hsequential : recipe.options.parallel = false) :
    Delivered recipe writable selected args m (result.map fun _ => v) m' := by
  rw [l.runAll_of_sequential writable hsequential] at hrun
  obtain ⟨-, out, hout⟩ := Loop.output_of_plan h.plan
  obtain ⟨handed, hnoted, hwithin, hall, hserved⟩ := (h.ready hm hheld).runOrder_served hout
    (h.converts writable) (fun flat hflat => List.mem_range.1 hflat) hrun
  rw [h.extends.invocations] at hnoted
  rw [List.length_range] at hwithin hall
  refine .launched hsequential h hnoted hwithin (fun v hv => hall ?_) fun k held hk => ?_
  case refine_1 =>
    cases result with
    | error e => cases hv
    | ok => rfl
  case refine_2 =>
    have hlt : k < l.plan.iterations :=
      Nat.lt_of_lt_of_le (List.getElem?_eq_some_iff.1 hk).1 hwithin
    obtain ⟨flat, before, hflat, hbefore, hgrows, rfl⟩ := hserved k held hk
    rw [List.getElem?_range hlt] at hflat
    cases hflat
    rw [List.take_range, Nat.min_eq_left (Nat.le_of_lt hlt)] at hbefore
    have hspares := @Loop.runOrder_spares recipe.signature l.plan l.operands writable
      (l.trampoline recipe writable).call (List.range k) l.memory
    rw [hbefore] at hspares
    refine ⟨before, hbefore, h.delivery hm hheld hsafe ?_ ?_ hlt (Loop.copied_elementsAt rfl)⟩
    · rintro _ rfl
      exact hgrows
    · rintro _ rfl
      exact hspares

theorem Launch.Takes.delivered_together (hparallel : recipe.options.parallel = true) :
    Delivered recipe writable selected args m (result.map fun _ => v) m' := by
  have hready := h.ready hm hheld
  have hbelow : ∀ flat ∈ List.range l.plan.iterations, flat < l.plan.iterations :=
    fun _ => List.mem_range.1
  obtain ⟨-, out, hout⟩ := Loop.output_of_plan h.plan
  obtain ⟨tasks, calls, htraced, hended, -⟩ := l.traced_runAll recipe writable
  rw [hrun] at htraced hended
  have hgrows (before : Memory) (hreaches : l.Reaches recipe writable before) : l.memory.Grows before := by
    obtain ⟨tasks, hinterleaves⟩ := hreaches
    exact hinterleaves.grows
  have hconsistent := htraced.consistent hready (l.trampoline recipe writable).call_grows hbelow hgrows
    fun _ _ earlier => ⟨_, earlier.interleaves⟩
  have hcounted := htraced.counted List.nodup_range
  have hnoted := htraced.handed hready hout (h.converts writable) hbelow
  have hcast : m'.invocations = m.invocations ++
      (calls.map fun c => (c.1, List.zipWith Contents.cast c.2 l.loop.key)).map Prod.snd := by
    rw [List.map_map, ← h.extends.invocations]
    exact hnoted
  refine .together hparallel h hcast ?_ ?_ (fun v hv => ?_) ?_
  case refine_1 =>
    rw [List.map_map]
    exact hcounted.nodup
  case refine_2 =>
    rintro _ hmem
    obtain ⟨c, hc, rfl⟩ := List.mem_map.1 hmem
    exact hconsistent.lt c hc
  case refine_3 =>
    cases result with
    | error e => cases hv
    | ok =>
      have hlength := (hcounted.perm List.nodup_range hended).length_eq
      rwa [List.length_map, List.length_range, ← List.length_map] at hlength
  case refine_4 =>
    rintro _ hmem
    obtain ⟨c, hc, rfl⟩ := List.mem_map.1 hmem
    refine h.delivery hm hheld hsafe hgrows ?_ (hconsistent.lt c hc) (hconsistent.copied c hc)
    rintro before ⟨tasks, hinterleaves⟩
    exact hinterleaves.spares_of_waiting

end Launched

theorem Ran.delivered {result : Except Error Value} (h : Ran recipe writable selected args m result m')
    (hm : m.WellFormed) (hheld : ∀ v ∈ args, m.Holds v)
    (hsafe : ∀ loop, selected = some loop → List.Forall₂ (fun given taken => given.castsSafely taken = true)
      ((m.dtypes args).take recipe.signature.arity) (loop.key.take recipe.signature.arity)) :
    Delivered recipe writable selected args m result m' := by
  cases h with
  | refused cause kept => exact .refused cause kept
  | @launched l result _ takes run =>
    have hsafe := hsafe l.loop takes.selected
    cases hparallel : recipe.options.parallel with
    | false => exact takes.delivered_row hm hheld hsafe run _ hparallel
    | true => exact takes.delivered_together hm hheld hsafe run _ hparallel

namespace LoopTable

/-- What calls of a table may leave of the trampolines that it keeps. -/
inductive Serving (t : LoopTable) : Lowering.Pass → Prop
  | fresh : Serving t (.empty t.name)
  | call {pass : Lowering.Pass} (h : Serving t pass) (m : Memory) (args : List Value) (out : Option Value) :
      Serving t ((t.call args out).run ⟨pass, m⟩).2.pass

variable {t : LoopTable} {r : Registry} {name : String} {identity : Identity} {writableArgs : List Nat}
  {pass : Lowering.Pass}

theorem find?_of_select_ofRegistry (hr : r.Reachable) {query : List DType} {loop : Specialization}
    (h : (ofRegistry name r identity writableArgs).select? query = some loop) :
    r.find? loop.key = some loop :=
  hr.sound.find?_of_select_prefix (List.prefix_refl _) h

theorem Serving.recalls (h : t.Serving pass) (hr : r.Reachable)
    (ht : t = ofRegistry name r identity writableArgs) :
    pass.Recalls r t.writable t.options.boundsCheck := by
  induction h with
  | fresh => exact Lowering.Pass.recalls_empty t.name
  | call _ m args out ih =>
    have hfirst (query : List DType) (loop : Specialization) (hselect : t.select? query = some loop) :
        r.find? loop.key = some loop := find?_of_select_ofRegistry hr (ht ▸ hselect)
    exact (call_respects hfirst args out _ _ ⟨rfl, ih, ih⟩).2.left

theorem Serving.runs (h : t.Serving pass) (hr : r.Reachable)
    (ht : t = ofRegistry name r identity writableArgs) {query : List DType} {loop : Specialization}
    (hselect : t.select? query = some loop) : t.Runs r.recipe r loop pass := by
  have hpass := h.recalls hr ht
  subst ht
  exact ⟨rfl, rfl, hpass, find?_of_select_ofRegistry hr hselect,
    hr.sound.valid loop (Dispatch.mem_of_select hselect)⟩

end LoopTable

theorem DynamicFunction.Coherent.arity_call {f : DynamicFunction} (h : f.Coherent) (engine : Engine)
    (m : Memory) (args : List Value) (out : Option Value) :
    ((call args out).run ⟨f, engine, m⟩).2.function.table.arity = f.registry.arity := by
  obtain ⟨hcoherent, hdescends⟩ := Operation.step_coheres (.call args out) ⟨f, engine, m⟩ h
  have hrun : ((Operation.step (.call args out)).run ⟨f, engine, m⟩).2 =
      ((call args out).run ⟨f, engine, m⟩).2 := by
    rw [Operation.step, Effect.run_bind_pure]
  rw [hrun] at hcoherent hdescends
  exact hcoherent.arity_eq.trans hdescends.registry.arity_eq

/-- The casts between whole types that a loop makes on its own are those that keep every number, and so does
converting operands along them. So whoever calls the loop that is selected for them, each invocation is handed
the numbers of the inputs in whole types. -/
theorem Reachable.delivers_numbers {f : DynamicFunction} (h : Reachable f) {m : Memory} (hm : m.WellFormed)
    (engine : Engine) :
    (∀ source target : DType, source.IsWhole → target.IsWhole → (source.castsSafely target = true ↔
      ∀ v : Scalar, v.dtype = source → (v.cast target).number = v.number)) ∧
    (∀ (v v' : Value) (source target : OperandType) (m' : Memory),
      (∀ dtype, target.element? = some dtype →
        (m.dtype v).IsWhole ∧ dtype.IsWhole ∧ (m.dtype v).castsSafely dtype = true) →
      (Action.castTo v source target).run m = (.ok v', m') →
      (m'.contents v').numbers = (m.contents v).numbers ∧ m'.shape v' = m.shape v) ∧
    (∀ (args : List Value) (out : Option Value), (∀ v ∈ args ++ out.toList, m.Holds v) →
      (∀ result s, (DynamicFunction.call args out).run ⟨f, engine, m⟩ = (result, s) →
        Delivered f.registry.recipe f.table.writable
          (s.function.table.select? (m.dtypes (args ++ out.toList))) (args ++ out.toList) m result s.memory) ∧
      (∀ result s, (Step.onTable (·.call args out)).run ⟨f, engine, m⟩ = (result, s) →
        Delivered f.registry.recipe f.table.writable
          (f.table.select? (m.dtypes (args ++ out.toList))) (args ++ out.toList) m result s.memory) ∧
      ∀ (r : Registry) name identity writableArgs t pass, r.Reachable →
        t = LoopTable.ofRegistry name r identity writableArgs → t.Serving pass →
        ∀ result x, (t.call args out).run ⟨pass, m⟩ = (result, x) →
          Delivered r.recipe t.writable (t.select? (m.dtypes (args ++ out.toList))) (args ++ out.toList) m
            result x.memory) ∧
    ∀ args : List Value, (∀ v ∈ args, m.Holds v) →
      ∀ result s, (DynamicFunction.lowerCall args).run ⟨f, engine, m⟩ = (result, s) →
        Delivered f.registry.recipe f.table.writable (f.specialization? (m.dtypes args)) args m result
          s.memory := by
  have hf := h.coherent
  refine ⟨fun _ _ => DType.castsSafely_iff_keeps, fun _ _ _ _ _ => Action.castTo_numbers hm, ?_, ?_⟩
  case refine_1 =>
    intro args out hheld
    refine ⟨fun result s hrun => ?_, fun result s hrun => ?_, ?_⟩
    case refine_1 =>
      have hran := hf.call_ran engine m args out
      have harity := hf.arity_call engine m args out
      rw [hrun] at hran harity
      refine hran.delivered hm hheld fun loop hselect => ?_
      have hsafe := LoopTable.castsSafely_of_select hselect
      rwa [harity] at hsafe
    case refine_2 =>
      have hran := hf.onTable_ran engine m args out
      rw [hrun] at hran
      refine hran.delivered hm hheld fun loop hselect => ?_
      have hsafe := LoopTable.castsSafely_of_select hselect
      rwa [hf.arity_eq] at hsafe
    case refine_3 =>
      intro r name identity writableArgs t pass hr ht hserving result x hrun
      have hran := LoopTable.call_ran (x := ⟨pass, m⟩) (fun _ _ hselect => hserving.runs hr ht hselect) args out
      rw [hrun] at hran
      subst ht
      exact hran.delivered hm hheld fun loop hselect => LoopTable.castsSafely_of_select hselect
  case refine_2 =>
    intro args hheld result s hrun
    have hran := hf.lowerCall_ran engine m args
    rw [hrun] at hran
    exact hran.delivered hm hheld fun loop hselect => hf.sound.castsSafely_of_specialization hselect

/-- A function of a row and a scalar whose kernel does nothing, with one entry, for 32-bit integers. -/
def idleRow : DynamicFunction :=
  (DynamicFunction.new ⟨"idle", 1⟩ ⟨⟨"idle", none, .native fun _ => .done, 0⟩, ⟨[["n"], []], []⟩, .default⟩
    "(n),()->()" .none false [] .dynamic).after
    [⟨.add (.void [.anyArray .int32 1, .scalar .int32, .anyArray .int32 1]), .fresh, .empty⟩,
      ⟨.buildTable, .fresh, .empty⟩]

theorem reachable_idleRow : Reachable idleRow := (Reachable.new ..).after _

/-- A row with the greatest and the least number of 16 bits, and an output. -/
def wordRow : Memory := .holding [⟨.uint16, [2], [.uint16 65535, .uint16 0]⟩, ⟨.int32, [], [.int32 5]⟩]

/-- Unsigned integers and truth values reach a kernel for signed integers as the numbers that they are. -/
theorem Reachable.delivers_numbers_idleRow : ∃ s,
    (DynamicFunction.call [.array 0, .scalar (.bool true), .array 1] none).run ⟨idleRow, .fresh, wordRow⟩ =
      (.ok (.array 1), s) ∧
    s.memory.invocations.map (·.map Contents.numbers) = [[[.whole 65535, .whole 0], [.whole 1], [.whole 5]]] ∧
    Delivered idleRow.registry.recipe idleRow.table.writable
      (s.function.table.select? [.uint16, .bool, .int32]) [.array 0, .scalar (.bool true), .array 1] wordRow
      (.ok (.array 1)) s.memory := by
  have hok : ((DynamicFunction.call [.array 0, .scalar (.bool true), .array 1] none).run
      ⟨idleRow, .fresh, wordRow⟩).1 = .ok (.array 1) := by
    decide +kernel
  refine ⟨_, Prod.ext hok rfl, by decide +kernel, ?_⟩
  obtain ⟨-, -, hcalls, -⟩ := Reachable.delivers_numbers reachable_idleRow (m := wordRow) (by decide) .fresh
  obtain ⟨hcall, -, -⟩ := hcalls [.array 0, .scalar (.bool true), .array 1] none (by decide)
  exact hcall _ _ (Prod.ext hok rfl)

end Corewise
