import Corewise.Proofs.DynamicFunction.Launch
import Corewise.Proofs.Loop.Handed
/-!
Elements that the kernel leaves alone in a call that succeeds. They keep their values as far as the types
hold these that the loop hands the arrays over in; where such a type does not hold a value, the value comes
back converted, even from a kernel that does nothing.
-/

namespace Corewise

/-- What a call that has launched a loop leaves of elements that the kernel has not written, with the
iterations in the order of their invocations and what it has been handed in each of them. -/
structure Spared (recipe : Recipe) (writable : List Bool) (l : Launch) (order : List Nat)
    (handed : List (List Contents)) (m' : Memory) : Prop where
  ran : l.runAll recipe writable = (.ok (), m')
  invocations : m'.invocations = l.memory.invocations ++ handed
  served : handed.length = order.length
  all : order.Perm (List.range l.plan.iterations)
  row : recipe.options.parallel = false → order = List.range l.plan.iterations
  /-- The value has passed through types that the array was handed over in, and is the same if they all
  hold it. -/
  element : ∀ r, l.memory.Holds (.array r) → ∀ offset v,
    (l.memory.buffer r).data[offset]? = some v →
    ¬ Loop.Writes recipe l.plan l.operands writable l.memory order handed r offset →
    ∃ v', (m'.buffer r).data[offset]? = some v' ∧
      v.RoundTrip (Loop.HandedAs recipe.signature l.operands writable l.loop.key r) v' ∧
      ((∀ dtype, Loop.HandedAs recipe.signature l.operands writable l.loop.key r dtype →
        (v.cast dtype).cast v.dtype = v) → v' = v)
  /-- A kernel that writes nothing leaves an array as it was if these types hold all its values. -/
  idle : (∀ held, recipe.kernel.body.writes held = []) → ∀ r, l.memory.Holds (.array r) →
    (∀ dtype, Loop.HandedAs recipe.signature l.operands writable l.loop.key r dtype →
      ∀ v ∈ (l.memory.buffer r).data, (v.cast dtype).cast v.dtype = v) →
    m'.buffer r = l.memory.buffer r

variable {recipe : Recipe} {writable : List Bool} {selected : Option Specialization}
  {args : List Value} {m m' : Memory}

theorem Launch.Takes.spared {l : Launch} (h : l.Takes recipe selected args m) (hm : m.WellFormed)
    (hheld : ∀ v ∈ args, m.Holds v) (hrun : l.runAll recipe writable = (.ok (), m')) :
    ∃ order handed, Spared recipe writable l order handed m' := by
  have hready := h.ready hm hheld
  have hconverts := h.converts writable
  have hbelow : ∀ flat ∈ List.range l.plan.iterations, flat < l.plan.iterations :=
    fun _ => List.mem_range.1
  obtain ⟨-, out, hout⟩ := Loop.output_of_plan h.plan
  obtain ⟨tasks, calls, htraced, hended, hrow⟩ := l.traced_runAll recipe writable
  rw [hrun] at htraced hended hrow
  refine ⟨calls.map Prod.fst, calls.map fun c => List.zipWith Contents.cast c.2 l.loop.key, ?_⟩
  constructor
  case ran => exact hrun
  case invocations => exact htraced.handed hready hout hconverts hbelow
  case served => rw [List.length_map, List.length_map]
  case all => exact (htraced.counted List.nodup_range).perm List.nodup_range hended
  case row => exact fun hsequential => hrow hsequential rfl
  case element =>
    intro r hr offset v hv hnot
    obtain ⟨v', hv', htrip⟩ := htraced.unwritten hready hout hconverts hbelow hr hv hnot
    exact ⟨v', hv', htrip, htrip.eq_of_held⟩
  case idle =>
    intro hidle r hr htypes
    refine htraced.grows.buffer_eq hready.wellFormed hr fun offset v hv => ?_
    have hnone : ¬ Loop.Writes recipe l.plan l.operands writable l.memory (calls.map Prod.fst)
        (calls.map fun c => List.zipWith Contents.cast c.2 l.loop.key) r offset := by
      rintro ⟨p, -, i, a, j, -, -, hwrites, -⟩
      rw [hidle] at hwrites
      exact List.not_mem_nil hwrites
    obtain ⟨v', hv', htrip⟩ := htraced.unwritten hready hout hconverts hbelow hr hv hnone
    rwa [htrip.eq_of_held fun dtype hhanded => htypes dtype hhanded v (List.mem_of_getElem? hv)] at hv'

theorem Ran.spared {v : Value} (h : Ran recipe writable selected args m (.ok v) m') (hm : m.WellFormed)
    (hheld : ∀ v ∈ args, m.Holds v) :
    ∃ l order handed, l.Takes recipe selected args m ∧ Spared recipe writable l order handed m' := by
  obtain ⟨l, takes, run⟩ := h.launched_of_ok
  obtain ⟨order, handed, hspared⟩ := takes.spared hm hheld run
  exact ⟨l, order, handed, takes, hspared⟩

/-- What a call that succeeds, of the function or of a typed call site, leaves of elements that the kernel
does not write. -/
theorem Reachable.unwritten_elements {f : DynamicFunction} (h : Reachable f) {m : Memory}
    (hm : m.WellFormed) (engine : Engine) :
    (∀ (args : List Value) (out : Option Value), (∀ v ∈ args ++ out.toList, m.Holds v) →
      ∀ v s, (DynamicFunction.call args out).run ⟨f, engine, m⟩ = (.ok v, s) →
        ∃ l order handed, l.Takes f.registry.recipe
            (s.function.table.select? (m.dtypes (args ++ out.toList))) (args ++ out.toList) m ∧
          Spared f.registry.recipe f.table.writable l order handed s.memory) ∧
    ∀ args : List Value, (∀ v ∈ args, m.Holds v) →
      ∀ v s, (DynamicFunction.lowerCall args).run ⟨f, engine, m⟩ = (.ok v, s) →
        ∃ l order handed, l.Takes f.registry.recipe (f.specialization? (m.dtypes args)) args m ∧
          Spared f.registry.recipe f.table.writable l order handed s.memory := by
  have hf := h.coherent
  constructor
  case left =>
    intro args out hheld v s hv
    have hran := hf.call_ran engine m args out
    rw [hv] at hran
    exact hran.spared hm hheld
  case right =>
    intro args hheld v s hv
    have hran := hf.lowerCall_ran engine m args
    rw [hv] at hran
    exact hran.spared hm hheld

/-- A function for `()->()` whose kernel does nothing, with one entry, for 32-bit integers. -/
def idleNarrow : DynamicFunction :=
  (DynamicFunction.new ⟨"idle", 1⟩ ⟨⟨"idle", none, .native fun _ => .done, 0⟩, ⟨[[]], []⟩, .default⟩
    "()->()" .none false [] .dynamic).after
    [⟨.add (.void [.scalar .int32, .anyArray .int32 1]), .fresh, .empty⟩,
      ⟨.buildTable, .fresh, .empty⟩]

theorem reachable_idleNarrow : Reachable idleNarrow := (Reachable.new ..).after _

/-- A kernel that writes nothing changes the output if the loop has another type for that: a 64-bit integer
comes back as what 32 bits hold of it. -/
theorem idleNarrow_wraps :
    Reachable idleNarrow ∧ (∀ held, idleNarrow.registry.recipe.kernel.body.writes held = []) ∧
    ∃ s, (DynamicFunction.call [.array 0, .array 1] none).run ⟨idleNarrow, .fresh,
        .holding [⟨.int32, [1], [.int32 7]⟩, ⟨.int64, [1], [.int64 4294967301]⟩]⟩ = (.ok (.array 1), s) ∧
      s.memory.buffer 1 = ⟨.int64, [1], [.int64 5]⟩ := by
  refine ⟨reachable_idleNarrow, fun _ => rfl, _, Prod.ext ?_ rfl, ?_⟩
  · decide +kernel
  · decide +kernel

/-- Where 32 bits hold what is there, it stays. -/
theorem Reachable.unwritten_elements_idleNarrow : ∃ s,
    (DynamicFunction.call [.array 0, .array 1] none).run ⟨idleNarrow, .fresh,
        .holding [⟨.int32, [1], [.int32 7]⟩, ⟨.int64, [1], [.int64 5]⟩]⟩ = (.ok (.array 1), s) ∧
      s.memory.buffer 1 = ⟨.int64, [1], [.int64 5]⟩ := by
  have hok : ((DynamicFunction.call [.array 0, .array 1] none).run ⟨idleNarrow, .fresh,
      .holding [⟨.int32, [1], [.int32 7]⟩, ⟨.int64, [1], [.int64 5]⟩]⟩).1 = .ok (.array 1) := by
    decide +kernel
  have hselected : (((DynamicFunction.call [.array 0, .array 1] none).run ⟨idleNarrow, .fresh,
      .holding [⟨.int32, [1], [.int32 7]⟩, ⟨.int64, [1], [.int64 5]⟩]⟩).2.function.table.select?
        [.int32, .int64]).map (·.key) = some [.int32, .int32] := by
    decide +kernel
  refine ⟨_, Prod.ext hok rfl, ?_⟩
  obtain ⟨l, order, handed, takes, spared⟩ := (Reachable.unwritten_elements reachable_idleNarrow
    (m := .holding [⟨.int32, [1], [.int32 7]⟩, ⟨.int64, [1], [.int64 5]⟩]) (by decide) .fresh).1
    [.array 0, .array 1] none (by decide) _ _ (Prod.ext hok rfl)
  have hkey : l.loop.key = [.int32, .int32] := by
    have hloop := congrArg (Option.map (·.key)) takes.selected
    exact Option.some.inj (hloop.symm.trans hselected)
  -- Two operands are all that there are, and none has been made.
  have hmemory : l.operands = [.array 0, .array 1] ∧
      l.memory = .holding [⟨.int32, [1], [.int32 7]⟩, ⟨.int64, [1], [.int64 5]⟩] := by
    rcases takes.operands with hgiven | ⟨dtype, shape, hmade, -⟩
    · exact hgiven
    · have hcount := (Loop.output_of_plan takes.plan).1
      rw [hmade] at hcount
      cases hcount
  have hidle := spared.idle (fun _ => rfl) 1
  rw [hmemory.1, hmemory.2, hkey] at hidle
  refine hidle (by decide) ?_
  rintro dtype ⟨i, -, hi, hdtype⟩ v hv
  match i with
  | 0 => cases hi
  | 1 =>
    cases hdtype
    cases List.mem_singleton.1 hv
    decide

end Corewise
