import Corewise.Proofs.DynamicFunction.Launch
import Corewise.Proofs.Loop.Served
/-!
What a failed call leaves. Unless the kernel has failed, nothing has been done; and where it has failed in
some iteration, the operands hold what the iterations before that have left in them, and nothing of what it
had written until then.
-/

namespace Corewise

theorem range_split {n k : Nat} {before after : List Nat}
    (h : List.range n = before ++ k :: after) : k < n ∧ before = List.range k := by
  rw [List.range_eq_range', List.range'_eq_append_iff] at h
  obtain ⟨count, hcount, hbefore, hafter⟩ := h
  obtain ⟨hk, hpos, -⟩ := List.range'_eq_cons_iff.1 hafter.symm
  obtain rfl : count = k := by omega
  exact ⟨by omega, by rw [hbefore, List.range_eq_range']⟩

/-- How a call with these arguments fails, with the memory that it leaves. -/
inductive Halted (recipe : Recipe) (writable : List Bool) (selected : Option Specialization)
    (args : List Value) (m : Memory) : Error → Memory → Prop
  /-- No kernel has run. -/
  | refused {e : Error} {m' : Memory} (cause : ∀ text, e ≠ .kernel text) (kept : m.Extends m') :
      Halted recipe writable selected args m e m'
  /-- The kernel has failed in the iteration numbered `k`; `before` is what the first `k` iterations
  leave, one invocation each, and all that has come to it since is the note of the invocation that has
  failed. -/
  | raised {l : Launch} {k : Nat} {before : Memory} {held : List Contents} {text : String}
      (takes : l.Takes recipe selected args m) (lt : k < l.plan.iterations)
      (ran : l.run recipe writable (List.range k) = (.ok (), before))
      (noted : before.invocations.length = m.invocations.length + k)
      (raises : recipe.kernel.body.Raises text held) :
      Halted recipe writable selected args m (.kernel text) (before.noting [held])

variable {recipe : Recipe} {writable : List Bool} {selected : Option Specialization}
  {args : List Value} {m m' : Memory} {e : Error}

theorem Launch.Takes.halted {l : Launch} (h : l.Takes recipe selected args m) (hm : m.WellFormed)
    (hheld : ∀ v ∈ args, m.Holds v)
    (hrun : l.run recipe writable (List.range l.plan.iterations) = (.error e, m')) :
    Halted recipe writable selected args m e m' := by
  have hready := h.ready hm hheld
  have hconverts := h.converts writable
  obtain ⟨-, out, hout⟩ := Loop.output_of_plan h.plan
  have hbelow {n : Nat} (hn : n ≤ l.plan.iterations) : ∀ flat ∈ List.range n,
      flat < l.plan.iterations := fun flat hflat => Nat.lt_of_lt_of_le (List.mem_range.1 hflat) hn
  obtain ⟨before, k, after, m₁, horder, hbefore, hready₁, hfailed, rfl⟩ :=
    hready.runOrder_error (l.trampoline recipe writable).call_grows (hbelow (Nat.le_refl _)) hrun
  -- The iterations run in the order of their numbers, so those before number `k` are all that have run.
  obtain ⟨hk, rfl⟩ := range_split horder
  obtain ⟨handed, hinvocations, -, hall, -⟩ :=
    hready.runOrder_served hout hconverts (hbelow (Nat.le_of_lt hk)) hbefore
  obtain ⟨hresult, hnoted⟩ := hready₁.outcome_handed hout hconverts hk
  rw [hfailed] at hresult
  rw [hnoted]
  rcases hverdict : (recipe.kernel.body.transform (Loop.handedAt recipe.signature l.plan l.operands
    writable l.loop.key m₁ k)).1 with _ | text
  case none =>
    rw [hverdict] at hresult
    cases hresult
  case some =>
    rw [hverdict] at hresult
    cases hresult
    refine .raised h hk hbefore ?_ (Body.raises_of_transform hverdict)
    rw [hinvocations, List.length_append, hall rfl, List.length_range, h.extends.invocations]

theorem Ran.halted (h : Ran recipe writable selected args m (.error e) m')
    (hsequential : recipe.options.parallel = false) (hm : m.WellFormed) (hheld : ∀ v ∈ args, m.Holds v) :
    Halted recipe writable selected args m e m' := by
  generalize hresult : (Except.error e : Except Error Value) = result at h
  cases h with
  | refused cause kept =>
    cases hresult
    exact .refused cause kept
  | @launched l result _ takes run =>
    cases result with
    | ok _ => cases hresult
    | error e =>
      cases hresult
      rw [l.runAll_of_sequential writable hsequential] at run
      exact takes.halted hm hheld run

/-- A call that fails, of a function that runs one iteration after the other or of a typed call site of it,
leaves what it has found unless the kernel has failed, and otherwise what the iterations before the one that
has failed leave, whichever operands are the same array. -/
theorem Reachable.failed_calls {f : DynamicFunction} (h : Reachable f)
    (hsequential : f.registry.recipe.options.parallel = false) {m : Memory} (hm : m.WellFormed)
    (engine : Engine) :
    (∀ (args : List Value) (out : Option Value), (∀ v ∈ args ++ out.toList, m.Holds v) →
      ∀ e s, (DynamicFunction.call args out).run ⟨f, engine, m⟩ = (.error e, s) →
        Halted f.registry.recipe f.table.writable
          (s.function.table.select? (m.dtypes (args ++ out.toList))) (args ++ out.toList) m e
          s.memory) ∧
    ∀ args : List Value, (∀ v ∈ args, m.Holds v) →
      ∀ e s, (DynamicFunction.lowerCall args).run ⟨f, engine, m⟩ = (.error e, s) →
        Halted f.registry.recipe f.table.writable (f.specialization? (m.dtypes args)) args m e
          s.memory := by
  have hf := h.coherent
  constructor
  case left =>
    intro args out hheld e s he
    have hran := hf.call_ran engine m args out
    rw [he] at hran
    exact hran.halted hsequential hm hheld
  case right =>
    intro args hheld e s he
    have hran := hf.lowerCall_ran engine m args
    rw [he] at hran
    exact hran.halted hsequential hm hheld

/-- A function whose kernel writes to its output before it looks at its input. -/
def refusingOnes : DynamicFunction :=
  .new ⟨"even", 1⟩ ⟨⟨"even", none, .native fun views => .write 1 0 (.int64 7) fun _ =>
    if views.head? = some (.scalar (.int64 1)) then .fail "odd" else .done, 0⟩, ⟨[[]], []⟩, .default⟩
    "()->()" .none false [] .dynamic

/-- The kernel fails in the second iteration, and the first has written to the array that is read. -/
theorem Reachable.failed_calls_refusingOnes : ∃ s,
    (DynamicFunction.call [.array 0] (some (.array 0))).run
        ⟨refusingOnes, .fresh, .holding [⟨.int64, [3], [.int64 0, .int64 1, .int64 2]⟩]⟩ =
      (.error (.kernel "odd"), s) ∧
    s.memory.buffer 0 = ⟨.int64, [3], [.int64 7, .int64 1, .int64 2]⟩ ∧
    Halted refusingOnes.registry.recipe refusingOnes.table.writable
      (s.function.table.select? [.int64, .int64]) [.array 0, .array 0]
      (.holding [⟨.int64, [3], [.int64 0, .int64 1, .int64 2]⟩]) (.kernel "odd") s.memory := by
  have hreached : Reachable refusingOnes := .new ..
  have hfails : ((DynamicFunction.call [.array 0] (some (.array 0))).run
      ⟨refusingOnes, .fresh, .holding [⟨.int64, [3], [.int64 0, .int64 1, .int64 2]⟩]⟩).1 =
      .error (.kernel "odd") := by
    decide +kernel
  refine ⟨_, Prod.ext hfails rfl, by decide +kernel, ?_⟩
  exact (Reachable.failed_calls hreached rfl (by decide) .fresh).1 [.array 0] (some (.array 0))
    (by decide) _ _ (Prod.ext hfails rfl)

end Corewise
