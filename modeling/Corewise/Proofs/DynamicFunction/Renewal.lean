import Corewise.Proofs.DynamicFunction.Restored
import Corewise.Proofs.DynamicFunction.Typed
/-!
When tables are renewed. A use of a function first settles what the function has: it may compile, and it may
renew the table. Then it may run a loop, which changes memory and trampolines only. Between two renewals the
registry gets ahead of the table by what is added, and by nothing else.
-/

namespace Corewise

/-- A function that has just been made, anew or from a snapshot. -/
inductive Made : DynamicFunction → Prop
  | built (key : FunctionKey) (recipe : Recipe) (text : String) (identity : Identity) (cache : Bool)
      (writable : List Nat) (mode : Dispatch.Mode) :
      Made (.new key recipe text identity cache writable mode)
  | rebuilt (key : FunctionKey) (recipe : Recipe) (text : String) (identity : Identity) (cache : Bool)
      (writable : List Nat) (mode : Dispatch.Mode) (snapshot : Snapshot) (engine : Engine)
      (m : Memory) {s : Machine}
      (restored : (World.restore snapshot).run
        ⟨.new key recipe text identity cache writable mode, engine, m⟩ = (.ok (), s)) :
      Made s.function

/-- The loop that a call with these operands runs. -/
def LoopTable.chosen? (t : LoopTable) (m : Memory) (operands : List Value) : Option Specialization :=
  if operands.length = t.arity ∨ operands.length = t.arity + 1 then t.select? (m.dtypes operands)
  else none

/-- The loop that an operation runs on its operands, once the function is settled. -/
def Operation.chosen? (f : DynamicFunction) (m : Memory) : Operation → Option Specialization
  | .call args out =>
    if f.lifecycle.isFixed ∨ (args ++ out.toList).length = f.arity + 1 then
      f.table.chosen? m (args ++ out.toList)
    else none
  | .callTable args out => f.table.chosen? m (args ++ out.toList)
  | .lowerCall args => f.specialization? (m.dtypes args)
  | .typeCall _ _ => none
  | .add _ => none
  | .buildTable => none
  | .disableCompile => none

/-- The machine after running a loop, if there is one to run. -/
def Machine.running (s : Machine) (operands : List Value) : Option Specialization → Machine
  | none => s
  | some loop => ((Step.onTable (·.executeWith operands loop)).run s).2

/-- The use renews the table: it is asked to, or the table has come to have other loops. -/
def Use.renews (use : Use) (f : DynamicFunction) : Bool :=
  match use.operation with
  | .buildTable => true
  | _ => (use.outcome f).function.table.loops.length != f.table.loops.length

/-- Entries that the use adds by hand. -/
def Use.added (use : Use) (f : DynamicFunction) : List Specialization :=
  match use.operation with
  | .add _ => (use.outcome f).function.registry.entries.drop f.registry.entries.length
  | _ => []

namespace DynamicFunction

/-- Entries added by hand along the uses since the table was last renewed, after those in `earlier`. -/
def addedSince (f : DynamicFunction) (earlier : List Specialization) : List Use → List Specialization
  | [] => earlier
  | use :: uses => (use.outcome f).function.addedSince
      (if use.renews f then [] else earlier ++ use.added f) uses

variable {f g : DynamicFunction} {engine : Engine} {m : Memory} {use : Use}

/-- The function `g` is what `f` has settled to when a use goes on to run a loop. -/
inductive Settles (use : Use) (f : DynamicFunction) : DynamicFunction → Prop
  | kept {g : DynamicFunction} (renews : use.renews f = false) (table : g.table = f.table)
      (pass : g.pass = f.pass)
      (entries : g.registry.entries = f.registry.entries ++ use.added f) : Settles use f g
  | renewed {g : DynamicFunction} (renews : use.renews f = true)
      (loops : g.table.loops = g.registry.entries) (pass : g.pass = .empty f.name) : Settles use f g

end DynamicFunction

namespace LoopTable

theorem call_run (t : LoopTable) (args : List Value) (out : Option Value) (x : Execution) :
    ((t.call args out).run x).2 = match t.chosen? x.memory (args ++ out.toList) with
      | none => x
      | some loop => ((t.executeWith (args ++ out.toList) loop).run x).2 := by
  unfold chosen?
  by_cases hcount : (args ++ out.toList).length = t.arity ∨ (args ++ out.toList).length = t.arity + 1
  case neg =>
    rw [if_neg hcount, call_of_count (not_or.1 hcount)]
  case pos =>
    have hcalled : ¬ ((args ++ out.toList).length ≠ t.arity ∧
        (args ++ out.toList).length ≠ t.arity + 1) := fun hwrong => not_or.2 hwrong hcount
    rw [if_pos hcount]
    rcases hselect : t.select? (x.memory.dtypes (args ++ out.toList)) with _ | loop
    · rw [call_of_none hcalled hselect]
    · rw [call_of_select hcalled hselect]

theorem chosen?_of_count {t : LoopTable} {m : Memory} {operands : List Value}
    (hcount : operands.length = t.arity + 1) : t.chosen? m operands = t.select? (m.dtypes operands) :=
  if_pos (.inr hcount)

end LoopTable

namespace DynamicFunction

variable {f g : DynamicFunction} {engine : Engine} {m : Memory} {use : Use}

theorem onTable_call_run (args : List Value) (out : Option Value) (s : Machine) :
    ((Step.onTable (·.call args out)).run s).2 =
      s.running (args ++ out.toList) (s.function.table.chosen? s.memory (args ++ out.toList)) := by
  rw [Step.onTable_run]
  dsimp only
  rw [LoopTable.call_run]
  dsimp only
  cases s.function.table.chosen? s.memory (args ++ out.toList) with
  | none => rfl
  | some loop => rfl

theorem running_table (s : Machine) (operands : List Value) (loop : Option Specialization) :
    (s.running operands loop).function.table = s.function.table := by
  cases loop with
  | none => rfl
  | some loop => rfl

theorem running_registry (s : Machine) (operands : List Value) (loop : Option Specialization) :
    (s.running operands loop).function.registry = s.function.registry := by
  cases loop with
  | none => rfl
  | some loop => rfl

/-- The use settles `f` to `g`, and then it runs the loop that it chooses there. -/
structure Course (use : Use) (f g : DynamicFunction) (engine : Engine) : Prop where
  coherent : g.Coherent
  settles : Settles use f g
  outcome : use.outcome f = Machine.running ⟨g, engine, use.memory⟩ use.operation.operands
    (use.operation.chosen? g use.memory)

section Plain

/-! Operations that neither add an entry by hand nor are asked to renew the table. -/

variable (hrenews : use.renews f =
    ((use.outcome f).function.table.loops.length != f.table.loops.length))
  (hg : g.Coherent)
  (houtcome : use.outcome f = Machine.running ⟨g, engine, use.memory⟩ use.operation.operands
    (use.operation.chosen? g use.memory))
include hrenews hg houtcome

theorem course_of_kept (hadded : use.added f = []) (table : g.table = f.table) (pass : g.pass = f.pass)
    (entries : g.registry.entries = f.registry.entries) : Course use f g engine := by
  refine ⟨hg, .kept ?_ table pass ?_, houtcome⟩
  · rw [hrenews, houtcome, running_table, table, bne_self_eq_false]
  · rw [entries, hadded, List.append_nil]

theorem course_of_renewed (loops : g.table.loops = g.registry.entries)
    (pass : g.pass = .empty f.name) (longer : f.table.loops.length < g.table.loops.length) :
    Course use f g engine := by
  refine ⟨hg, .renewed ?_ loops pass, houtcome⟩
  rw [hrenews, houtcome, running_table, bne_iff_ne]
  exact Nat.ne_of_gt longer

end Plain

theorem Coherent.course_callTable (h : f.Coherent) (args : List Value) (out : Option Value)
    (engine : Engine) (m : Memory) : Course ⟨.callTable args out, engine, m⟩ f f engine := by
  apply course_of_kept rfl h ?_ rfl rfl rfl rfl
  unfold Use.outcome Operation.step
  rw [Effect.run_bind_pure, onTable_call_run]
  rfl

theorem Coherent.course_lowerCall (h : f.Coherent) (args : List Value) (engine : Engine) (m : Memory) :
    Course ⟨.lowerCall args, engine, m⟩ f f engine := by
  apply course_of_kept rfl h ?_ rfl rfl rfl rfl
  unfold Use.outcome Operation.step
  rw [Effect.run_bind_pure]
  dsimp only [Operation.chosen?]
  rcases hloop : f.specialization? (m.dtypes args) with _ | loop
  · rw [lowerCall_of_none hloop]
    rfl
  · rw [lowerCall_of_some hloop]
    rfl

/-- A table that has come to have a loop for some element types has come to have more loops. -/
theorem Coherent.length_loops_lt (h : f.Coherent) {r : Registry}
    (hprecedes : f.registry.Precedes r) {query : List DType}
    (hmissing : f.table.select? query = none)
    (hfound : ({ f with registry := r }.renewTable.table.select? query).isSome) :
    f.table.loops.length < { f with registry := r }.renewTable.table.loops.length := by
  have hprefix : f.table.loops <+: r.entries := h.listed.trans hprecedes.entries
  apply Nat.lt_of_le_of_ne hprefix.length_le
  intro hlength
  have hloops : f.table.loops = r.entries := hprefix.eq_of_length hlength
  have harity : f.table.arity = r.arity := h.arity_eq.trans hprecedes.arity_eq.symm
  rw [LoopTable.select?, hloops, harity] at hmissing
  have hselect : { f with registry := r }.renewTable.table.select? query = none := hmissing
  rw [hselect] at hfound
  cases hfound

section Call

variable {args : List Value} {out : Option Value}

theorem call_outcome (args : List Value) (out : Option Value) (engine : Engine) (m : Memory)
    (f : DynamicFunction) :
    Use.outcome ⟨.call args out, engine, m⟩ f = ((call args out).run ⟨f, engine, m⟩).2 := by
  unfold Use.outcome Operation.step
  rw [Effect.run_bind_pure]

variable (hcount : (args ++ out.toList).length = g.arity + 1)
include hcount

theorem chosen?_call : (Operation.call args out).chosen? g m =
    g.table.select? (m.dtypes (args ++ out.toList)) :=
  (if_pos (.inr hcount)).trans (LoopTable.chosen?_of_count hcount)

/-- Handing all operands on as arguments runs the loop that the call chooses. -/
theorem onTable_call_operands_run (engine : Engine) (m : Memory) :
    ((Step.onTable (·.call (args ++ out.toList) none)).run ⟨g, engine, m⟩).2 =
      Machine.running ⟨g, engine, m⟩ (args ++ out.toList) ((Operation.call args out).chosen? g m) := by
  have hall : (args ++ out.toList) ++ (none : Option Value).toList = args ++ out.toList :=
    List.append_nil _
  rw [chosen?_call hcount, onTable_call_run, hall, ← LoopTable.chosen?_of_count hcount]

end Call

theorem Coherent.course_call (h : f.Coherent) (args : List Value) (out : Option Value)
    (engine : Engine) (m : Memory) :
    ∃ g engine', Course ⟨.call args out, engine, m⟩ f g engine' := by
  by_cases hfixed : f.lifecycle.isFixed = true
  case pos =>
    refine ⟨f, engine, course_of_kept rfl h ?_ rfl rfl rfl rfl⟩
    have hchosen : (Operation.call args out).chosen? f m = f.table.chosen? m (args ++ out.toList) :=
      if_pos (.inl hfixed)
    rw [call_outcome, call_of_fixed hfixed, onTable_call_run, hchosen]
    rfl
  replace hfixed := Bool.eq_false_iff.2 hfixed
  by_cases hcount : (args ++ out.toList).length = f.arity + 1
  case neg =>
    refine ⟨f, engine, course_of_kept rfl h ?_ rfl rfl rfl rfl⟩
    have hchosen : (Operation.call args out).chosen? f m = none :=
      if_neg (not_or.2 ⟨Bool.eq_false_iff.1 hfixed, hcount⟩)
    rw [call_outcome, call_of_count hfixed hcount, hchosen]
    rfl
  rcases hmatch : f.table.select? (m.dtypes (args ++ out.toList)) with _ | loop
  case some =>
    refine ⟨f, engine, course_of_kept rfl h ?_ rfl rfl rfl rfl⟩
    rw [call_outcome, call_of_match hfixed hcount (hmatch ▸ rfl), onTable_call_operands_run hcount]
    rfl
  have hgrows := h.sound.registry.resolve_grows f.name (m.dtypes (args ++ out.toList)) false true engine
  have hresolving := h.sound.resolving engine m hcount
  generalize hresolve : f.registry.resolve f.name (m.dtypes (args ++ out.toList)) false true engine =
    result at hresolving hgrows
  have hrenewed {found : Resolution} {r : Registry} {engine' : Engine} {loop : Specialization}
      (hresult : result = (.ok found, r, engine'))
      (hfound : r.find? (m.dtypes (args ++ out.toList)) = some loop) :
      ∃ g engine', Course ⟨.call args out, engine, m⟩ f g engine' := by
    subst hresult
    have harity : { f with registry := r }.renewTable.arity = f.arity :=
      hgrows.precedes.arity_eq.trans h.arity_eq.symm
    have hdelegates := h.sound.delegates_of_resolved hfixed hcount hmatch hresolve hfound
    refine ⟨_, engine', course_of_renewed rfl (h.of_grows hgrows).renewTable ?_ rfl rfl ?_⟩
    · rw [call_outcome, call_of_resolved hfixed hcount hmatch hresolve,
        onTable_call_operands_run (hcount.trans (congrArg (· + 1) harity.symm))]
      rfl
    · exact h.length_loops_lt hgrows.precedes hmatch (Option.isSome_of_mem hdelegates.selected)
  cases hresolving with
  | found hfound => exact hrenewed rfl hfound
  | @refused _ engine' _ hcompile =>
    refine ⟨f, engine', course_of_kept rfl h ?_ rfl rfl rfl rfl⟩
    rw [call_outcome, call_of_refused hfixed hcount hmatch hresolve, chosen?_call hcount, hmatch]
    rfl
  | compiled _ _ _ _ _ hfound => exact hrenewed rfl hfound

theorem Coherent.course_typeCall (h : f.Coherent) (types : List OperandType)
    (keywords : List (String × OperandType)) (engine : Engine) (m : Memory) :
    ∃ g engine', Course ⟨.typeCall types keywords, engine, m⟩ f g engine' := by
  have houtcome : Use.outcome ⟨.typeCall types keywords, engine, m⟩ f =
      ((typeCall types keywords).run ⟨f, engine, m⟩).2 := by
    unfold Use.outcome Operation.step
    rw [Effect.run_bind_pure]
  -- Nothing is run, so what has been settled is the outcome.
  have hkept {engine' : Engine} {result : Except Error CallSignature}
      (hrun : (typeCall types keywords).run ⟨f, engine, m⟩ = (result, ⟨f, engine', m⟩)) :
      ∃ g engine', Course ⟨.typeCall types keywords, engine, m⟩ f g engine' := by
    refine ⟨f, engine', course_of_kept rfl h ?_ rfl rfl rfl rfl⟩
    rw [houtcome, hrun]
    rfl
  have htyping := h.sound.typing types keywords engine m
  generalize hrun : (typeCall types keywords).run ⟨f, engine, m⟩ = result at htyping
  cases htyping with
  | refused => exact hkept hrun
  | stored => exact hkept hrun
  | @compiled query entry engine' _ _ grows _ =>
    refine ⟨f.grown entry, engine', course_of_renewed rfl (h.of_grows grows).renewTable ?_ rfl rfl ?_⟩
    · rw [houtcome, hrun]
      rfl
    · have hlength : (f.grown entry).table.loops.length = f.registry.entries.length + 1 :=
        List.length_append
      have hle := h.listed.length_le
      omega

theorem Coherent.course_disableCompile (h : f.Coherent) (engine : Engine) (m : Memory) :
    ∃ g, Course ⟨.disableCompile, engine, m⟩ f g engine := by
  have hcoherent := (disableCompile_coheres ⟨f, engine, m⟩ h).1
  have houtcome : Use.outcome ⟨.disableCompile, engine, m⟩ f =
      (disableCompile.run ⟨f, engine, m⟩).2 := rfl
  rw [disableCompile_run] at hcoherent houtcome
  split at houtcome
  case isTrue => exact ⟨f, course_of_kept rfl h houtcome rfl rfl rfl rfl⟩
  case isFalse hne =>
    rw [if_neg hne] at hcoherent
    exact ⟨_, course_of_kept rfl hcoherent houtcome rfl rfl rfl rfl⟩

theorem Coherent.course_add (h : f.Coherent) (call : CallSignature) (engine : Engine) (m : Memory) :
    ∃ g engine', Course ⟨.add call, engine, m⟩ f g engine' := by
  have hgrows := (h.sound.registry.insert call engine).grows h.sound.registry
  have houtcome := add_outcome call engine m f
  refine ⟨_, _, h.of_grows hgrows, .kept ?_ rfl rfl ?_, houtcome⟩
  · unfold Use.renews
    dsimp only
    rw [houtcome, bne_self_eq_false]
  · unfold Use.added
    dsimp only
    rw [houtcome]
    exact (List.prefix_iff_eq_append.1 hgrows.entries).symm

/-- Whatever is asked of a function, it settles first and runs a loop then. -/
theorem Coherent.course (h : f.Coherent) (use : Use) : ∃ g engine, Course use f g engine := by
  obtain ⟨operation, engine, m⟩ := use
  cases operation with
  | call args out => exact h.course_call args out engine m
  | callTable args out => exact ⟨f, engine, h.course_callTable args out engine m⟩
  | typeCall types keywords => exact h.course_typeCall types keywords engine m
  | lowerCall args => exact ⟨f, engine, h.course_lowerCall args engine m⟩
  | add call => exact h.course_add call engine m
  | buildTable => exact ⟨f.renewTable, engine, h.renewTable, .renewed rfl rfl rfl, rfl⟩
  | disableCompile =>
    obtain ⟨g, hcourse⟩ := h.course_disableCompile engine m
    exact ⟨g, engine, hcourse⟩

theorem after_append (before later : List Use) :
    f.after (before ++ later) = (f.after before).after later := by
  induction before generalizing f with
  | nil => rfl
  | cons use before ih => exact ih

theorem Coherent.outcome (h : f.Coherent) (use : Use) : (use.outcome f).function.Coherent :=
  (use.operation.step_coheres ⟨f, use.engine, use.memory⟩ h).1

theorem Coherent.after (h : f.Coherent) (uses : List Use) :
    (f.after uses).Coherent ∧ f.Descends (f.after uses) := by
  induction uses generalizing f with
  | nil => exact ⟨h, .refl f⟩
  | cons use uses ih =>
    obtain ⟨hafter, hdescends⟩ := ih (h.outcome use)
    exact ⟨hafter, (use.operation.step_coheres ⟨f, use.engine, use.memory⟩ h).2.trans hdescends⟩

/-- What the registry has and the table lacks has been added by hand since the table was renewed. -/
theorem Coherent.entries_after (h : f.Coherent) {earlier : List Specialization}
    (hentries : f.registry.entries = f.table.loops ++ earlier) (uses : List Use) :
    (f.after uses).registry.entries =
      (f.after uses).table.loops ++ f.addedSince earlier uses := by
  induction uses generalizing f earlier with
  | nil => exact hentries
  | cons use uses ih =>
    obtain ⟨g, engine, hg, hsettles, houtcome⟩ := h.course use
    apply ih (h.outcome use)
    rw [houtcome, running_registry, running_table]
    cases hsettles with
    | kept renews table _ entries =>
      rw [renews, if_neg Bool.false_ne_true, entries, hentries, List.append_assoc]
      dsimp only
      rw [table]
    | renewed renews loops _ =>
      rw [renews, if_pos rfl, List.append_nil]
      exact loops.symm

end DynamicFunction

namespace Made

variable {f : DynamicFunction}

theorem settled (h : Made f) :
    f.Coherent ∧ f.table.loops = f.registry.entries ∧ f.pass.trampolines = [] := by
  cases h with
  | built => exact ⟨DynamicFunction.coherent_new .., rfl, rfl⟩
  | rebuilt key recipe text identity cache writable mode snapshot engine m restored =>
    have hcoherent := (DynamicFunction.restore_keeps snapshot DynamicFunction.add_coheres
      DynamicFunction.buildTable_coheres DynamicFunction.disableCompile_coheres
      ⟨.new key recipe text identity cache writable mode, engine, m⟩
      (DynamicFunction.coherent_new ..)).1
    rw [restored] at hcoherent
    refine ⟨hcoherent, ?_⟩
    obtain ⟨_, s, -, hrest⟩ := Effect.run_bind_eq_ok restored
    rw [Effect.run_bind_of_ok (DynamicFunction.buildTable_run s)] at hrest
    split at hrest
    case isFalse =>
      cases hrest
      exact ⟨rfl, rfl⟩
    case isTrue =>
      rw [DynamicFunction.disableCompile_run] at hrest
      split at hrest
      · cases hrest
      · cases hrest
        exact ⟨rfl, rfl⟩

end Made

/-- Whatever is asked of a function, in whatever order and with whatever success, its table lists the first
entries of its registry, and lacks those that were added by hand since it was renewed last. Entries are
appended and never change, and a frozen function has some. -/
theorem Made.table_lists_entries {f : DynamicFunction} (h : Made f) (uses : List Use) :
    (f.after uses).registry.entries = (f.after uses).table.loops ++ f.addedSince [] uses ∧
    (∀ before later, uses = before ++ later →
      (f.after before).registry.entries <+: (f.after uses).registry.entries) ∧
    ((f.after uses).lifecycle.isFrozen = true → (f.after uses).registry.entries ≠ []) := by
  obtain ⟨hf, hloops, -⟩ := h.settled
  refine ⟨?listed, ?appended, (hf.after uses).1.stocked⟩
  case listed =>
    apply hf.entries_after
    rw [hloops, List.append_nil]
  case appended =>
    rintro before later rfl
    rw [DynamicFunction.after_append]
    exact ((hf.after before).1.after later).2.registry.entries

/-- A function for `(n)->(n)` without entries. -/
def openCopy : DynamicFunction :=
  .new ⟨"copy", 1⟩ ⟨⟨"copy", none, Loop.copyFirst, 0⟩, ⟨[["n"]], ["n"]⟩, .default⟩ "(n)->(n)" .none false []
    .dynamic

/-- Adding for 64-bit floats, in vain for nothing at all, typing a call site for 32-bit integers, which renews
the table, and adding for 32-bit floats. -/
def copyUses : List Use :=
  [⟨.add (Registry.floatRows .any), .fresh, .empty⟩, ⟨.add ⟨[], .none⟩, .fresh, .empty⟩,
    ⟨.typeCall [.anyArray .int32 1] [], .fresh, .empty⟩, ⟨.add narrowRows, .fresh, .empty⟩]

/-- Only the last of the three entries is not in the table. -/
theorem Made.table_lists_entries_openCopy :
    (openCopy.after copyUses).registry.signatures =
      (openCopy.after copyUses).table.loops.map (·.signature) ++ [narrowRows] ∧
    (openCopy.after copyUses).table.loops.length = 2 := by
  have hadded : (openCopy.addedSince [] copyUses).map (·.signature) = [narrowRows] := by
    decide +kernel
  obtain ⟨hlisted, -, -⟩ := Made.table_lists_entries (.built ..) (f := openCopy) copyUses
  refine ⟨?_, by decide +kernel⟩
  rw [Registry.signatures, hlisted, List.map_append, hadded]

end Corewise
