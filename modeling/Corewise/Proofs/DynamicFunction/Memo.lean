import Corewise.Proofs.DynamicFunction.Launch
import Corewise.Proofs.DynamicFunction.Renewal
import Corewise.Proofs.Lowering.Pass
import Mathlib.Data.List.Dedup
/-!
Trampolines that passes keep. What a pass gives for a loop is what would be made for it anew, although the
request does not name the artifact: the entry that is chosen is the first with its key. And a pass keeps one
trampoline for each request since its table was renewed.
-/

namespace Corewise

/-- What a pass is asked for before the loop runs. -/
def Launch.request (signature : CoreSignature) (l : Launch) : Lowering.Request :=
  (Loop.elementSignature signature (l.memory.dtypes l.operands), l.loop.key)

namespace LoopTable

/-- All operands of a loop, and the memory that holds them: the output is made if it was not passed. -/
def provide (t : LoopTable) (m : Memory) (args : List Value) (loop : Specialization) :
    Except Error (List Value × Memory) :=
  if args.length = t.arity then
    match (loop.types t.arity).outputs with
    | dtype :: _ => (t.outputShape m args).map fun shape =>
      (args ++ [.array m.buffers.length], (m.alloc (.zeros dtype shape)).2)
    | [] => .ok (args, m)
  else .ok (args, m)

/-- The loop before its first iteration, if a plan is found for the operands. -/
def launch (t : LoopTable) (m : Memory) (args : List Value) (loop : Specialization) :
    Except Error Launch := do
  let (operands, m) ← t.provide m args loop
  let plan ← Loop.plan t.signature (m.contentsOf operands)
  return ⟨loop, operands, m, plan⟩

variable {t : LoopTable} {args : List Value} {loop : Specialization} {x : Execution}

theorem executeWith_run (t : LoopTable) (args : List Value) (loop : Specialization) (x : Execution) :
    (t.executeWith args loop).run x = match t.provide x.memory args loop with
      | .error e => (.error e, x)
      | .ok (operands, m) => (t.execute operands loop >>= fun _ =>
          pure (operands.getD t.arity (.scalar default))).run ⟨x.pass, m⟩ := by
  unfold provide
  by_cases hcount : args.length = t.arity
  case neg =>
    rw [if_neg hcount, executeWith_of_ne hcount]
  case pos =>
    rw [if_pos hcount]
    rcases houtputs : (loop.types t.arity).outputs with _ | ⟨dtype, rest⟩
    case nil =>
      unfold executeWith
      rw [if_pos hcount, houtputs]
      rfl
    case cons =>
      rw [executeWith_of_eq hcount houtputs]
      have halloc := @onMemory_allocate_run t x args dtype
      rcases hshape : t.outputShape x.memory args with e | shape
      · rw [hshape] at halloc
        rw [Effect.run_bind_of_error halloc]
        rfl
      · rw [hshape] at halloc
        rw [Effect.run_bind_of_ok halloc]
        rfl

/-- The trampoline that a pass gives for a loop, with the pass after it. -/
def memoized (t : LoopTable) (p : Lowering.Pass) (l : Launch) : Lowering.Trampoline × Lowering.Pass :=
  p.trampoline (l.request t.signature) l.loop.artifact t.writable t.options.boundsCheck

theorem executeWith_of_error {e : Error} (h : t.launch x.memory args loop = .error e) :
    ((t.executeWith args loop).run x).2.pass = x.pass := by
  rw [executeWith_run]
  unfold launch at h
  rcases hprovide : t.provide x.memory args loop with e | ⟨operands, m⟩
  case error => rfl
  case ok =>
    rw [hprovide] at h
    dsimp only
    rcases hplan : Loop.plan t.signature (m.contentsOf operands) with e | plan
    · rw [Effect.run_bind_of_error (execute_of_error (x := ⟨x.pass, m⟩) hplan)]
    · change (Loop.plan t.signature (m.contentsOf operands) >>= _) = _ at h
      rw [hplan] at h
      cases h

theorem executeWith_of_ok {l : Launch} (h : t.launch x.memory args loop = .ok l) :
    l.loop = loop ∧ ((t.executeWith args loop).run x).2 =
      ⟨(t.memoized x.pass l).2, ((Loop.runAll t.signature l.plan l.operands t.writable
        (t.memoized x.pass l).1.call t.options.parallel).run l.memory).2⟩ := by
  rw [executeWith_run]
  unfold launch at h
  obtain ⟨⟨operands, m⟩, hprovide, h⟩ := Effect.bind_eq_ok.1 h
  obtain ⟨plan, hplan, h⟩ := Effect.bind_eq_ok.1 h
  cases h
  rw [hprovide]
  dsimp only
  rw [Effect.run_bind_pure, execute_of_ok (x := ⟨x.pass, m⟩) hplan]
  exact ⟨rfl, rfl⟩

end LoopTable

namespace Lowering.Pass

/-- The pass keeps one trampoline for each of the requests. -/
structure Lists (p : Pass) (requests : List Request) : Prop where
  nodup : (p.trampolines.map (·.1)).Nodup
  mem_iff : ∀ request, request ∈ p.trampolines.map (·.1) ↔ request ∈ requests

variable {p : Pass} {requests : List Request}

theorem lists_nil (h : p.trampolines = []) : p.Lists [] := by
  constructor
  · rw [h]
    exact List.nodup_nil
  · intro request
    rw [h]
    rfl

theorem Lists.trampoline (h : p.Lists requests) (request : Request) (a : Artifact)
    (writable : List Bool) (boundsCheck : Bool) :
    (p.trampoline request a writable boundsCheck).2.Lists (requests ++ [request]) := by
  constructor
  case nodup =>
    rw [requests_trampoline]
    exact nodup_ite_concat h.nodup
  case mem_iff =>
    intro other
    rw [requests_trampoline, mem_ite_concat, h.mem_iff, List.mem_append, List.mem_singleton]

/-- A pass is as large as there are different requests. -/
theorem Lists.size_eq (h : p.Lists requests) : p.size = requests.dedup.length := by
  have hperm : (p.trampolines.map (·.1)).Perm requests.dedup := by
    rw [List.perm_ext_iff_of_nodup h.nodup requests.nodup_dedup]
    intro request
    rw [h.mem_iff, List.mem_dedup]
  rw [← hperm.length_eq, List.length_map]
  rfl

end Lowering.Pass

/-- The loop that a use runs, before its first iteration, if a plan is found for the operands. -/
def Use.launch? (use : Use) (f : DynamicFunction) : Option Launch :=
  (use.operation.chosen? (use.outcome f).function use.memory).bind fun loop =>
    ((use.outcome f).function.table.launch use.memory use.operation.operands loop).toOption

/-- The pass that a use asks for a trampoline: it is empty again once the table has been renewed. -/
def Use.pass (use : Use) (f : DynamicFunction) : Lowering.Pass :=
  if use.renews f then .empty f.name else f.pass

namespace DynamicFunction

/-- Requests for trampolines along the uses since the table was last renewed, after those in `earlier`. -/
def requests (f : DynamicFunction) (earlier : List Lowering.Request) : List Use → List Lowering.Request
  | [] => earlier
  | use :: uses => (use.outcome f).function.requests
      ((if use.renews f then [] else earlier) ++
        (use.launch? f).toList.map (Launch.request (use.outcome f).function.table.signature)) uses

variable {f g : DynamicFunction} {engine : Engine} {use : Use} {l : Launch}

/-- In the machine `s` the loop has run through what the pass `p` gives, and `p` gives what would be made anew
for the elements of the operands from the first entry with the key, in the settings of the table. -/
structure Recalled (s : Machine) (p : Lowering.Pass) (l : Launch) : Prop where
  first : s.function.registry.entries.find? (fun entry => entry.key == l.loop.key) = some l.loop
  trampoline : (s.function.table.memoized p l).1 =
    .of (Loop.elementSignature s.function.table.signature (l.memory.dtypes l.operands)) l.loop.artifact
      s.function.table.writable s.function.table.options.boundsCheck
  pass : s.function.pass = (s.function.table.memoized p l).2
  memory : s.memory = ((Loop.runAll s.function.table.signature l.plan l.operands s.function.table.writable
    (s.function.table.memoized p l).1.call s.function.table.options.parallel).run l.memory).2

theorem chosen?_running (s : Machine) (operands : List Value) (loop : Option Specialization)
    (operation : Operation) (m : Memory) :
    operation.chosen? (s.running operands loop).function m = operation.chosen? s.function m := by
  cases loop with
  | none => rfl
  | some loop =>
    cases operation with
    | call => rfl
    | callTable => rfl
    | typeCall => rfl
    | lowerCall => rfl
    | add => rfl
    | buildTable => rfl
    | disableCompile => rfl

theorem Course.pass_eq (h : Course use f g engine) : use.pass f = g.pass := by
  unfold Use.pass
  cases h.settles with
  | kept renews _ pass _ => rw [renews, if_neg Bool.false_ne_true, pass]
  | renewed renews _ pass => rw [renews, if_pos rfl, pass]

theorem Course.launch?_eq (h : Course use f g engine) : use.launch? f =
    (use.operation.chosen? g use.memory).bind fun loop =>
      (g.table.launch use.memory use.operation.operands loop).toOption := by
  unfold Use.launch?
  rw [h.outcome, chosen?_running, running_table]

/-- What is chosen is the first entry with its key. -/
theorem Coherent.find?_of_chosen (h : g.Coherent) {operation : Operation} {m : Memory}
    {loop : Specialization} (hchosen : operation.chosen? g m = some loop) :
    g.registry.find? loop.key = some loop := by
  have htable {operands : List Value} (hchosen : g.table.chosen? m operands = some loop) :
      g.registry.find? loop.key = some loop := by
    unfold LoopTable.chosen? at hchosen
    split at hchosen
    · exact h.find?_of_select hchosen
    · cases hchosen
  cases operation with
  | call args out =>
    dsimp only [Operation.chosen?] at hchosen
    split at hchosen
    · exact htable hchosen
    · cases hchosen
  | callTable args out => exact htable hchosen
  | lowerCall args => exact h.sound.find?_of_specialization hchosen
  | typeCall => cases hchosen
  | add => cases hchosen
  | buildTable => cases hchosen
  | disableCompile => cases hchosen

/-- A loop that is run makes its one request. -/
theorem Course.of_launch (h : Course use f g engine) (hl : use.launch? f = some l) :
    g.registry.find? l.loop.key = some l.loop ∧ use.outcome f =
      ⟨{ g with pass := (g.table.memoized g.pass l).2 }, engine,
        ((Loop.runAll g.table.signature l.plan l.operands g.table.writable
          (g.table.memoized g.pass l).1.call g.table.options.parallel).run l.memory).2⟩ := by
  rw [h.launch?_eq, Option.bind_eq_some_iff] at hl
  obtain ⟨loop, hchosen, hlaunch⟩ := hl
  have houtcome := h.outcome
  rw [hchosen] at houtcome
  rcases hmade : g.table.launch use.memory use.operation.operands loop with e | l'
  case error =>
    rw [hmade] at hlaunch
    cases hlaunch
  case ok =>
    rw [hmade] at hlaunch
    cases hlaunch
    obtain ⟨rfl, hran⟩ := LoopTable.executeWith_of_ok (x := ⟨g.pass, use.memory⟩) hmade
    refine ⟨h.coherent.find?_of_chosen hchosen, ?_⟩
    rw [houtcome, Machine.running, Step.onTable_run]
    dsimp only
    rw [hran]

/-- Where no loop is run the pass stays as it is. -/
theorem Course.pass_of_none (h : Course use f g engine) (hl : use.launch? f = none) :
    (use.outcome f).function.pass = g.pass := by
  rw [h.launch?_eq, Option.bind_eq_none_iff] at hl
  rw [h.outcome]
  rcases hchosen : use.operation.chosen? g use.memory with _ | loop
  case none => rfl
  case some =>
    have hlaunch := hl loop hchosen
    rcases hmade : g.table.launch use.memory use.operation.operands loop with e | l
    · exact LoopTable.executeWith_of_error (x := ⟨g.pass, use.memory⟩) hmade
    · rw [hmade] at hlaunch
      cases hlaunch

theorem Course.recalled (h : Course use f g engine) (hl : use.launch? f = some l) :
    Recalled (use.outcome f) (use.pass f) l := by
  obtain ⟨hfirst, houtcome⟩ := h.of_launch hl
  have hg := h.coherent
  have hmem : l.loop ∈ g.registry.entries := by
    have hfound := hfirst
    rw [hg.sound.registry.find?_eq] at hfound
    exact List.mem_of_find?_eq_some hfound
  have hlength := (hg.sound.registry.valid l.loop hmem).length_key
  rw [houtcome, h.pass_eq]
  constructor
  case first => rwa [hg.sound.registry.find?_all hlength] at hfirst
  case trampoline => exact (hg.pass.trampoline hfirst _).1
  case pass => rfl
  case memory => rfl

/-- The pass comes to list one more request if a loop is run, and is empty again if the table is renewed. -/
theorem Course.lists (h : Course use f g engine) {earlier : List Lowering.Request}
    (hlists : f.pass.Lists earlier) : (use.outcome f).function.pass.Lists
      ((if use.renews f then [] else earlier) ++
        (use.launch? f).toList.map (Launch.request (use.outcome f).function.table.signature)) := by
  have hsettled : g.pass.Lists (if use.renews f then [] else earlier) := by
    rw [← h.pass_eq]
    unfold Use.pass
    split
    · exact Lowering.Pass.lists_nil rfl
    · exact hlists
  rcases hl : use.launch? f with _ | l
  case none =>
    rw [h.pass_of_none hl]
    simpa using hsettled
  case some =>
    rw [(h.of_launch hl).2]
    exact hsettled.trampoline _ _ _ _

theorem Coherent.lists_after (h : f.Coherent) {earlier : List Lowering.Request}
    (hlists : f.pass.Lists earlier) (uses : List Use) :
    (f.after uses).pass.Lists (f.requests earlier uses) := by
  induction uses generalizing f earlier with
  | nil => exact hlists
  | cons use uses ih =>
    obtain ⟨g, engine, hcourse⟩ := h.course use
    exact ih (h.outcome use) (hcourse.lists hlists)

end DynamicFunction

/-- Whatever has been asked of a function, the loop of the next use runs through the trampoline that would be
made for it anew, and its pass has as many trampolines as there were different requests since its table was
renewed last. -/
theorem Made.trampolines_recalled {f : DynamicFunction} (h : Made f) (uses : List Use) :
    (∀ (use : Use) l, use.launch? (f.after uses) = some l →
      DynamicFunction.Recalled (use.outcome (f.after uses)) (use.pass (f.after uses)) l) ∧
    (f.after uses).pass.size = (f.requests [] uses).dedup.length := by
  obtain ⟨hf, -, hempty⟩ := h.settled
  constructor
  case left =>
    intro use l hl
    obtain ⟨g, engine, hcourse⟩ := (hf.after uses).1.course use
    exact hcourse.recalled hl
  case right =>
    apply Lowering.Pass.Lists.size_eq
    exact hf.lists_after (Lowering.Pass.lists_nil hempty) uses

/-- Two rows of 64-bit integers. -/
def twoRows : Memory :=
  .holding [⟨.int64, [2], [.int64 1, .int64 2]⟩, ⟨.int64, [2], [.int64 3, .int64 4]⟩]

/-- Two entries with one key, a table of both, and a call and a typed call site for which one of them runs. -/
def rowUses : List Use :=
  [⟨.add (.void [.anyArray .int64 1, .anyArray .int64 1]), .fresh, .empty⟩,
    ⟨.add (.void [.array .int64 1 .c, .array .int64 1 .c]), .fresh, .empty⟩,
    ⟨.buildTable, .fresh, .empty⟩, ⟨.call [.array 0] (some (.array 1)), .fresh, twoRows⟩,
    ⟨.lowerCall [.array 0], .fresh, twoRows⟩]

/-- The two requests are one, the trampoline for it is kept, and the next call runs through it as if it were
new. -/
theorem Made.trampolines_recalled_openCopy :
    (openCopy.after rowUses).registry.entries.length = 2 ∧
    (openCopy.requests [] rowUses).length = 2 ∧ (openCopy.after rowUses).pass.size = 1 ∧
    ∃ l, Use.launch? ⟨.call [.array 0, .array 1] none, .fresh, twoRows⟩ (openCopy.after rowUses) = some l ∧
      DynamicFunction.Recalled
        (Use.outcome ⟨.call [.array 0, .array 1] none, .fresh, twoRows⟩ (openCopy.after rowUses))
        (Use.pass ⟨.call [.array 0, .array 1] none, .fresh, twoRows⟩ (openCopy.after rowUses)) l := by
  have hdistinct : (openCopy.requests [] rowUses).dedup.length = 1 := by decide +kernel
  have hlaunched : (Use.launch? ⟨.call [.array 0, .array 1] none, .fresh, twoRows⟩
      (openCopy.after rowUses)).isSome = true := by
    decide +kernel
  obtain ⟨hrecalled, hsize⟩ := Made.trampolines_recalled (.built ..) (f := openCopy) rowUses
  obtain ⟨l, hl⟩ := Option.isSome_iff_exists.1 hlaunched
  exact ⟨by decide +kernel, by decide +kernel, hsize.trans hdistinct, l, hl, hrecalled _ l hl⟩

end Corewise
