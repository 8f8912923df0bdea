import Corewise.Proofs.Loop.Team
/-!
Loops with what they hand to the kernel. A trace goes through the turns of the iterations and lists the
elements of each invocation, in the order of the invocations. Running the iterations in a row and running
them at the same time both have traces, and along any trace of a loop that was ready the elements have been
copied from memories on the way, and an iteration fails only when the kernel fails on what it was handed.
-/

namespace Corewise.Loop

/-- An iteration with the elements that it hands to the kernel. -/
abbrev Handover := Nat × List Contents

/-- What the next step hands to the kernel. -/
def Task.handover : Task → List Handover
  | .reading flat elements [] => [(flat, elements)]
  | _ => []

/-- What iterations come to that have not begun in the memory `m`, with what they have handed to the kernel
on the way. -/
inductive Traced (signature : CoreSignature) (plan : Plan) (operands : List Value) (writable : List Bool)
    (callee : Callee) (m : Memory) (order : List Nat) : Memory × List Task → List Handover → Prop
  | start : Traced signature plan operands writable callee m order (m, order.map .waiting) []
  | turn {before after : List Task} {m₁ m₂ : Memory} {task task' : Task} {calls : List Handover}
      (earlier : Traced signature plan operands writable callee m order
        (m₁, before ++ task :: after) calls)
      (step : Task.Step signature plan operands writable callee (m₁, task) (m₂, task')) :
      Traced signature plan operands writable callee m order (m₂, before ++ task' :: after)
        (calls ++ task.handover)

variable {signature : CoreSignature} {plan : Plan} {operands : List Value} {writable : List Bool}
  {callee : Callee} {m m₁ : Memory} {order : List Nat} {s : Memory × List Task} {calls : List Handover}
  {before after tasks : List Task} {flat : Nat}

theorem Interleaves.traced
    (h : Interleaves signature plan operands writable callee (m, order.map .waiting) s) :
    ∃ calls, Traced signature plan operands writable callee m order s calls := by
  induction h with
  | refl => exact ⟨[], .start⟩
  | tail _ last ih =>
    obtain ⟨calls, hcalls⟩ := ih
    cases last with
    | take before after step => exact ⟨_, hcalls.turn step⟩

theorem Traced.interleaves (h : Traced signature plan operands writable callee m order s calls) :
    Interleaves signature plan operands writable callee (m, order.map .waiting) s := by
  induction h with
  | start => exact .refl
  | turn _ step ih => exact ih.tail (.take _ _ step)

theorem Traced.grows (h : Traced signature plan operands writable callee m order s calls) :
    m.Grows s.1 := h.interleaves.grows

/-- Only a step that calls the kernel notes anything. -/
theorem Task.Step.invocations {s s' : Memory × Task}
    (h : Step signature plan operands writable callee s s') :
    s'.1.invocations =
      s.1.invocations ++ s.2.handover.flatMap fun c => (outcome callee c.2).noted := by
  cases h with
  | start => exact (List.append_nil _).symm
  | read => exact (List.append_nil _).symm
  | unreadable => exact (List.append_nil _).symm
  | work => exact congrArg _ (List.append_nil _).symm
  | raise => exact congrArg _ (List.append_nil _).symm
  | @putBack m m' t rest done =>
    have hkept := put_invocations t.1.2 t.1.1 t.2 m
    rw [done] at hkept
    exact hkept.trans (List.append_nil _).symm
  | @refuse m m' t rest e refused =>
    have hkept := put_invocations t.1.2 t.1.1 t.2 m
    rw [refused] at hkept
    exact hkept.trans (List.append_nil _).symm

/-- What has been noted is what the invocations note, one after the other. -/
theorem Traced.invocations (h : Traced signature plan operands writable callee m order s calls) :
    s.1.invocations = m.invocations ++ calls.flatMap fun c => (outcome callee c.2).noted := by
  induction h with
  | start => exact (List.append_nil _).symm
  | turn _ step ih =>
    rw [List.flatMap_append, ← List.append_assoc, ← ih]
    exact step.invocations

/-! The numbers of the iterations. -/

/-- Where the iteration with this number is when the ones in `flats` have called the kernel. -/
def Task.Numbered (flats : List Nat) (flat : Nat) : Task → Prop
  | .waiting k => k = flat ∧ flat ∉ flats
  | .reading k _ _ => k = flat ∧ flat ∉ flats
  | .returning _ => flat ∈ flats
  | .failed _ => True

/-- Calls of other iterations make no difference to an iteration. -/
theorem Task.Numbered.append {flats more : List Nat} {task : Task} (h : task.Numbered flats flat)
    (hmore : flat ∉ more) : task.Numbered (flats ++ more) flat := by
  cases task with
  | waiting => exact ⟨h.1, fun hmem => (List.mem_append.1 hmem).elim h.2 hmore⟩
  | reading => exact ⟨h.1, fun hmem => (List.mem_append.1 hmem).elim h.2 hmore⟩
  | returning => exact List.mem_append_left _ h
  | failed => trivial

/-- Each iteration calls the kernel once at most. -/
structure Counted (order : List Nat) (tasks : List Task) (calls : List Handover) : Prop where
  length_eq : tasks.length = order.length
  numbered : ∀ (i : Nat) flat task, order[i]? = some flat → tasks[i]? = some task →
    task.Numbered (calls.map Prod.fst) flat
  nodup : (calls.map Prod.fst).Nodup
  mem : ∀ c ∈ calls, c.1 ∈ order

theorem Counted.exists_number {task : Task} (h : Counted order (before ++ task :: after) calls) :
    ∃ flat, order[before.length]? = some flat ∧ task.Numbered (calls.map Prod.fst) flat := by
  have hlt : before.length < order.length := by
    rw [← h.length_eq, List.length_append, List.length_cons]
    omega
  have hflat := List.getElem?_eq_getElem hlt
  exact ⟨_, hflat, h.numbered _ _ _ hflat (getElem?_middle before after task)⟩

/-- A step keeps the number of its iteration, and calls the kernel for no other one. -/
theorem Task.Numbered.step {flats : List Nat} {s s' : Memory × Task} (h : s.2.Numbered flats flat)
    (hstep : Task.Step signature plan operands writable callee s s') :
    s'.2.Numbered (flats ++ s.2.handover.map Prod.fst) flat ∧
      (s.2.handover.map Prod.fst = [] ∨ s.2.handover.map Prod.fst = [flat] ∧ flat ∉ flats) := by
  cases hstep with
  | start => exact ⟨h.append List.not_mem_nil, .inl rfl⟩
  | read => exact ⟨h.append List.not_mem_nil, .inl rfl⟩
  | unreadable => exact ⟨trivial, .inl rfl⟩
  | work =>
    obtain ⟨rfl, hnew⟩ := h
    exact ⟨List.mem_append_right _ List.mem_cons_self, .inr ⟨rfl, hnew⟩⟩
  | raise =>
    obtain ⟨rfl, hnew⟩ := h
    exact ⟨trivial, .inr ⟨rfl, hnew⟩⟩
  | putBack => exact ⟨h.append List.not_mem_nil, .inl rfl⟩
  | refuse => exact ⟨trivial, .inl rfl⟩

theorem Counted.turn {m₂ : Memory} {task task' : Task} (h : Counted order (before ++ task :: after) calls)
    (hnodup : order.Nodup)
    (hstep : Task.Step signature plan operands writable callee (m₁, task) (m₂, task')) :
    Counted order (before ++ task' :: after) (calls ++ task.handover) := by
  obtain ⟨flat, hflat, htask⟩ := h.exists_number
  obtain ⟨htask', hhandover⟩ := htask.step hstep
  have hflats : ∀ k ∈ task.handover.map Prod.fst, k = flat ∧ flat ∉ calls.map Prod.fst := by
    rcases hhandover with hnone | ⟨hone, hnew⟩
    · rw [hnone]
      exact List.forall_mem_nil _
    · rw [hone]
      exact List.forall_mem_singleton.2 ⟨rfl, hnew⟩
  refine ⟨?_, fun i flat' other hflat' hother => ?_, ?_, fun c hc => ?_⟩
  case refine_1 =>
    rw [← h.length_eq, List.length_append, List.length_append]
    rfl
  case refine_2 =>
    rw [List.map_append]
    rcases cases_of_getElem?_middle task hother with ⟨rfl, rfl⟩ | ⟨hne, hsame⟩
    · cases hflat.symm.trans hflat'
      exact htask'
    · refine (h.numbered i flat' other hflat' hsame).append fun hmem => ?_
      rw [(hflats flat' hmem).1] at hflat'
      exact hne (eq_of_getElem?_of_nodup hnodup hflat' hflat)
  case refine_3 =>
    rw [List.map_append]
    rcases hhandover with hnone | ⟨hone, -⟩
    · rw [hnone, List.append_nil]
      exact h.nodup
    · rw [hone] at hflats ⊢
      have hsingle : [flat].Nodup := List.nodup_cons.2 ⟨List.not_mem_nil, List.nodup_nil⟩
      refine List.nodup_append.2 ⟨h.nodup, hsingle, fun k hk k' hk' heq => ?_⟩
      obtain ⟨rfl, hnew⟩ := hflats k' hk'
      exact hnew (heq ▸ hk)
  case refine_4 =>
    rcases List.mem_append.1 hc with hc | hc
    · exact h.mem c hc
    · rw [(hflats c.1 (List.mem_map_of_mem hc)).1]
      exact List.mem_of_getElem? hflat

theorem Traced.counted (h : Traced signature plan operands writable callee m order s calls)
    (hnodup : order.Nodup) : Counted order s.2 calls := by
  induction h with
  | start =>
    refine ⟨List.length_map _, fun i flat task hflat htask => ?_, List.nodup_nil, List.forall_mem_nil _⟩
    rw [List.getElem?_map, hflat] at htask
    cases htask
    exact ⟨rfl, List.not_mem_nil⟩
  | turn _ step ih => exact ih.turn hnodup step

/-- When all iterations have come to their ends, each has called the kernel once. -/
theorem Counted.perm (h : Counted order tasks calls) (hnodup : order.Nodup)
    (hended : Ended (.ok ()) tasks) : (calls.map Prod.fst).Perm order := by
  rw [List.perm_ext_iff_of_nodup h.nodup hnodup]
  intro flat
  constructor
  case mp =>
    intro hmem
    obtain ⟨c, hc, rfl⟩ := List.mem_map.1 hmem
    exact h.mem c hc
  case mpr =>
    intro hmem
    obtain ⟨i, hi⟩ := List.getElem?_of_mem hmem
    have hlt : i < tasks.length := h.length_eq ▸ (List.getElem?_eq_some_iff.1 hi).1
    have htask := List.getElem?_eq_getElem hlt
    cases hended with
    | completed returned =>
      rw [returned _ (List.getElem_mem hlt)] at htask
      exact h.numbered i flat _ hi htask

/-! What is handed over. -/

/-- What an iteration has still to do agrees with what has been handed to the kernel so far, and elements
come from these memories. -/
inductive Task.Consistent (signature : CoreSignature) (plan : Plan) (operands : List Value)
    (writable : List Bool) (callee : Callee) (memories : Memory → Prop) (calls : List Handover) :
    Task → Prop
  | waiting {flat : Nat} (lt : flat < plan.iterations) :
      Consistent signature plan operands writable callee memories calls (.waiting flat)
  | reading {flat : Nat} {done rest : List (Value × Access)} {elements : List Contents}
      (lt : flat < plan.iterations)
      (split : addressed signature plan operands writable flat = done ++ rest)
      (copied : List.Forall₂ (fun p e => ∃ m, memories m ∧ e = elementOf m p) done elements) :
      Consistent signature plan operands writable callee memories calls (.reading flat elements rest)
  | returning {c : Handover} {rest : List Return} (mem : c ∈ calls)
      (succeeded : (outcome callee c.2).result = .ok ())
      (suffix : rest <:+ (addressed signature plan operands writable c.1).zip (outcome callee c.2).after) :
      Consistent signature plan operands writable callee memories calls (.returning rest)
  | failed {c : Handover} {e : Error} (mem : c ∈ calls)
      (raised : (outcome callee c.2).result = .error e) :
      Consistent signature plan operands writable callee memories calls (.failed e)

structure Consistent (signature : CoreSignature) (plan : Plan) (operands : List Value)
    (writable : List Bool) (callee : Callee) (memories : Memory → Prop) (tasks : List Task)
    (calls : List Handover) : Prop where
  task : ∀ task ∈ tasks,
    task.Consistent signature plan operands writable callee memories calls
  lt : ∀ c ∈ calls, c.1 < plan.iterations
  copied : ∀ c ∈ calls, Copied signature plan operands writable memories c.1 c.2

variable {memories : Memory → Prop}

theorem Task.Consistent.append {task : Task}
    (h : task.Consistent signature plan operands writable callee memories calls) (more : List Handover) :
    task.Consistent signature plan operands writable callee memories (calls ++ more) := by
  cases h with
  | waiting lt => exact .waiting lt
  | reading lt split copied => exact .reading lt split copied
  | returning mem succeeded suffix => exact .returning (List.mem_append_left _ mem) succeeded suffix
  | failed mem raised => exact .failed (List.mem_append_left _ mem) raised

/-- A step of an iteration that is consistent, in a memory that the loop was ready to reach. Neither copying
an element nor putting one back can fail. -/
theorem Task.Consistent.step (h : Ready signature plan operands m) (hcallee : callee.KeepsShapes)
    (hgrows : ∀ m₁, memories m₁ → m.Grows m₁)
    (hcopied : ∀ c ∈ calls, Copied signature plan operands writable memories c.1 c.2)
    (hlt : ∀ c ∈ calls, c.1 < plan.iterations) {s s' : Memory × Task} (hs : memories s.1)
    (htask : s.2.Consistent signature plan operands writable callee memories calls)
    (hstep : Task.Step signature plan operands writable callee s s') :
    s'.2.Consistent signature plan operands writable callee memories (calls ++ s.2.handover) ∧
      ∀ c ∈ s.2.handover,
        c.1 < plan.iterations ∧ Copied signature plan operands writable memories c.1 c.2 := by
  have hready := h.grows (hgrows _ hs)
  cases hstep with
  | start m flat =>
    cases htask with
    | waiting lt => exact ⟨.reading lt rfl .nil, List.forall_mem_nil _⟩
  | @read m flat elements p rest e copied =>
    cases htask with
    | @reading _ done _ _ lt split hdone =>
      cases copied.symm.trans (hready.element_of_split lt split)
      have hsplit := split.trans (List.append_cons done p rest)
      exact ⟨.reading lt hsplit (List.rel_append hdone (.cons ⟨m, hs, rfl⟩ .nil)),
        List.forall_mem_nil _⟩
  | @unreadable m flat elements p rest e refused =>
    cases htask with
    | @reading _ done _ _ lt split hdone =>
      cases refused.symm.trans (hready.element_of_split lt split)
  | @work m flat elements done =>
    cases htask with
    | reading lt split copied =>
      rw [List.append_nil] at split
      have hnew : Copied signature plan operands writable memories flat elements := by rwa [Copied, split]
      exact ⟨.returning (List.mem_append_right _ List.mem_cons_self) done (List.suffix_refl _),
        List.forall_mem_singleton.2 ⟨lt, hnew⟩⟩
  | @raise m flat elements e raised =>
    cases htask with
    | reading lt split copied =>
      rw [List.append_nil] at split
      have hnew : Copied signature plan operands writable memories flat elements := by rwa [Copied, split]
      exact ⟨.failed (List.mem_append_right _ List.mem_cons_self) raised,
        List.forall_mem_singleton.2 ⟨lt, hnew⟩⟩
  | putBack done =>
    cases htask with
    | returning mem succeeded suffix =>
      exact ⟨.returning (List.mem_append_left _ mem) succeeded ((List.suffix_cons _ _).trans suffix),
        List.forall_mem_nil _⟩
  | @refuse m m' t rest e refused =>
    cases htask with
    | returning mem succeeded suffix =>
      obtain ⟨_, hput⟩ := ((hcopied _ mem).mono hgrows).put_ok h hcallee (hlt _ mem)
        (suffix.subset List.mem_cons_self) (hgrows _ hs)
      cases refused.symm.trans hput

theorem Consistent.turn (h : Ready signature plan operands m) (hcallee : callee.KeepsShapes)
    (hgrows : ∀ m₁, memories m₁ → m.Grows m₁) {m₂ : Memory} {task task' : Task} (hm : memories m₁)
    (hc : Consistent signature plan operands writable callee memories (before ++ task :: after) calls)
    (hstep : Task.Step signature plan operands writable callee (m₁, task) (m₂, task')) :
    Consistent signature plan operands writable callee memories (before ++ task' :: after)
      (calls ++ task.handover) := by
  obtain ⟨htasks, hlt, hcopied⟩ := hc
  obtain ⟨hbefore, htask, hafter⟩ := forall_mem_turn.1 htasks
  obtain ⟨htask', hhanded⟩ := htask.step h hcallee hgrows hcopied hlt hm hstep
  constructor
  case task =>
    exact forall_mem_turn.2 ⟨fun other hmem => (hbefore other hmem).append _, htask',
      fun other hmem => (hafter other hmem).append _⟩
  case lt => exact List.forall_mem_append.2 ⟨hlt, fun c hc => (hhanded c hc).1⟩
  case copied => exact List.forall_mem_append.2 ⟨hcopied, fun c hc => (hhanded c hc).2⟩

theorem consistent_waiting (horder : ∀ flat ∈ order, flat < plan.iterations) :
    Consistent signature plan operands writable callee memories (order.map .waiting) [] := by
  constructor
  case task =>
    intro task htask
    obtain ⟨flat, hflat, rfl⟩ := List.mem_map.1 htask
    exact .waiting (horder flat hflat)
  case lt => exact List.forall_mem_nil _
  case copied => exact List.forall_mem_nil _

/-- What holds of all memories along the traces of a loop holds of those that elements are copied from. -/
theorem Traced.consistent (ht : Traced signature plan operands writable callee m order s calls)
    (h : Ready signature plan operands m) (hcallee : callee.KeepsShapes)
    (horder : ∀ flat ∈ order, flat < plan.iterations) (hgrows : ∀ m₁, memories m₁ → m.Grows m₁)
    (hmemories : ∀ s calls, Traced signature plan operands writable callee m order s calls →
      memories s.1) : Consistent signature plan operands writable callee memories s.2 calls := by
  induction ht with
  | start => exact consistent_waiting horder
  | turn earlier step ih => exact ih.turn h hcallee hgrows (hmemories _ _ earlier) step

theorem Consistent.exists_raised
    (h : Consistent signature plan operands writable callee memories tasks calls) {e : Error}
    (he : .failed e ∈ tasks) : ∃ c ∈ calls, (outcome callee c.2).result = .error e := by
  cases h.task _ he with
  | failed mem raised => exact ⟨_, mem, raised⟩

/-! Iterations in a row. -/

/-- A step that does not call the kernel. -/
theorem Traced.quiet {m₂ : Memory} {task task' : Task}
    (h : Traced signature plan operands writable callee m order (m₁, before ++ task :: after) calls)
    (hquiet : task.handover = [])
    (hstep : Task.Step signature plan operands writable callee (m₁, task) (m₂, task')) :
    Traced signature plan operands writable callee m order (m₂, before ++ task' :: after) calls := by
  have hnext := h.turn hstep
  rwa [hquiet, List.append_nil] at hnext

/-- How an iteration ends that comes to this. -/
def Task.ended : Except Error Unit → Task
  | .ok _ => .returning []
  | .error e => .failed e

section

variable {rest : List (Value × Access)} {elements : List Contents}

theorem Traced.read {copied : List Contents} (h : Traced signature plan operands writable callee m order
      (m₁, before ++ .reading flat elements rest :: after) calls)
    (hread : (rest.mapM fun p => element m₁ p.2 p.1) = .ok copied) :
    Traced signature plan operands writable callee m order
      (m₁, before ++ .reading flat (elements ++ copied) [] :: after) calls := by
  induction rest generalizing elements copied with
  | nil =>
    rw [List.mapM_nil] at hread
    cases hread
    rwa [List.append_nil]
  | cons p rest ih =>
    rw [List.mapM_cons, Effect.bind_eq_ok] at hread
    obtain ⟨e, he, hread⟩ := hread
    obtain ⟨copied, hcopied, hread⟩ := Effect.bind_eq_ok.1 hread
    cases hread
    have hlast := ih (h.quiet rfl (.read he)) hcopied
    rwa [List.append_assoc] at hlast

theorem Traced.unreadable {e : Error} (h : Traced signature plan operands writable callee m order
      (m₁, before ++ .reading flat elements rest :: after) calls)
    (hread : (rest.mapM fun p => element m₁ p.2 p.1) = .error e) :
    Traced signature plan operands writable callee m order (m₁, before ++ .failed e :: after) calls := by
  induction rest generalizing elements with
  | nil => cases hread
  | cons p rest ih =>
    rw [List.mapM_cons, Effect.bind_eq_error] at hread
    rcases hread with he | ⟨e', he', hread⟩
    · exact h.quiet rfl (.unreadable he)
    · rcases Effect.bind_eq_error.1 hread with hrest | ⟨copied, -, hread⟩
      · exact ih (h.quiet rfl (.read he')) hrest
      · cases hread

end

theorem Traced.putBack {returns : List Return} (h : Traced signature plan operands writable callee m order
      (m₁, before ++ .returning returns :: after) calls) :
    Traced signature plan operands writable callee m order
      (((returns.forM fun t => put t.1.2 t.1.1 t.2).run m₁).2,
        before ++ .ended ((returns.forM fun t => put t.1.2 t.1.1 t.2).run m₁).1 :: after) calls := by
  induction returns generalizing m₁ with
  | nil => exact h
  | cons t returns ih =>
    rcases hput : (put t.1.2 t.1.1 t.2).run m₁ with ⟨e | ⟨⟩, m₂⟩
    case error =>
      have hrun : ((t :: returns).forM fun t => put t.1.2 t.1.1 t.2).run m₁ = (.error e, m₂) :=
        Effect.run_bind_of_error hput
      rw [hrun]
      exact h.quiet rfl (.refuse hput)
    case ok =>
      have hrun : ((t :: returns).forM fun t => put t.1.2 t.1.1 t.2).run m₁ =
          (returns.forM fun t => put t.1.2 t.1.1 t.2).run m₂ := Effect.run_bind_of_ok hput
      rw [hrun]
      exact ih (h.quiet rfl (.putBack hput))

/-- An iteration takes all its steps while no other one does anything. -/
theorem Traced.iterate (h : Traced signature plan operands writable callee m order
      (m₁, before ++ .waiting flat :: after) calls) :
    ∃ more, Traced signature plan operands writable callee m order
        (((iterate signature plan operands writable callee flat).run m₁).2,
          before ++ .ended ((iterate signature plan operands writable callee flat).run m₁).1 :: after)
        (calls ++ more) ∧
      (((iterate signature plan operands writable callee flat).run m₁).1 = .ok () →
        more.map Prod.fst = [flat]) := by
  have hbegun := h.quiet rfl (.start m₁ flat)
  rcases helements : (addressed signature plan operands writable flat).mapM fun p => element m₁ p.2 p.1
    with e | elements
  case error =>
    rw [iterate_of_unreadable helements]
    refine ⟨[], ?_, nofun⟩
    rw [List.append_nil]
    exact hbegun.unreadable helements
  case ok =>
    have hread := hbegun.read helements
    rw [List.nil_append] at hread
    refine ⟨[(flat, elements)], ?_, fun _ => rfl⟩
    have hrun := @iterate_run signature plan operands writable m₁ flat callee _ helements
    rcases hresult : (outcome callee elements).result with e | ⟨⟩
    case error =>
      rw [hresult, Action.run_ofExcept_error] at hrun
      rw [hrun]
      exact hread.turn (.raise hresult)
    case ok =>
      rw [hresult, Action.run_ofExcept_ok] at hrun
      rw [hrun]
      exact (hread.turn (.work hresult)).putBack

/-- Iterations in a row, after some that have ended. -/
theorem Traced.runOrder {ks : List Nat} (h : Traced signature plan operands writable callee m order
      (m₁, before ++ ks.map .waiting) calls) (hbefore : ∀ task ∈ before, task = .returning []) :
    ∃ tasks more, Traced signature plan operands writable callee m order
        (((runOrder signature plan operands writable callee ks).run m₁).2, tasks) (calls ++ more) ∧
      Ended ((runOrder signature plan operands writable callee ks).run m₁).1 tasks ∧
      (((runOrder signature plan operands writable callee ks).run m₁).1 = .ok () →
        more.map Prod.fst = ks) := by
  induction ks generalizing m₁ before calls with
  | nil =>
    refine ⟨before, [], ?_, .completed hbefore, fun _ => rfl⟩
    rw [List.append_nil]
    rwa [List.map_nil, List.append_nil] at h
  | cons k ks ih =>
    obtain ⟨more, hiterate, hflats⟩ := Traced.iterate h
    rcases hrun : (Loop.iterate signature plan operands writable callee k).run m₁ with ⟨e | ⟨⟩, m₂⟩
    case error =>
      have hstopped : (Loop.runOrder signature plan operands writable callee (k :: ks)).run m₁ =
          (.error e, m₂) := Effect.run_bind_of_error hrun
      rw [hrun] at hiterate
      rw [hstopped]
      refine ⟨_, more, hiterate, .stopped (List.mem_append_right _ List.mem_cons_self) ?_, nofun⟩
      intro task htask
      rcases List.mem_append.1 htask with hmem | hmem
      · rw [hbefore task hmem]
        exact .inl .returned
      · rcases List.mem_cons.1 hmem with rfl | hmem
        · exact .inl (.failed e)
        · obtain ⟨flat, -, rfl⟩ := List.mem_map.1 hmem
          exact .inr rfl
    case ok =>
      have hgoes : (Loop.runOrder signature plan operands writable callee (k :: ks)).run m₁ =
          (Loop.runOrder signature plan operands writable callee ks).run m₂ := Effect.run_bind_of_ok hrun
      rw [hrun] at hiterate hflats
      have hnext : Traced signature plan operands writable callee m order
          (m₂, (before ++ [.returning []]) ++ ks.map .waiting) (calls ++ more) := by
        rwa [List.append_assoc]
      obtain ⟨tasks, later, hlater, hended, hrest⟩ := ih hnext fun task hmem =>
        (List.mem_append.1 hmem).elim (hbefore task) List.mem_singleton.1
      rw [hgoes]
      refine ⟨tasks, more ++ later, ?_, hended, fun hok => ?_⟩
      · rwa [← List.append_assoc]
      · rw [List.map_append, hflats rfl, hrest hok]
        rfl

/-- Running iterations in a row is one of the ways in which they may run at the same time. -/
theorem traced_runOrder (order : List Nat) (m : Memory) :
    ∃ tasks calls, Traced signature plan operands writable callee m order
        (((runOrder signature plan operands writable callee order).run m).2, tasks) calls ∧
      Ended ((runOrder signature plan operands writable callee order).run m).1 tasks ∧
      (((runOrder signature plan operands writable callee order).run m).1 = .ok () →
        calls.map Prod.fst = order) := by
  have hstart : Traced signature plan operands writable callee m order
      (m, [] ++ order.map .waiting) [] := .start
  exact hstart.runOrder fun _ htask => absurd htask List.not_mem_nil

theorem iterate_grows (flat : Nat) :
    Effect.Keeps Memory.Grows (iterate signature plan operands writable callee flat) := by
  intro m
  have hstart : Traced signature plan operands writable callee m [flat] (m, [] ++ .waiting flat :: []) [] :=
    .start
  obtain ⟨more, htraced, -⟩ := hstart.iterate
  exact htraced.grows

theorem runAll_sequential : runAll signature plan operands writable callee false =
    run signature plan operands writable callee := by
  rw [runAll, if_neg Bool.false_ne_true]

theorem runAll_parallel : runAll signature plan operands writable callee true =
    runTogether signature plan operands writable callee := by
  rw [runAll, if_pos rfl]

/-- A loop has a trace whichever way it runs its iterations, and calls the kernel in their order if it runs
them in a row. -/
theorem traced_runAll (parallel : Bool) (m : Memory) :
    ∃ tasks calls, Traced signature plan operands writable callee m (List.range plan.iterations)
        (((runAll signature plan operands writable callee parallel).run m).2, tasks) calls ∧
      Ended ((runAll signature plan operands writable callee parallel).run m).1 tasks ∧
      (parallel = false → ((runAll signature plan operands writable callee parallel).run m).1 = .ok () →
        calls.map Prod.fst = List.range plan.iterations) := by
  cases parallel with
  | false =>
    obtain ⟨tasks, calls, htraced, hended, hflats⟩ :=
      @traced_runOrder signature plan operands writable callee (List.range plan.iterations) m
    rw [runAll_sequential, run]
    exact ⟨tasks, calls, htraced, hended, fun _ => hflats⟩
  | true =>
    obtain ⟨tasks, hreached, hended⟩ := @runTogether_ended signature plan operands writable callee m
    rw [runAll_parallel]
    obtain ⟨calls, htraced⟩ := hreached.traced
    exact ⟨tasks, calls, htraced, hended, nofun⟩

theorem runOrder_spares (order : List Nat) (m : Memory) :
    m.Spares (fun r => ¬ Receives signature operands writable r)
      ((runOrder signature plan operands writable callee order).run m).2 := by
  obtain ⟨tasks, calls, htraced, -⟩ := @traced_runOrder signature plan operands writable callee order m
  exact htraced.interleaves.spares_of_waiting

theorem runAll_grows (parallel : Bool) :
    Effect.Keeps Memory.Grows (runAll signature plan operands writable callee parallel) := by
  intro m
  obtain ⟨tasks, calls, htraced, -⟩ := @traced_runAll signature plan operands writable callee parallel m
  exact htraced.grows

end Corewise.Loop
