import Corewise.Proofs.Loop.Interleaving
/-!
What schedules come to. Whatever turns a schedule has, the iterations interleave and come to their ends, and
those that have not begun are left alone only when another one has failed. Conversely each interleaving that
has ended so is what some schedule comes to.
-/

namespace Corewise.Loop

variable {signature : CoreSignature} {plan : Plan} {operands : List Value} {writable : List Bool}
  {callee : Callee}

namespace Task

/-- An iteration that takes no more steps. -/
inductive Done : Task → Prop
  | returned : Done (.returning [])
  | failed (e : Error) : Done (.failed e)

theorem step_of_done {m : Memory} {task : Task} (h : task.Done) :
    step signature plan operands writable callee (m, task) = (m, task) := by
  cases h with
  | returned => rfl
  | failed e => rfl

theorem step_cases (s : Memory × Task) :
    Step signature plan operands writable callee s (step signature plan operands writable callee s) ∨
      s.2.Done := by
  obtain ⟨m, task⟩ := s
  cases task with
  | waiting flat => exact .inl (.start m flat)
  | reading flat elements rest =>
    left
    cases rest with
    | nil =>
      rcases hresult : (outcome callee elements).result with e | ⟨⟩
      · simp only [step, hresult]
        exact .raise hresult
      · simp only [step, hresult]
        exact .work hresult
    | cons p rest =>
      rcases helement : element m p.2 p.1 with e | e
      · simp only [step, helement]
        exact .unreadable helement
      · simp only [step, helement]
        exact .read helement
  | returning rest =>
    cases rest with
    | nil => exact .inr .returned
    | cons t rest =>
      left
      rcases hput : (put t.1.2 t.1.1 t.2).run m with ⟨e | ⟨⟩, m'⟩
      · simp only [step, hput]
        exact .refuse hput
      · simp only [step, hput]
        exact .putBack hput
  | failed e => exact .inr (.failed e)

theorem Step.step_eq {s s' : Memory × Task} (h : Step signature plan operands writable callee s s') :
    step signature plan operands writable callee s = s' := by
  cases h with
  | start => rfl
  | read copied => simp only [step, copied]
  | unreadable refused => simp only [step, refused]
  | work done => simp only [step, done]
  | raise raised => simp only [step, raised]
  | putBack done => simp only [step, done]
  | refuse refused => simp only [step, refused]

theorem steps_of_done (count : Nat) {m : Memory} {task : Task} (h : task.Done) :
    steps signature plan operands writable callee count (m, task) = (m, task) := by
  induction count with
  | zero => rfl
  | succ count ih => rw [steps, step_of_done h, ih]

theorem steps_reach (count : Nat) (s : Memory × Task) :
    Relation.ReflTransGen (Step signature plan operands writable callee) s
      (steps signature plan operands writable callee count s) := by
  induction count generalizing s with
  | zero => exact .refl
  | succ count ih =>
    rcases step_cases s with hstep | hdone
    · exact .head hstep (ih _)
    · obtain ⟨m, task⟩ := s
      rw [steps_of_done _ hdone]

/-- As many steps as may be left. -/
def left (operands : List Value) : Task → Nat
  | .waiting _ => 2 * operands.length + 2
  | .reading _ _ rest => rest.length + operands.length + 1
  | .returning rest => rest.length
  | .failed _ => 0

theorem length_addressed_le (signature : CoreSignature) (plan : Plan) (operands : List Value)
    (writable : List Bool) (flat : Nat) :
    (addressed signature plan operands writable flat).length ≤ operands.length := by
  rw [addressed, List.length_zip]
  exact Nat.min_le_left _ _

theorem Step.left_lt {s s' : Memory × Task} (h : Step signature plan operands writable callee s s') :
    s'.2.left operands < s.2.left operands := by
  cases h with
  | start m flat =>
    have hle := length_addressed_le signature plan operands writable flat
    simp only [left]
    omega
  | read => simp only [left, List.length_cons]; omega
  | unreadable => simp only [left]; omega
  | @work m flat elements =>
    have hle := length_addressed_le signature plan operands writable flat
    simp only [left, List.length_zip, List.length_nil]
    omega
  | raise => simp only [left]; omega
  | putBack => simp only [left, List.length_cons]; omega
  | refuse => simp only [left, List.length_cons]; omega

/-- Enough steps bring an iteration to its end. -/
theorem done_steps {count : Nat} {s : Memory × Task} (h : s.2.left operands ≤ count) :
    (steps signature plan operands writable callee count s).2.Done := by
  induction count generalizing s with
  | zero =>
    rcases @step_cases signature plan operands writable callee s with hstep | hdone
    · have hlt := hstep.left_lt
      omega
    · exact hdone
  | succ count ih =>
    rcases @step_cases signature plan operands writable callee s with hstep | hdone
    · have hlt := hstep.left_lt
      exact ih (by omega)
    · obtain ⟨m, task⟩ := s
      rwa [steps_of_done _ hdone]

end Task

/-! Teams. -/

section

variable {α : Type}

theorem getElem?_middle (before after : List α) (a : α) :
    (before ++ a :: after)[before.length]? = some a := by
  rw [List.getElem?_append_right (Nat.le_refl _), Nat.sub_self]
  rfl

theorem set_middle (before after : List α) (a b : α) :
    (before ++ a :: after).set before.length b = before ++ b :: after := by
  rw [List.set_append_right _ _ (Nat.le_refl _), Nat.sub_self]
  rfl

/-- Only one element differs when one of a list is replaced. -/
theorem cases_of_getElem?_middle {before after : List α} (a : α) {b c : α} {i : Nat}
    (h : (before ++ b :: after)[i]? = some c) :
    i = before.length ∧ c = b ∨ i ≠ before.length ∧ (before ++ a :: after)[i]? = some c := by
  by_cases hi : i = before.length
  case pos =>
    subst hi
    rw [getElem?_middle] at h
    exact .inl ⟨rfl, (Option.some.inj h).symm⟩
  case neg =>
    rw [← set_middle before after a, List.getElem?_set_ne (Ne.symm hi)] at h
    exact .inr ⟨hi, h⟩

theorem eq_of_getElem?_of_nodup {l : List α} (hl : l.Nodup) {i j : Nat} {a : α} (hi : l[i]? = some a)
    (hj : l[j]? = some a) : i = j :=
  (List.getElem?_inj (List.getElem?_eq_some_iff.1 hi).1 hl).1 (hi.trans hj.symm)

end

variable {s s' : Memory × List Task}

theorem turn_eq (count : Nat) {k : Nat} {task : Task} (h : s.2[k]? = some task) :
    turn signature plan operands writable callee count s k =
      ((Task.steps signature plan operands writable callee count (s.1, task)).1,
        s.2.set k (Task.steps signature plan operands writable callee count (s.1, task)).2) := by
  rw [turn, h]

theorem turn_of_none (count : Nat) {k : Nat} (h : s.2[k]? = none) :
    turn signature plan operands writable callee count s k = s := by
  rw [turn, h]

theorem turn_of_done (count : Nat) {k : Nat} {task : Task} (hk : s.2[k]? = some task)
    (h : task.Done) : turn signature plan operands writable callee count s k = s := by
  rw [turn_eq count hk, Task.steps_of_done count h]
  obtain ⟨hlt, rfl⟩ := List.getElem?_eq_some_iff.1 hk
  rw [List.set_getElem_self]

/-- Steps of one iteration are turns of the team, with the others standing by. -/
theorem interleaves_of_steps {k : Nat} {m m' : Memory} {tasks : List Task} {task task' : Task}
    (hk : tasks[k]? = some task)
    (h : Relation.ReflTransGen (Task.Step signature plan operands writable callee) (m, task)
      (m', task')) :
    Interleaves signature plan operands writable callee (m, tasks) (m', tasks.set k task') := by
  obtain ⟨hlt, rfl⟩ := List.getElem?_eq_some_iff.1 hk
  have hturns : Interleaves signature plan operands writable callee
      (m, tasks.take k ++ tasks[k] :: tasks.drop (k + 1))
      (m', tasks.take k ++ task' :: tasks.drop (k + 1)) :=
    h.lift (fun s : Memory × Task => (s.1, tasks.take k ++ s.2 :: tasks.drop (k + 1)))
      fun _ _ hstep => .take (tasks.take k) (tasks.drop (k + 1)) hstep
  rw [List.set_eq_take_append_cons_drop, if_pos hlt]
  rwa [List.getElem_cons_drop, List.take_append_drop] at hturns

theorem turn_interleaves (count : Nat) (s : Memory × List Task) (k : Nat) :
    Interleaves signature plan operands writable callee s
      (turn signature plan operands writable callee count s k) := by
  rcases hk : s.2[k]? with _ | task
  · rw [turn_of_none count hk]
    exact .refl
  · rw [turn_eq count hk]
    exact interleaves_of_steps hk (Task.steps_reach count (s.1, task))

theorem finish_interleaves (s : Memory × List Task) (k : Nat) :
    Interleaves signature plan operands writable callee s
      (finish signature plan operands writable callee s k) := by
  unfold finish
  split
  · exact .refl
  · exact turn_interleaves _ s k

theorem foldl_interleaves {f : Memory × List Task → Nat → Memory × List Task}
    (hf : ∀ s k, Interleaves signature plan operands writable callee s (f s k)) (ks : List Nat)
    (s : Memory × List Task) :
    Interleaves signature plan operands writable callee s (ks.foldl f s) := by
  induction ks generalizing s with
  | nil => exact .refl
  | cons k ks ih => exact (hf s k).trans (ih (f s k))

theorem together_interleaves (turns : List Nat) (m : Memory) :
    Interleaves signature plan operands writable callee
      (m, (List.range plan.iterations).map .waiting)
      (together signature plan operands writable callee turns m) :=
  (foldl_interleaves (turn_interleaves 1) turns _).trans
    (foldl_interleaves finish_interleaves (List.range plan.iterations) _)

/-! The end of a team. -/

/-- No iteration has more steps left than one that has not begun. -/
theorem Interleaves.left_le {bound : Nat}
    (h : Interleaves signature plan operands writable callee s s')
    (hs : ∀ task ∈ s.2, task.left operands ≤ bound) : ∀ task ∈ s'.2, task.left operands ≤ bound := by
  induction h with
  | refl => exact hs
  | tail _ turn ih =>
    cases turn with
    | take before after step =>
      obtain ⟨hbefore, htask, hafter⟩ := forall_mem_turn.1 ih
      have htask' := Nat.le_trans (Nat.le_of_lt step.left_lt) htask
      exact forall_mem_turn.2 ⟨hbefore, htask', hafter⟩

/-- The iteration has come to its end, or has been left alone because another one has failed. -/
def Rests (tasks : List Task) (k : Nat) : Prop :=
  ∀ task, tasks[k]? = some task →
    task.Done ∨ task.isWaiting = true ∧ ∃ e, .failed e ∈ tasks

theorem Task.error?_eq_some {task : Task} {e : Error} : task.error? = some e ↔ task = .failed e := by
  cases task with
  | failed e' => simp [Task.error?]
  | waiting => simp [Task.error?]
  | reading => simp [Task.error?]
  | returning => simp [Task.error?]

theorem exists_failed_iff {tasks : List Task} :
    tasks.any (·.error?.isSome) = true ↔ ∃ e, .failed e ∈ tasks := by
  simp only [List.any_eq_true, Option.isSome_iff_exists, Task.error?_eq_some]
  constructor
  · rintro ⟨task, hmem, e, rfl⟩
    exact ⟨e, hmem⟩
  · rintro ⟨e, hmem⟩
    exact ⟨.failed e, hmem, e, rfl⟩

theorem finish_of_rests {k : Nat} (h : Rests s.2 k) :
    finish signature plan operands writable callee s k = s := by
  unfold finish
  split
  case isTrue => rfl
  case isFalse hgoes =>
    rcases hk : s.2[k]? with _ | task
    · exact turn_of_none _ hk
    · rcases h task hk with hdone | ⟨hwaiting, hfailed⟩
      · exact turn_of_done _ hk hdone
      · exact absurd ⟨by rw [hk]; exact hwaiting, exists_failed_iff.2 hfailed⟩ hgoes

theorem rests_finish {k : Nat} (h : ∀ task ∈ s.2, task.left operands ≤ 2 * operands.length + 2) :
    Rests (finish signature plan operands writable callee s k).2 k := by
  intro task htask
  unfold finish at htask ⊢
  split at htask
  case isTrue hleft =>
    rw [if_pos hleft]
    rw [htask] at hleft
    exact .inr ⟨hleft.1, exists_failed_iff.1 hleft.2⟩
  case isFalse =>
    rcases hk : s.2[k]? with _ | task₀
    · rw [turn_of_none _ hk, hk] at htask
      cases htask
    · rw [turn_eq _ hk, List.getElem?_set_self (List.getElem?_eq_some_iff.1 hk).1] at htask
      cases htask
      exact .inl (Task.done_steps (h task₀ (List.mem_of_getElem? hk)))

theorem Rests.finish {i : Nat} (h : Rests s.2 i) (k : Nat) :
    Rests (finish signature plan operands writable callee s k).2 i := by
  by_cases hik : i = k
  case pos =>
    subst hik
    rwa [finish_of_rests h]
  case neg =>
    have hreached := @finish_interleaves signature plan operands writable callee s k
    intro task htask
    have hsame : s.2[i]? = some task := by
      rw [← htask]
      unfold Loop.finish
      split
      case isTrue => rfl
      case isFalse =>
        rcases hk : s.2[k]? with _ | task₀
        · rw [turn_of_none _ hk]
        · rw [turn_eq _ hk, List.getElem?_set_ne (Ne.symm hik)]
    rcases h task hsame with hdone | ⟨hwaiting, e, hfailed⟩
    · exact .inl hdone
    · exact .inr ⟨hwaiting, e, hreached.failed_mem hfailed⟩

theorem rests_foldl (ks : List Nat) {i : Nat}
    (h : ∀ task ∈ s.2, task.left operands ≤ 2 * operands.length + 2) (hi : i ∈ ks ∨ Rests s.2 i) :
    Rests (ks.foldl (finish signature plan operands writable callee) s).2 i := by
  induction ks generalizing s with
  | nil => exact hi.resolve_left List.not_mem_nil
  | cons k ks ih =>
    apply ih ((finish_interleaves s k).left_le h)
    rcases hi with hi | hi
    · rcases List.mem_cons.1 hi with rfl | hi
      · exact .inr (rests_finish h)
      · exact .inl hi
    · exact .inr (hi.finish k)

theorem length_of_interleaves (h : Interleaves signature plan operands writable callee s s') :
    s'.2.length = s.2.length := by
  induction h with
  | refl => rfl
  | tail _ turn ih =>
    cases turn with
    | take before after step =>
      rw [← ih, List.length_append, List.length_append]
      rfl

theorem rests_together (turns : List Nat) (m : Memory) (i : Nat) :
    Rests (together signature plan operands writable callee turns m).2 i := by
  have hbegun := @foldl_interleaves signature plan operands writable callee _ (turn_interleaves 1)
    turns (m, (List.range plan.iterations).map .waiting)
  rcases Nat.lt_or_ge i plan.iterations with hlt | hge
  case inl =>
    refine rests_foldl _ (hbegun.left_le fun task htask => ?_) (.inl (List.mem_range.2 hlt))
    obtain ⟨flat, -, rfl⟩ := List.mem_map.1 htask
    exact Nat.le_refl _
  case inr =>
    have hlength := length_of_interleaves
      (@together_interleaves signature plan operands writable callee turns m)
    rw [List.length_map, List.length_range] at hlength
    intro task htask
    have hlt := (List.getElem?_eq_some_iff.1 htask).1
    omega

/-- What iterations have come to that do not go on, with what is reported. -/
inductive Ended : Except Error Unit → List Task → Prop
  | completed {tasks : List Task} (returned : ∀ task ∈ tasks, task = .returning []) :
      Ended (.ok ()) tasks
  | stopped {tasks : List Task} {e : Error} (raised : .failed e ∈ tasks)
      (settled : ∀ task ∈ tasks, task.Done ∨ task.isWaiting = true) : Ended (.error e) tasks

theorem mem_filterMap_error? {tasks : List Task} {e : Error} :
    e ∈ tasks.filterMap Task.error? ↔ .failed e ∈ tasks := by
  simp only [List.mem_filterMap, Task.error?_eq_some, exists_eq_right]

theorem ended_report (choice : Nat) {tasks : List Task} (h : ∀ i, Rests tasks i) :
    Ended (report choice tasks) tasks := by
  have hrests (task : Task) (hmem : task ∈ tasks) :
      task.Done ∨ task.isWaiting = true ∧ ∃ e, .failed e ∈ tasks := by
    obtain ⟨i, hi⟩ := List.getElem?_of_mem hmem
    exact h i task hi
  unfold report
  rcases herrors : tasks.filterMap Task.error? with _ | ⟨e, errors⟩
  case nil =>
    have hnone (e : Error) : .failed e ∉ tasks := by
      rw [← mem_filterMap_error?, herrors]
      exact List.not_mem_nil
    refine .completed fun task hmem => ?_
    rcases hrests task hmem with hdone | ⟨-, e, hfailed⟩
    · cases hdone with
      | returned => rfl
      | failed e => exact absurd hmem (hnone e)
    · exact absurd hfailed (hnone e)
  case cons =>
    refine .stopped (mem_filterMap_error?.1 ?_) fun task hmem => (hrests task hmem).imp_right And.left
    rw [herrors, List.getD_eq_getElem?_getD]
    rcases hchoice : (e :: errors)[choice]? with _ | e'
    · exact List.mem_cons_self
    · exact List.mem_of_getElem? hchoice

theorem Ended.rests {result : Except Error Unit} {tasks : List Task} (h : Ended result tasks) (i : Nat) :
    Rests tasks i := by
  intro task htask
  cases h with
  | completed returned =>
    rw [returned task (List.mem_of_getElem? htask)]
    exact .inl .returned
  | stopped raised settled =>
    exact (settled task (List.mem_of_getElem? htask)).imp_right fun hwaiting => ⟨hwaiting, _, raised⟩

theorem Ended.exists_report {result : Except Error Unit} {tasks : List Task} (h : Ended result tasks) :
    ∃ choice, report choice tasks = result := by
  cases h with
  | completed returned =>
    have hnone : tasks.filterMap Task.error? = [] := by
      rw [List.filterMap_eq_nil_iff]
      intro task hmem
      rw [returned task hmem]
      rfl
    exact ⟨0, by rw [report, hnone]⟩
  | @stopped _ e raised _ =>
    obtain ⟨choice, hchoice⟩ := List.getElem?_of_mem (mem_filterMap_error?.2 raised)
    refine ⟨choice, ?_⟩
    unfold report
    rcases herrors : tasks.filterMap Task.error? with _ | ⟨e', errors⟩
    · rw [herrors] at hchoice
      cases hchoice
    · rw [herrors] at hchoice
      show Except.error ((e' :: errors).getD choice e') = _
      rw [List.getD_eq_getElem?_getD, hchoice, Option.getD_some]

/-- Each turn is one that a schedule may have. -/
theorem Interleaves.exists_turns (h : Interleaves signature plan operands writable callee s s') :
    ∃ turns : List Nat, turns.foldl (turn signature plan operands writable callee 1) s = s' := by
  induction h with
  | refl => exact ⟨[], rfl⟩
  | tail _ last ih =>
    obtain ⟨turns, hturns⟩ := ih
    cases last with
    | @take before after m m' task task' step =>
      refine ⟨turns ++ [before.length], ?_⟩
      have hsteps : Task.steps signature plan operands writable callee 1 (m, task) = (m', task') :=
        step.step_eq
      rw [List.foldl_append, hturns, List.foldl_cons, List.foldl_nil,
        turn_eq 1 (getElem?_middle before after task), hsteps, set_middle]

/-- The iterations may come to this, with this report, exactly if some schedule brings them to it. -/
theorem scheduled_iff {m m' : Memory} {tasks : List Task} {result : Except Error Unit} :
    (∃ schedule : Schedule,
      together signature plan operands writable callee schedule.turns m = (m', tasks) ∧
        report schedule.report tasks = result) ↔
      Interleaves signature plan operands writable callee
        (m, (List.range plan.iterations).map .waiting) (m', tasks) ∧ Ended result tasks := by
  constructor
  case mp =>
    rintro ⟨schedule, htogether, rfl⟩
    have hreached := @together_interleaves signature plan operands writable callee schedule.turns m
    have hrests := @rests_together signature plan operands writable callee schedule.turns m
    rw [htogether] at hreached hrests
    exact ⟨hreached, ended_report _ hrests⟩
  case mpr =>
    rintro ⟨hreached, hended⟩
    obtain ⟨turns, hturns⟩ := hreached.exists_turns
    obtain ⟨choice, hchoice⟩ := hended.exists_report
    refine ⟨⟨turns, choice⟩, ?_, hchoice⟩
    -- Nothing is left to be done when the turns are over.
    rw [together, hturns]
    have hidle (ks : List Nat) :
        ks.foldl (finish signature plan operands writable callee) (m', tasks) = (m', tasks) := by
      induction ks with
      | nil => rfl
      | cons k ks ih => rw [List.foldl_cons, finish_of_rests (hended.rests k), ih]
    exact hidle _

theorem runTogether_ended (m : Memory) : ∃ tasks,
    Interleaves signature plan operands writable callee
        (m, (List.range plan.iterations).map .waiting)
        (((runTogether signature plan operands writable callee).run m).2, tasks) ∧
      Ended ((runTogether signature plan operands writable callee).run m).1 tasks :=
  ⟨_, scheduled_iff.1 ⟨m.schedule, rfl, rfl⟩⟩

end Corewise.Loop
