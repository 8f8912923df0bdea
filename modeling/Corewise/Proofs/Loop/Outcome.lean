import Corewise.Proofs.Loop.Independence
/-!
Kernel bodies as functions of what their operands hold. As long as no array is handed over twice, where
the operands lie does not matter: a body reads and writes the contents that it was given, and what it does
not write keeps its value.
-/

namespace Corewise

namespace Program

/-- What a program makes of operands that hold this, with its error text, if any. -/
def transform : Program → List Contents → Option String × List Contents
  | done, held => (none, held)
  | fail text, held => (some text, held)
  | read i offset next, held =>
    match held[i]? with
    | some (.array b) => (next (b.getFlat? offset)).transform held
    | _ => (next none).transform held
  | write i offset value next, held =>
    match held[i]? with
    | some (.array b) =>
      match b.setFlat offset value with
      | .ok b => (next true).transform (held.set i (.array b))
      | .error _ => (next false).transform held
    | _ => (next false).transform held

/-- The elements that it writes on the way, each by its operand and its offset there. -/
def writes : Program → List Contents → List (Nat × Nat)
  | done, _ => []
  | fail _, _ => []
  | read i offset next, held =>
    match held[i]? with
    | some (.array b) => (next (b.getFlat? offset)).writes held
    | _ => (next none).writes held
  | write i offset value next, held =>
    match held[i]? with
    | some (.array b) =>
      match b.setFlat offset value with
      | .ok b => (i, offset) :: (next true).writes (held.set i (.array b))
      | .error _ => (next false).writes held
    | _ => (next false).writes held

end Program

namespace Loop

/-- No array is there twice. -/
def Separate (values : List Value) : Prop := ∀ position, Unaliased values position

theorem separate_cons {v : Value} {values : List Value} :
    Separate (v :: values) ↔ (∀ r, v = .array r → .array r ∉ values) ∧ Separate values := by
  constructor
  case mp =>
    refine fun h => ⟨fun r hr hmem => ?_, fun i j r hi hj => ?_⟩
    · obtain ⟨j, hj⟩ := List.getElem?_of_mem hmem
      cases h 0 (j + 1) r (congrArg some hr) hj
    · exact Nat.succ.inj (h (i + 1) (j + 1) r hi hj)
  case mpr =>
    rintro ⟨hhead, hrest⟩ i j r hi hj
    cases i with
    | zero =>
      cases j with
      | zero => rfl
      | succ j => exact absurd (List.mem_of_getElem? (l := values) hj) (hhead r (Option.some.inj hi))
    | succ i =>
      cases j with
      | zero => exact absurd (List.mem_of_getElem? (l := values) hi) (hhead r (Option.some.inj hj))
      | succ j => exact congrArg Nat.succ (hrest i j r hi hj)

theorem Separate.contentsOf_store {values : List Value} (h : Separate values) {m : Memory} {i : Nat}
    {r : Ref} (hi : values[i]? = some (.array r)) (hr : r < m.buffers.length) (b : Buffer) :
    (m.store r b).contentsOf values = (m.contentsOf values).set i (.array b) := by
  refine List.ext_getElem? fun j => ?_
  rw [List.getElem?_set, Memory.getElem?_contentsOf, Memory.getElem?_contentsOf,
    Memory.length_contentsOf]
  by_cases hij : i = j
  case pos =>
    subst hij
    rw [hi, Option.map_some, if_pos rfl, if_pos (List.getElem?_eq_some_iff.1 hi).1, Memory.contents,
      Memory.buffer_store_self hr]
  case neg =>
    rw [if_neg hij]
    rcases hj : values[j]? with _ | v
    · rfl
    · cases v with
      | scalar s => rfl
      | array r' =>
        have hne : r ≠ r' := fun heq => hij (h j i r' hj (heq ▸ hi))
        rw [Option.map_some, Option.map_some, Memory.contents, Memory.buffer_store_of_ne hne]
        rfl

end Loop

/-- What a run leaves of separate operands and of all else, in terms of what the operands held. -/
theorem Program.run_transform (program : Program) {operands : List Value}
    (h : Loop.Separate operands) {m : Memory} (hheld : ∀ v ∈ operands, m.Holds v) :
    (program.run (operands[·]?) m).1 = (program.transform (m.contentsOf operands)).1 ∧
      (program.run (operands[·]?) m).2.contentsOf operands =
        (program.transform (m.contentsOf operands)).2 ∧
      ∀ r, .array r ∉ operands → (program.run (operands[·]?) m).2.buffer r = m.buffer r := by
  induction program generalizing m with
  | done => exact ⟨rfl, rfl, fun _ _ => rfl⟩
  | fail text => exact ⟨rfl, rfl, fun _ _ => rfl⟩
  | read i offset next ih =>
    unfold run transform
    rw [Memory.getElem?_contentsOf]
    split
    case h_1 r hi =>
      rw [hi]
      exact ih _ hheld
    case h_2 hi =>
      rcases hv : operands[i]? with _ | v
      · exact ih none hheld
      · cases v with
        | scalar s => exact ih none hheld
        | array r => exact absurd hv (hi r)
  | write i offset value next ih =>
    unfold run transform
    rw [Memory.getElem?_contentsOf]
    split
    case h_1 r hi =>
      rw [hi, Option.map_some, Memory.contents]
      dsimp only
      have hmem := List.mem_of_getElem? hi
      cases hset : (m.buffer r).setFlat offset value with
      | error e => exact ih false hheld
      | ok b =>
        -- No other operand is this array, so only what this one holds changes for the rest.
        obtain ⟨hresult, hafter, hothers⟩ := ih true (m := m.store r b) fun v hv => by
          cases v with
          | scalar s => trivial
          | array r' => exact Nat.lt_of_lt_of_eq (hheld _ hv) Memory.length_store.symm
        rw [h.contentsOf_store hi (hheld _ hmem) b] at hresult hafter
        refine ⟨hresult, hafter, fun r' hr' => ?_⟩
        rw [hothers r' hr', Memory.buffer_store_of_ne (ne_of_mem_of_not_mem hmem hr' <| congrArg _ ·)]
    case h_2 hi =>
      rcases hv : operands[i]? with _ | v
      · exact ih false hheld
      · cases v with
        | scalar s => exact ih false hheld
        | array r => exact absurd hv (hi r)

theorem Buffer.getElem?_setFlat {b b' : Buffer} {offset : Nat} {value : Scalar}
    (h : b.setFlat offset value = .ok b') {offset' : Nat} (hne : offset' ≠ offset) :
    b'.data[offset']? = b.data[offset']? := by
  unfold Buffer.setFlat at h
  split at h
  case isTrue =>
    cases h
    exact List.getElem?_set_ne hne.symm
  case isFalse => cases h

/-- An array is still there in the end, with the elements that are not among those written. -/
theorem Program.transform_unwritten (program : Program) {held : List Contents} {i : Nat} {b : Buffer}
    (hi : held[i]? = some (.array b)) :
    ∃ b', (program.transform held).2[i]? = some (.array b') ∧
      ∀ offset, (i, offset) ∉ program.writes held → b'.data[offset]? = b.data[offset]? := by
  induction program generalizing held b with
  | done => exact ⟨b, hi, fun _ _ => rfl⟩
  | fail text => exact ⟨b, hi, fun _ _ => rfl⟩
  | read j offset next ih =>
    unfold transform writes
    split
    · exact ih _ hi
    · exact ih _ hi
  | write j offset value next ih =>
    unfold transform writes
    split
    case h_2 => exact ih _ hi
    case h_1 c hj =>
      split
      case h_2 => exact ih _ hi
      case h_1 c' hset =>
        by_cases hij : j = i
        case neg =>
          have hi' : (held.set j (.array c'))[i]? = some (.array b) :=
            (List.getElem?_set_ne hij).trans hi
          obtain ⟨b', hb', hkept⟩ := ih true hi'
          exact ⟨b', hb', fun offset' hnot => hkept offset' (mt (List.mem_cons_of_mem _) hnot)⟩
        case pos =>
          subst hij
          cases hj.symm.trans hi
          have hj' : (held.set j (.array c'))[j]? = some (.array c') :=
            List.getElem?_set_self (List.getElem?_eq_some_iff.1 hi).1
          obtain ⟨b', hb', hkept⟩ := ih true hj'
          refine ⟨b', hb', fun offset' hnot => ?_⟩
          have hne : offset' ≠ offset := fun heq => hnot (heq ▸ List.mem_cons_self)
          rw [hkept offset' (mt (List.mem_cons_of_mem _) hnot), Buffer.getElem?_setFlat hset hne]

namespace Body

/-- What a body makes of operands that hold this, with its error text, if any. -/
def transform (body : Body) (held : List Contents) : Option String × List Contents :=
  (body.program (held.map Contents.view)).transform held

/-- The elements that a body writes on operands that hold this, each by its operand and its offset
there. -/
def writes (body : Body) (held : List Contents) : List (Nat × Nat) :=
  (body.program (held.map Contents.view)).writes held

/-- The result of a call, by the error text of its body. -/
def verdict : Option String → Except Error Unit
  | none => .ok ()
  | some text => .error (.kernel text)

theorem call_transform (body : Body) {operands : List Value} (h : Loop.Separate operands) {m : Memory}
    (hheld : ∀ v ∈ operands, m.Holds v) :
    ∃ m', (body.call operands).run m =
        (verdict (body.transform (m.contentsOf operands)).1, m') ∧
      m'.contentsOf operands = (body.transform (m.contentsOf operands)).2 ∧
      (∀ r, .array r ∉ operands → m'.buffer r = m.buffer r) ∧
      m'.invocations = m.invocations ++ [m.contentsOf operands] := by
  obtain ⟨hresult, hafter, hothers⟩ :=
    (body.program ((m.contentsOf operands).map Contents.view)).run_transform h
      (m := m.invoked operands) hheld
  have hinvocations := body.call_invocations operands m
  rw [call_run, effect_eq] at hinvocations ⊢
  refine ⟨_, Prod.ext ?_ rfl, hafter, hothers, hinvocations⟩
  have hfailure : ((body.program (((m.invoked operands).contentsOf operands).map Contents.view)).run
      (operands[·]?) (m.invoked operands)).1 = (body.transform (m.contentsOf operands)).1 := hresult
  rw [hfailure]
  cases (body.transform (m.contentsOf operands)).1 <;> rfl

end Body

namespace Loop

theorem separate_place (elements : List Contents) (m : Memory) :
    Separate (place elements m).1 ∧
      ∀ r, .array r ∈ (place elements m).1 → m.buffers.length ≤ r := by
  induction elements generalizing m with
  | nil => exact ⟨nofun, nofun⟩
  | cons e elements ih =>
    cases e with
    | scalar s =>
      obtain ⟨hseparate, hfresh⟩ := ih m
      exact ⟨separate_cons.2 ⟨nofun, hseparate⟩,
        fun r hr => hfresh r ((List.mem_cons.1 hr).resolve_left nofun)⟩
    | array b =>
      obtain ⟨hseparate, hfresh⟩ := ih (m.alloc b).2
      rw [Memory.length_alloc] at hfresh
      refine ⟨separate_cons.2 ⟨fun r hr hmem => ?_, hseparate⟩, fun r hr => ?_⟩
      · cases hr
        exact absurd (hfresh _ hmem) (Nat.not_succ_le_self _)
      · rcases List.mem_cons.1 hr with hr | hr
        · cases hr
          exact Nat.le_refl _
        · exact Nat.le_of_succ_le (hfresh r hr)

/-- A kernel body handed elements does to them what it does to any operands that hold the same. -/
theorem outcome_call (body : Body) (elements : List Contents) :
    outcome body.call elements =
      ⟨Body.verdict (body.transform elements).1, (body.transform elements).2, [elements]⟩ := by
  have hplaced := placed_place elements .empty
  have hseparate := (separate_place elements .empty).1
  unfold outcome
  generalize place elements .empty = placed at hplaced hseparate
  obtain ⟨m', hrun, hafter, -, hinvocations⟩ := body.call_transform hseparate hplaced.holds
  rw [hplaced.contents] at hrun hafter hinvocations
  rw [hplaced.invocations] at hinvocations
  dsimp only
  rw [hrun]
  dsimp only
  rw [hafter, hinvocations]
  rfl

end Loop

@[simp] theorem Body.verdict_eq_ok {failure : Option String} :
    verdict failure = .ok () ↔ failure = none := by
  cases failure with
  | none => exact ⟨fun _ => rfl, fun _ => rfl⟩
  | some text => exact ⟨nofun, nofun⟩

theorem Body.transform_rewrites (body : Body) {held : List Contents}
    (h : ∀ e ∈ held, e.WellFormed) :
    List.Forall₂ Memory.Rewrites held (body.transform held).2 := by
  have hafter := Loop.Callee.KeepsShapes.rewrites body.call_grows h
  rwa [Loop.outcome_call] at hafter

/-- What a body makes of operands that hold this is what it raises when it is called on such. -/
theorem Body.raises_of_transform {body : Body} {held : List Contents} {text : String}
    (h : (body.transform held).1 = some text) : body.Raises text held := by
  have hplaced := Loop.placed_place held .empty
  obtain ⟨m', hrun, -⟩ := body.call_transform (Loop.separate_place held .empty).1 hplaced.holds
  rw [hplaced.contents, h] at hrun
  exact ⟨_, _, hplaced.contents, congrArg Prod.fst hrun⟩

end Corewise
