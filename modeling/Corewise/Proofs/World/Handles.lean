import Corewise.Proofs.World.Hooks
/-!
Handles to functions. One is held from the moment that a function is handed out, cloned ones come and go,
and a function is there as long as one of them is held. Keys are never used twice, also where a function
could not be restored.
-/

namespace Corewise

namespace World

variable {w w' : World} {K : Kernel → Prop} {key key' : FunctionKey} {live new : LiveFunction}
  {b : Blueprint} {engine : EngineRef}

/-- The function that a snapshot is restored on, as it is before that. -/
def started? (w : World) (snapshot : Snapshot) (library : KernelLibrary) (engine : EngineRef) :
    Option (FunctionKey × World) :=
  (library.find? snapshot.kernel).bind fun kernel =>
    (w.build (snapshot.blueprint kernel) engine).toOption

theorem rebuild_of_none {snapshot : Snapshot} {library : KernelLibrary}
    (h : w.started? snapshot library engine = none) :
    ∃ e, w.rebuild snapshot library engine = (.error e, w) := by
  rcases hkernel : library.find? snapshot.kernel with _ | kernel
  case none => exact ⟨_, rebuild_of_unknown hkernel⟩
  case some =>
    rw [started?, hkernel, Option.bind_some] at h
    rcases hbuilt : w.build (snapshot.blueprint kernel) engine with e | built
    case error => exact ⟨e, rebuild_of_refused hkernel hbuilt⟩
    case ok =>
      rw [hbuilt] at h
      cases h

theorem started?_eq_some {snapshot : Snapshot} {library : KernelLibrary}
    (h : w.started? snapshot library engine = some (key, w')) :
    ∃ kernel, library.find? snapshot.kernel = some kernel ∧
      w.build (snapshot.blueprint kernel) engine = .ok (key, w') := by
  obtain ⟨kernel, hkernel, hbuilt⟩ := Option.bind_eq_some_iff.1 h
  refine ⟨kernel, hkernel, ?_⟩
  rcases hresult : w.build (snapshot.blueprint kernel) engine with e | built
  case error =>
    rw [hresult] at hbuilt
    cases hbuilt
  case ok =>
    rw [hresult] at hbuilt
    cases hbuilt
    rfl

/-- A new function is restored and handed out, or is given up again. -/
theorem rebuild_of_started {snapshot : Snapshot} {library : KernelLibrary}
    (h : w.started? snapshot library engine = some (key, w')) :
    (∃ w'', w'.step key (restore snapshot) = (.ok (), w'') ∧
      w.rebuild snapshot library engine = (.ok key, w'')) ∨
    ∃ e w'', w'.step key (restore snapshot) = (.error e, w'') ∧
      w.rebuild snapshot library engine = (.error e, w''.drop key) := by
  obtain ⟨kernel, hkernel, hbuilt⟩ := started?_eq_some h
  rcases hrun : w'.step key (restore snapshot) with ⟨e | _, w''⟩
  case error => exact .inr ⟨e, w'', rfl, rebuild_of_error hkernel hbuilt hrun⟩
  case ok => exact .inl ⟨w'', rfl, rebuild_of_ok hkernel hbuilt hrun⟩

/-- The key of the function that comes into being at a request, whether or not it stays. -/
def begun? (w : World) : Request → Option FunctionKey
  | .build b r => ((w.provide r).2.build b (w.provide r).1).toOption.map (·.1)
  | .rebuild snapshot library r =>
    ((w.provide r).2.started? snapshot (library.getD w.library) (w.provide r).1).map (·.1)
  | _ => none

/-- The key that is handed out with a result. -/
def handedOut? : Except Error (Option FunctionKey) → Option FunctionKey
  | .ok made => made
  | .error _ => none

theorem handedOut?_map_none {α : Type} (result : Except Error α) :
    handedOut? (result.map fun _ => none) = none := by
  cases result <;> rfl

/-- Keys of the functions that come into being in a run, in their order. -/
def begun (w : World) : List Request → List FunctionKey
  | [] => []
  | r :: requests => (w.begun? r).toList ++ begun (w.serve r).2 requests

/-- How many handles to the function with a key are held after a request, of so many before it. -/
def tally (w : World) (key : FunctionKey) (handles : Nat) : Request → Nat
  | .clone key' => if key = key' ∧ 0 < handles then handles + 1 else handles
  | .drop key' => if key = key' then handles - 1 else handles
  | r => if handedOut? (w.serve r).1 = some key then 1 else handles

def heldAfter (key : FunctionKey) : World → Nat → List Request → Nat
  | _, handles, [] => handles
  | w, handles, r :: requests => heldAfter key (w.serve r).2 (w.tally key handles r) requests

/-- How many handles to the function with a key are held after a run, going by what was handed out, cloned
and given up. -/
def held (requests : List Request) (key : FunctionKey) : Nat := heldAfter key .empty 0 requests

/-- The number of handles that is kept with a function. -/
def handlesOf (w : World) (key : FunctionKey) : Nat := ((w.find? key).map (·.handles)).getD 0

theorem handlesOf_of_find? (h : w.find? key = some live) : w.handlesOf key = live.handles := by
  rw [handlesOf, h]
  rfl

theorem Aside.handlesOf (h : w.Aside w') (key : FunctionKey) :
    w'.handlesOf key = w.handlesOf key := by
  rw [World.handlesOf, World.handlesOf, find?, find?, h.functions]

theorem Sound.handlesOf_build (h : w.Sound) (hbuilt : w.build b engine = .ok (key, w'))
    (key' : FunctionKey) : w'.handlesOf key' = if key' = key then 1 else w.handlesOf key' := by
  obtain ⟨signature, library, -, -, rfl, rfl⟩ := build_eq_added hbuilt
  rw [handlesOf, h.find?_added]
  split <;> rfl

theorem handlesOf_replace (hfound : w.find? key = some live) (hnew : new.function.key = key)
    (key' : FunctionKey) :
    (w.replace key new).handlesOf key' = if key' = key then new.handles else w.handlesOf key' := by
  rw [handlesOf, find?_replace hnew, hfound]
  split <;> rfl

theorem handlesOf_replace_handles (hfound : w.find? key = some live) (handles : Nat)
    (key' : FunctionKey) : (w.replace key { live with handles }).handlesOf key' =
      if key' = key then handles else w.handlesOf key' :=
  @handlesOf_replace w key live { live with handles } hfound (mem_of_find? hfound).2 key'

theorem handlesOf_replace_function (hfound : w.find? key = some live) {f : DynamicFunction}
    (hkey : f.key = key) (key' : FunctionKey) :
    (w.replace key { live with function := f }).handlesOf key' = w.handlesOf key' := by
  refine (handlesOf_replace hfound hkey key').trans ?_
  split
  case isTrue heq => rw [heq, handlesOf_of_find? hfound]
  case isFalse => rfl

theorem handlesOf_forget (key' : FunctionKey) :
    (w.forget key).handlesOf key' = if key' = key then 0 else w.handlesOf key' := by
  rw [handlesOf, find?_forget]
  split <;> rfl

theorem Sound.handlesOf_step {α : Type} {body : Step α} (h : w.Sound)
    (hbody : Effect.Keeps Machine.Coheres body) (key key' : FunctionKey) :
    (w.step key body).2.handlesOf key' = w.handlesOf key' := by
  rcases hfound : w.find? key with _ | live
  case none => rw [World.step, hfound]
  case some =>
    obtain ⟨hmem, hkey⟩ := mem_of_find? hfound
    have hdescends :=
      (hbody ⟨live.function, w.engine live.engine, w.memory⟩ (h.registered live hmem).coherent).2
    rw [(aside_step hfound body).handlesOf]
    exact handlesOf_replace_function hfound (hdescends.key.trans hkey) key'

theorem Hooked.handlesOf_clone (h : w.Hooked) (key' : FunctionKey) :
    (w.clone key).handlesOf key' =
      if key' = key ∧ 0 < w.handlesOf key' then w.handlesOf key' + 1 else w.handlesOf key' := by
  rcases hfound : w.find? key with _ | live
  case none =>
    rw [clone_of_none hfound, if_neg]
    rintro ⟨rfl, hpos⟩
    rw [handlesOf, hfound] at hpos
    exact absurd hpos (Nat.lt_irrefl _)
  case some =>
    have hpos := h.handles live (mem_of_find? hfound).1
    rw [clone_of_find? hfound, handlesOf_replace_handles hfound]
    by_cases heq : key' = key
    · subst heq
      rw [if_pos rfl, handlesOf_of_find? hfound, if_pos ⟨rfl, hpos⟩]
    · rw [if_neg heq, if_neg fun hboth => heq hboth.1]

theorem handlesOf_drop (key' : FunctionKey) :
    (w.drop key).handlesOf key' = if key' = key then w.handlesOf key' - 1 else w.handlesOf key' := by
  have hhandles : (w.drop key).handlesOf key' =
      if key' = key then w.handlesOf key - 1 else w.handlesOf key' := by
    rcases hfound : w.find? key with _ | live
    case none =>
      have hnone : w.handlesOf key = 0 := by
        rw [handlesOf, hfound]
        rfl
      rw [drop_of_none hfound, hnone]
      split
      case isTrue heq => rw [heq, hnone]
      case isFalse => rfl
    case some =>
      rw [handlesOf_of_find? hfound]
      by_cases hshared : 1 < live.handles
      · rw [drop_of_shared hfound hshared, handlesOf_replace_handles hfound]
      · rw [drop_of_last hfound hshared, handlesOf_forget,
          Nat.sub_eq_zero_of_le (Nat.le_of_not_lt hshared)]
  rw [hhandles]
  split
  case isTrue heq => rw [heq]
  case isFalse => rfl

theorem Sound.handlesOf_resolveType (h : w.Sound) (types : List OperandType)
    (keywords : List (String × OperandType)) (key' : FunctionKey) :
    (w.resolveType key types keywords).2.handlesOf key' = w.handlesOf key' := by
  unfold World.resolveType
  split
  case h_1 => rfl
  case h_2 => exact h.handlesOf_step (DynamicFunction.typeCall_coheres types keywords) _ key'

theorem Sound.handlesOf_lowerCall (h : w.Sound) (args : List Value) (key' : FunctionKey) :
    (w.lowerCall key args).2.handlesOf key' = w.handlesOf key' := by
  unfold World.lowerCall
  split
  case h_1 => rfl
  case h_2 => exact h.handlesOf_step (DynamicFunction.lowerCall_coheres args) _ key'

theorem ite_eq_some (key key' : FunctionKey) (m n : Nat) :
    (if key = key' then m else n) = if some key' = some key then m else n :=
  if_congr (eq_comm.trans Option.some_inj.symm) rfl rfl

theorem ite_handedOut?_map_none {α : Type} (result : Except Error α) (handles : Nat) :
    (if handedOut? (result.map fun _ => none) = some key then 1 else handles) = handles := by
  rw [handedOut?_map_none]
  exact if_neg nofun

/-- A function that cannot be restored leaves no handle behind. -/
theorem Sound.handlesOf_rebuild (h : w.Sound) (powered : engine < w.engines.length) (snapshot : Snapshot)
    (library : KernelLibrary) (key : FunctionKey) :
    (w.rebuild snapshot library engine).2.handlesOf key =
      if (w.rebuild snapshot library engine).1.toOption = some key then 1 else w.handlesOf key := by
  rcases hstarted : w.started? snapshot library engine with _ | ⟨key', w'⟩
  case none =>
    obtain ⟨e, hrebuilt⟩ := rebuild_of_none hstarted
    rw [hrebuilt]
    rfl
  case some =>
    obtain ⟨kernel, -, hbuilt⟩ := started?_eq_some hstarted
    have hmade := h.handlesOf_build hbuilt key
    have hstepped := (h.build powered hbuilt).handlesOf_step (restore_coheres snapshot) key' key
    rcases rebuild_of_started hstarted with ⟨w'', hstep, hrebuilt⟩ | ⟨e, w'', hstep, hrebuilt⟩
    · rw [hstep, hmade] at hstepped
      rw [hrebuilt, hstepped]
      exact ite_eq_some ..
    · have hfails : (Except.error e : Except Error FunctionKey).toOption ≠ some key := nofun
      rw [hstep, hmade] at hstepped
      rw [hrebuilt, handlesOf_drop, hstepped, if_neg hfails]
      by_cases heq : key = key'
      -- The key was new, so nothing was held under it before either.
      · obtain ⟨-, -, -, -, hnext, -⟩ := build_eq_added hbuilt
        rw [if_pos heq, if_pos heq, heq, handlesOf, hnext, h.find?_next]
        rfl
      · rw [if_neg heq, if_neg heq]

/-- The numbers that are kept with the functions are those that one gets by counting. -/
theorem handlesOf_serve (hsound : w.Sound) (hw : w.Hooked) (r : Request) (key : FunctionKey) :
    (w.serve r).2.handlesOf key = w.tally key (w.handlesOf key) r := by
  cases r with
  | newEngine => exact w.aside_newEngine.handlesOf key
  | setEngine => rfl
  | remember => rfl
  | newKey => rfl
  | register kernel =>
    refine Eq.trans ?_ (ite_handedOut?_map_none ..).symm
    show (w.register kernel).2.handlesOf key = _
    unfold World.register
    split <;> rfl
  | build b r =>
    have hprovided := w.aside_provide r
    show _ = if handedOut? (w.serve (.build b r)).1 = some key then 1 else w.handlesOf key
    rcases hbuilt : (w.provide r).2.build b (w.provide r).1 with e | ⟨key', w'⟩
    case error =>
      rw [serve_build_of_error hbuilt]
      exact hprovided.handlesOf key
    case ok =>
      rw [serve_build_of_ok hbuilt, (hsound.provide r).handlesOf_build hbuilt, hprovided.handlesOf]
      exact ite_eq_some ..
  | rebuild snapshot library r =>
    refine ((hsound.provide r).handlesOf_rebuild (w.provide_lt r) snapshot _ key).trans ?_
    rw [(w.aside_provide r).handlesOf]
    show _ = if handedOut? (((w.provide r).2.rebuild snapshot _ (w.provide r).1).1.map some) = some key
      then 1 else w.handlesOf key
    rcases ((w.provide r).2.rebuild snapshot _ (w.provide r).1).1 with e | key' <;> rfl
  | clone key' => exact hw.handlesOf_clone key
  | drop key' => exact handlesOf_drop key
  | operate key' operation =>
    refine (hsound.handlesOf_step operation.step_coheres key' key).trans ?_
    exact (ite_handedOut?_map_none ..).symm
  | resolveType key' types keywords =>
    exact (hsound.handlesOf_resolveType types keywords key).trans (ite_handedOut?_map_none ..).symm
  | lowerCall key' args =>
    exact (hsound.handlesOf_lowerCall args key).trans (ite_handedOut?_map_none ..).symm

/-- In a run, the numbers come out as counted from its start. -/
theorem handlesOf_after (hsound : w.Sound) (hw : w.Hooked) (requests : List Request)
    (key : FunctionKey) :
    (w.after requests).handlesOf key = heldAfter key w (w.handlesOf key) requests := by
  induction requests generalizing w with
  | nil => rfl
  | cons r requests ih =>
    have hserved := hsound.serve r
    exact (ih (hserved.sound hsound) (hserved.hooked hsound hw)).trans
      (congrArg (heldAfter key _ · requests) (handlesOf_serve hsound hw r key))

theorem Moves.serial (h : Moves K w w') : w.nextSerial ≤ w'.nextSerial := by
  induction h with
  | aside h => exact h.serial
  | register => exact Nat.le_refl _
  | build _ _ built =>
    obtain ⟨_, _, -, -, -, rfl⟩ := build_eq_added built
    exact Nat.le_succ _
  | become => exact Nat.le_refl _
  | forget => exact Nat.le_refl _
  | trans _ _ ih ih' => exact Nat.le_trans ih ih'

theorem build_serial (h : w.build b engine = .ok (key, w')) :
    key.serial = w.nextSerial ∧ w'.nextSerial = w.nextSerial + 1 := by
  obtain ⟨_, _, -, -, rfl, rfl⟩ := build_eq_added h
  exact ⟨rfl, rfl⟩

theorem Sound.rebuild_serial (h : w.Sound) (powered : engine < w.engines.length) {snapshot : Snapshot}
    {library : KernelLibrary} (hstarted : w.started? snapshot library engine = some (key, w')) :
    key.serial = w.nextSerial ∧ w.nextSerial < (w.rebuild snapshot library engine).2.nextSerial := by
  obtain ⟨kernel, -, hbuilt⟩ := started?_eq_some hstarted
  obtain ⟨hkey, hnext⟩ := build_serial hbuilt
  have hsound : w'.Sound := h.build powered hbuilt
  have hlt : w.nextSerial < w'.nextSerial := hnext ▸ Nat.lt_succ_self _
  have hstepped : Moves (fun _ => True) w' (w'.step key (restore snapshot)).2 :=
    .step hsound (restore_coheres snapshot) key
  rcases rebuild_of_started hstarted with ⟨w'', hstep, hrebuilt⟩ | ⟨e, w'', hstep, hrebuilt⟩
  · rw [hstep] at hstepped
    rw [hrebuilt]
    exact ⟨hkey, Nat.lt_of_lt_of_le hlt hstepped.serial⟩
  · rw [hstep] at hstepped
    rw [hrebuilt]
    exact ⟨hkey, Nat.lt_of_lt_of_le hlt (hstepped.trans (.drop (hstepped.sound hsound) key)).serial⟩

/-- A new function takes the next serial number. -/
theorem begun?_serial (h : w.Sound) {r : Request} (hbegun : w.begun? r = some key) :
    w.nextSerial ≤ key.serial ∧ key.serial < (w.serve r).2.nextSerial := by
  cases r with
  | build b r =>
    obtain ⟨⟨key, w'⟩, hresult, rfl⟩ := Option.map_eq_some_iff.1 hbegun
    rcases hbuilt : (w.provide r).2.build b (w.provide r).1 with e | built
    case error =>
      rw [hbuilt] at hresult
      cases hresult
    case ok =>
      rw [hbuilt] at hresult
      cases hresult
      obtain ⟨hkey, hnext⟩ := build_serial hbuilt
      rw [serve_build_of_ok hbuilt]
      dsimp only
      rw [hkey, hnext]
      exact ⟨(w.aside_provide r).serial, Nat.lt_succ_self _⟩
  | rebuild snapshot library r =>
    obtain ⟨⟨key, w'⟩, hstarted, rfl⟩ := Option.map_eq_some_iff.1 hbegun
    obtain ⟨hkey, hlt⟩ := (h.provide r).rebuild_serial (w.provide_lt r) hstarted
    exact ⟨hkey ▸ (w.aside_provide r).serial, hkey ▸ hlt⟩
  | _ => cases hbegun

theorem begun?_of_handedOut? {r : Request} (h : handedOut? (w.serve r).1 = some key) :
    w.begun? r = some key := by
  have hnone {α : Type} {result : Except Error α} :
      handedOut? (result.map fun _ => none) ≠ some key := by
    rw [handedOut?_map_none]
    exact nofun
  cases r with
  | build b r =>
    rcases hbuilt : (w.provide r).2.build b (w.provide r).1 with e | ⟨key', w'⟩
    case error =>
      rw [serve_build_of_error hbuilt] at h
      cases h
    case ok =>
      rw [serve_build_of_ok hbuilt] at h
      cases h
      rw [begun?, hbuilt]
      rfl
  | rebuild snapshot library r =>
    have hserve : (w.serve (.rebuild snapshot library r)).1 =
        ((w.provide r).2.rebuild snapshot (library.getD w.library) (w.provide r).1).1.map some := rfl
    rw [hserve] at h
    rcases hstarted : (w.provide r).2.started? snapshot (library.getD w.library) (w.provide r).1
      with _ | ⟨key', w'⟩
    case none =>
      obtain ⟨e, hrebuilt⟩ := rebuild_of_none hstarted
      rw [hrebuilt] at h
      cases h
    case some =>
      rcases rebuild_of_started hstarted with ⟨w'', -, hrebuilt⟩ | ⟨e, w'', -, hrebuilt⟩
      · rw [hrebuilt] at h
        cases h
        rw [begun?, hstarted]
        rfl
      · rw [hrebuilt] at h
        cases h
  | register => exact absurd h hnone
  | operate => exact absurd h hnone
  | resolveType => exact absurd h hnone
  | lowerCall => exact absurd h hnone
  | _ => cases h

theorem serials_begun (h : w.Sound) (requests : List Request) :
    (∀ key ∈ w.begun requests, w.nextSerial ≤ key.serial) ∧
      (w.begun requests).Pairwise fun key key' => key.serial < key'.serial := by
  induction requests generalizing w with
  | nil => exact ⟨fun _ hkey => absurd hkey List.not_mem_nil, .nil⟩
  | cons r requests ih =>
    have hserved := h.serve r
    -- What comes later starts at the serial number that this request leaves.
    obtain ⟨hlater, hpairwise⟩ := ih (hserved.sound h)
    have hfirst : ∀ key ∈ (w.begun? r).toList,
        w.nextSerial ≤ key.serial ∧ key.serial < (w.serve r).2.nextSerial :=
      fun key hkey => begun?_serial h (Option.mem_toList.1 hkey)
    rw [begun, List.forall_mem_append, List.pairwise_append]
    refine ⟨⟨fun key hkey => (hfirst key hkey).1, fun key hkey => ?_⟩, ?_, hpairwise, ?_⟩
    · exact Nat.le_trans hserved.serial (hlater key hkey)
    · rcases w.begun? r with _ | key
      · exact .nil
      · exact List.pairwise_singleton _ _
    · exact fun key hkey key' hkey' => Nat.lt_of_lt_of_le (hfirst key hkey).2 (hlater key' hkey')

theorem pos_of_tally {r : Request} {handles : Nat} (h : 0 < w.tally key handles r) :
    0 < handles ∨ w.begun? r = some key := by
  have hmade (h : 0 < if handedOut? (w.serve r).1 = some key then 1 else handles) :
      0 < handles ∨ w.begun? r = some key := by
    split at h
    case isTrue hmade => exact .inr (begun?_of_handedOut? hmade)
    case isFalse => exact .inl h
  cases r with
  | clone key' =>
    rw [tally] at h
    split at h
    case isTrue hboth => exact .inl hboth.2
    case isFalse => exact .inl h
  | drop key' =>
    rw [tally] at h
    split at h
    case isTrue => exact .inl (Nat.lt_of_lt_of_le h (Nat.sub_le _ _))
    case isFalse => exact .inl h
  | _ => exact hmade h

theorem begun_of_heldAfter {requests : List Request} {handles : Nat}
    (h : 0 < heldAfter key w handles requests) : 0 < handles ∨ key ∈ w.begun requests := by
  induction requests generalizing w handles with
  | nil => exact .inl h
  | cons r requests ih =>
    rcases ih h with hpos | hmem
    · rcases pos_of_tally hpos with hpos | hbegun
      · exact .inl hpos
      · exact .inr (List.mem_append_left _ (Option.mem_toList.2 hbegun))
    · exact .inr (List.mem_append_right _ hmem)

theorem Hooked.handlesOf_pos_iff (h : w.Hooked) :
    0 < w.handlesOf key ↔ ∃ live, w.find? key = some live := by
  constructor
  · intro hpos
    rcases hfound : w.find? key with _ | live
    case none =>
      rw [handlesOf, hfound] at hpos
      exact absurd hpos (Nat.lt_irrefl _)
    case some => exact ⟨live, rfl⟩
  · rintro ⟨live, hfound⟩
    rw [handlesOf_of_find? hfound]
    exact h.handles live (mem_of_find? hfound).1

/-- The contexts know a function by its key as long as a handle to it is held, and no longer. Calls through
them are calls of that function, in one of the two forms where they are lowered. -/
theorem hooked_while_held (requests : List Request) :
    (∀ key, (empty.after requests).typing.contains key = true ↔ 0 < held requests key) ∧
    (∀ key, (empty.after requests).target.shapes key ≠ [] ↔ 0 < held requests key) ∧
    (empty.begun requests).Nodup ∧
    ∀ key, 0 < held requests key → key ∈ empty.begun requests ∧
      ∃ live, (empty.after requests).find? key = some live ∧ live.handles = held requests key ∧
        (∀ types keywords, (empty.after requests).resolveType key types keywords =
          (empty.after requests).step key (DynamicFunction.typeCall types keywords)) ∧
        ∀ args,
          (Lowering.Formed live.function.arity args → (empty.after requests).lowerCall key args =
            (empty.after requests).step key (DynamicFunction.lowerCall args)) ∧
          (¬ Lowering.Formed live.function.arity args → (empty.after requests).lowerCall key args =
            (.error (.typing (.noLoweringFor key args.length)), empty.after requests)) := by
  have hmoves : Moves (fun _ => True) .empty (empty.after requests) :=
    after_moves sound_empty (stocks_empty _) fun _ _ _ _ => trivial
  have hw := hmoves.hooked sound_empty hooked_empty
  have hheld (key : FunctionKey) : (empty.after requests).handlesOf key = held requests key :=
    handlesOf_after sound_empty hooked_empty requests key
  have halive (key : FunctionKey) :
      0 < held requests key ↔ ∃ live, (empty.after requests).find? key = some live := by
    rw [← hheld]
    exact hw.handlesOf_pos_iff
  refine ⟨fun key => hw.contains_iff.trans (halive key).symm,
    fun key => hw.shapes_ne_nil_iff.trans (halive key).symm, ?distinct, fun key hpos => ⟨?known, ?called⟩⟩
  case distinct =>
    exact (serials_begun sound_empty requests).2.imp fun hlt heq => absurd (heq ▸ hlt) (Nat.lt_irrefl _)
  case known => exact (begun_of_heldAfter hpos).resolve_left (Nat.lt_irrefl _)
  case called =>
    obtain ⟨live, hfound⟩ := (halive key).1 hpos
    refine ⟨live, hfound, ?_, hw.resolveType_eq hfound, fun args => ⟨?_, ?_⟩⟩
    · rw [← hheld, handlesOf_of_find? hfound]
    · exact hw.lowerCall_of_formed hfound
    · exact hw.lowerCall_of_not_formed hfound

theorem hooked_while_held_copyRun : 0 < held copyRun ⟨"copy", 1⟩ ∧
    ¬ 0 < held (copyRun ++ [.drop ⟨"copy", 1⟩]) ⟨"copy", 1⟩ := by
  constructor
  case left =>
    apply ((hooked_while_held copyRun).1 _).1
    rw [after_copyRun]
    rfl
  case right =>
    intro hheld
    have hcontains := ((hooked_while_held _).1 _).2 hheld
    rw [after_append, after_copyRun] at hcontains
    exact Bool.false_ne_true hcontains

end World

end Corewise
