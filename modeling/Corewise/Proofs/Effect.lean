import Corewise.Error
import Mathlib.Data.List.Forall2
/-!
Steps that change a state and may fail. A sequence goes on where its first step left off, or fails as
that failed; and a relation between states that every part of a step keeps is kept by the whole, as is
one that its parts cannot tell apart.
-/

namespace Corewise

theorem exists_getElem?_of_forall₂ {α β : Type} {R : α → β → Prop} {as : List α} {bs : List β}
    (h : List.Forall₂ R as bs) {i : Nat} {a : α} (hi : as[i]? = some a) :
    ∃ b, bs[i]? = some b ∧ R a b := by
  induction h generalizing i with
  | nil => simp at hi
  | cons hab _ ih =>
    cases i with
    | zero =>
      cases hi
      exact ⟨_, rfl, hab⟩
    | succ i => exact ih hi

namespace Effect

variable {ε σ α β : Type}

section Result

variable {x : Except ε α} {f : α → Except ε β}

theorem bind_eq_ok {b : β} : (x >>= f) = .ok b ↔ ∃ a, x = .ok a ∧ f a = .ok b := by
  cases x with
  | error e => exact ⟨nofun, fun ⟨_, h, _⟩ => nomatch h⟩
  | ok a => exact ⟨fun h => ⟨a, rfl, h⟩, fun ⟨_, rfl, h⟩ => h⟩

theorem bind_eq_error {e : ε} :
    (x >>= f) = .error e ↔ x = .error e ∨ ∃ a, x = .ok a ∧ f a = .error e := by
  cases x with
  | error e' =>
    constructor
    · intro h
      cases h
      exact .inl rfl
    · rintro (h | ⟨_, h, _⟩)
      · cases h
        rfl
      · cases h
  | ok a =>
    constructor
    · exact fun h => .inr ⟨a, rfl, h⟩
    · rintro (h | ⟨_, ha, h⟩)
      · cases h
      · cases ha
        exact h

theorem mapM_eq_ok {l : List α} {bs : List β} :
    l.mapM f = .ok bs ↔ List.Forall₂ (fun a b => f a = .ok b) l bs := by
  induction l generalizing bs with
  | nil =>
    rw [List.mapM_nil, List.forall₂_nil_left_iff]
    exact ⟨fun h => (Except.ok.inj h).symm, fun h => h ▸ rfl⟩
  | cons a l ih =>
    simp only [List.mapM_cons, bind_eq_ok, ih, List.forall₂_cons_left_iff]
    constructor
    · rintro ⟨b, hb, bs', hbs, h⟩
      cases h
      exact ⟨b, bs', hb, hbs, rfl⟩
    · rintro ⟨b, bs', hb, hbs, rfl⟩
      exact ⟨b, hb, bs', hbs, rfl⟩

/-- Steps that succeed or fail alike, whatever they give. -/
theorem cases_of_map_unit {y : Except ε β} (h : (y.map fun _ => ()) = x.map fun _ => ()) :
    (∃ e, x = .error e ∧ y = .error e) ∨ ∃ a b, x = .ok a ∧ y = .ok b := by
  cases x with
  | error e =>
    cases y with
    | error e' =>
      cases h
      exact .inl ⟨e, rfl, rfl⟩
    | ok b => cases h
  | ok a =>
    cases y with
    | error e' => cases h
    | ok b => exact .inr ⟨a, b, rfl, rfl⟩

end Result

section Run

variable {x : ExceptT ε (StateM σ) α} {f : α → ExceptT ε (StateM σ) β} {s t : σ}

theorem run_bind_of_ok {a : α} (h : x.run s = (.ok a, t)) : (x >>= f).run s = (f a).run t := by
  show (match x.run s with | (r, t) => ExceptT.bindCont f r t) = _
  rw [h]
  rfl

theorem run_bind_of_error {e : ε} (h : x.run s = (.error e, t)) :
    (x >>= f).run s = (.error e, t) := by
  show (match x.run s with | (r, t) => ExceptT.bindCont f r t) = _
  rw [h]
  rfl

theorem run_get_bind {f : σ → ExceptT ε (StateM σ) β} (s : σ) :
    (MonadState.get >>= f).run s = (f s).run s := rfl

theorem run_of_result {result : Except ε α} (h : (x.run s).1 = result) :
    x.run s = (result, (x.run s).2) := Prod.ext h rfl

/-- A sequence that fails has failed in its first step or after it. -/
theorem run_bind_eq_error {e : ε} (h : (x >>= f).run s = (.error e, t)) :
    x.run s = (.error e, t) ∨ ∃ a u, x.run s = (.ok a, u) ∧ (f a).run u = (.error e, t) := by
  rcases hx : x.run s with ⟨r | a, u⟩
  · rw [run_bind_of_error hx] at h
    cases h
    exact .inl rfl
  · rw [run_bind_of_ok hx] at h
    exact .inr ⟨a, u, rfl, h⟩

/-- Both steps of a sequence that succeeds have succeeded. -/
theorem run_bind_eq_ok {b : β} (h : (x >>= f).run s = (.ok b, t)) :
    ∃ a u, x.run s = (.ok a, u) ∧ (f a).run u = (.ok b, t) := by
  rcases hx : x.run s with ⟨r | a, u⟩
  · rw [run_bind_of_error hx] at h
    cases h
  · rw [run_bind_of_ok hx] at h
    exact ⟨a, u, rfl, h⟩

/-- What a step gives does not matter to the state that it leaves. -/
theorem run_bind_pure (b : β) :
    (x >>= fun _ => (pure b : ExceptT ε (StateM σ) β)).run s =
      ((x.run s).1.map fun _ => b, (x.run s).2) := by
  rcases hx : x.run s with ⟨e | a, t⟩
  · rw [run_bind_of_error hx]
    rfl
  · rw [run_bind_of_ok hx]
    rfl

end Run

/-- Whatever comes of the step, the state before it is related to the state after it. -/
def Keeps (R : σ → σ → Prop) (x : ExceptT ε (StateM σ) α) : Prop := ∀ s, R s (x.run s).2

namespace Keeps

variable {R : σ → σ → Prop} {x : ExceptT ε (StateM σ) α} {f : α → ExceptT ε (StateM σ) β}

theorem pure [Std.Refl R] (a : α) : Keeps R (Pure.pure a : ExceptT ε (StateM σ) α) :=
  fun s => Std.Refl.refl s

theorem throw [Std.Refl R] (e : ε) : Keeps R (MonadExcept.throw e : ExceptT ε (StateM σ) α) :=
  fun s => Std.Refl.refl s

theorem of_run (hx : Keeps R x) {s t : σ} {result : Except ε α} (h : x.run s = (result, t)) :
    R s t := by
  have hs := hx s
  rwa [h] at hs

theorem bind [Trans R R R] (hx : Keeps R x) (hf : ∀ a, Keeps R (f a)) : Keeps R (x >>= f) := by
  intro s
  rcases h : x.run s with ⟨e | a, t⟩
  · rw [run_bind_of_error h]
    exact hx.of_run h
  · rw [run_bind_of_ok h]
    exact Trans.trans (hx.of_run h) (hf a t)

/-- What is read of the state does not matter. -/
theorem get {f : σ → ExceptT ε (StateM σ) β} (hf : ∀ s, Keeps R (f s)) :
    Keeps R (MonadState.get >>= f) := fun s => hf s s

variable [Std.Refl R] [Trans R R R]

theorem forM {l : List α} {f : α → ExceptT ε (StateM σ) PUnit} (hf : ∀ a ∈ l, Keeps R (f a)) :
    Keeps R (l.forM f) := by
  induction l with
  | nil => exact Keeps.pure _
  | cons a l ih =>
    exact bind (hf a List.mem_cons_self) fun _ => ih fun b hb => hf b (List.mem_cons_of_mem a hb)

theorem mapM {l : List α} (hf : ∀ a ∈ l, Keeps R (f a)) : Keeps R (l.mapM f) := by
  induction l with
  | nil => exact Keeps.pure _
  | cons a l ih =>
    rw [List.mapM_cons]
    refine bind (hf a List.mem_cons_self) fun b => ?_
    exact bind (ih fun c hc => hf c (List.mem_cons_of_mem a hc)) fun _ => Keeps.pure _

end Keeps

/-- On related states the step has one result, and it leaves related states. -/
def Respects (R : σ → σ → Prop) (x : ExceptT ε (StateM σ) α) : Prop :=
  ∀ s t, R s t → (x.run t).1 = (x.run s).1 ∧ R (x.run s).2 (x.run t).2

namespace Respects

variable {R : σ → σ → Prop} {x : ExceptT ε (StateM σ) α} {f : α → ExceptT ε (StateM σ) β}

theorem pure (a : α) : Respects R (Pure.pure a : ExceptT ε (StateM σ) α) := fun _ _ h => ⟨rfl, h⟩

theorem throw (e : ε) : Respects R (MonadExcept.throw e : ExceptT ε (StateM σ) α) :=
  fun _ _ h => ⟨rfl, h⟩

theorem bind (hx : Respects R x) (hf : ∀ a, Respects R (f a)) : Respects R (x >>= f) := by
  intro s t h
  obtain ⟨hresult, hstates⟩ := hx s t h
  rcases hs : x.run s with ⟨e | a, s'⟩
  case error =>
    rw [hs] at hresult hstates
    rw [run_bind_of_error hs, run_bind_of_error (t := (x.run t).2) (Prod.ext hresult rfl)]
    exact ⟨rfl, hstates⟩
  case ok =>
    rw [hs] at hresult hstates
    rw [run_bind_of_ok hs, run_bind_of_ok (t := (x.run t).2) (Prod.ext hresult rfl)]
    exact hf a s' _ hstates

/-- Related states may differ in what is read of them, as long as the same is done then. -/
theorem get {f : σ → ExceptT ε (StateM σ) β} (hsame : ∀ s t, R s t → f t = f s)
    (hf : ∀ s, Respects R (f s)) : Respects R (MonadState.get >>= f) := by
  intro s t h
  rw [run_get_bind, run_get_bind, hsame s t h]
  exact hf s s t h

end Respects

end Effect

end Corewise
