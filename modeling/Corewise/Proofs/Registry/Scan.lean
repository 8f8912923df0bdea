import Corewise.Proofs.Registry
/-!
Registries after any requests. Their indexes answer as a scan of the entries in order would, and a request
leaves the entries that are there as and where they are.
-/

namespace Corewise

/-- The value is at this position of the list, and at no position before it. -/
def IsFirst {α : Type} (l : List α) (a : α) (i : Nat) : Prop :=
  l[i]? = some a ∧ ∀ j < i, l[j]? ≠ some a

theorem isFirst_iff_of_nodup {α : Type} {l : List α} (h : l.Nodup) {a : α} {i : Nat} :
    IsFirst l a i ↔ l[i]? = some a := by
  refine ⟨And.left, fun hi => ⟨hi, fun j hj hj' => ?_⟩⟩
  have hlt : j < l.length := (List.getElem?_eq_some_iff.1 hj').1
  exact absurd ((List.getElem?_inj hlt h).1 (hj'.trans hi.symm)) (Nat.ne_of_lt hj)

theorem Index.Tracks.find?_eq_some {α : Type} [BEq α] [LawfulBEq α] {i : Index α} {keys : List α}
    (h : i.Tracks keys) {key : α} {position : Nat} :
    i.find? key = some position ↔ IsFirst keys key position := by
  rw [h key, List.idxOf?_eq_some_iff]
  constructor
  case mp =>
    rintro ⟨hlt, hkey, hbefore⟩
    refine ⟨List.getElem?_eq_some_iff.2 ⟨hlt, hkey⟩, fun j hj hj' => ?_⟩
    exact hbefore j hj (List.getElem?_eq_some_iff.1 hj').2
  case mpr =>
    rintro ⟨hi, hbefore⟩
    obtain ⟨hlt, hkey⟩ := List.getElem?_eq_some_iff.1 hi
    exact ⟨hlt, hkey, fun j hj hj' => hbefore j hj (List.getElem?_eq_some_iff.2 ⟨_, hj'⟩)⟩

namespace Registry

/-- A registry after any requests, whatever compiler answered each of them. -/
inductive Reachable : Registry → Prop
  | empty (recipe : Recipe) : Reachable (.empty recipe)
  | insert {r : Registry} (h : Reachable r) (call : CallSignature) (engine : Engine) :
      Reachable (r.insert call engine).2.1

variable {r : Registry} {call : CallSignature} {engine : Engine}

theorem Reachable.sound (h : r.Reachable) : r.Sound := by
  induction h with
  | empty recipe => exact sound_empty recipe
  | insert _ call engine ih => exact ((ih.insert call engine).grows ih).sound

theorem Insertion.of_error {result : Except Error Specialization × Registry × Engine}
    (hi : Insertion r call engine result) {e : Error} (he : result.1 = .error e) :
    result.2.1 = r := by
  cases hi with
  | present => cases he
  | untyped => rfl
  | refused => rfl
  | compiled => cases he

/-- The indexes of a registry find what a scan of its entries finds first. A request that fails changes
nothing, and any other at most puts one entry behind those that were there. -/
theorem Reachable.indexes_scan (h : r.Reachable) :
    r.signatures.Nodup ∧
    (∀ call position, r.bySignature.find? call = some position ↔
      r.signatures[position]? = some call) ∧
    (∀ key position, r.byKey.find? key = some position ↔
      IsFirst (r.entries.map (·.key)) key position) ∧
    (∀ inputs position, r.byInputs.find? inputs = some position ↔
      IsFirst (r.entries.map (·.key.take r.arity)) inputs position) ∧
    (∀ s ∈ r.entries, elementTypes s.signature.args = .ok s.key ∧ s.key.length = r.arity + 1) ∧
    (∀ query, r.find? query = r.entries.find? fun s =>
      (if query.length = r.arity then s.key.take r.arity else s.key) == query) ∧
    (∀ call engine e, (r.insert call engine).1 = .error e → (r.insert call engine).2.1 = r) ∧
    ∀ call engine, r.entries <+: (r.insert call engine).2.1.entries := by
  have hr := h.sound
  refine ⟨hr.distinct, ?signature, ?key, ?inputs, ?types, hr.find?_eq, ?failing, ?appending⟩
  case signature =>
    intro call position
    rw [hr.bySignature.find?_eq_some]
    exact isFirst_iff_of_nodup hr.distinct
  case key => exact fun key position => hr.byKey.find?_eq_some
  case inputs => exact fun inputs position => hr.byInputs.find?_eq_some
  case types => exact fun s hs => ⟨(hr.valid s hs).key, (hr.valid s hs).length_key⟩
  case failing => exact fun call engine e he => (hr.insert call engine).of_error he
  case appending => exact fun call engine => ((hr.insert call engine).grows hr).entries

/-- A signature for `(n)->(n)` on 64-bit floats in the given layout. -/
def floatRows (layout : Layout) : CallSignature :=
  .void [.array .float64 1 layout, .array .float64 1 layout]

/-- A registry for `(n)->(n)` with one entry, for 64-bit floats in any layout. -/
def oneLayout : Registry :=
  ((empty ⟨⟨"copy", none, .native fun _ => .done, 0⟩, ⟨[["n"]], ["n"]⟩, .default⟩).insert
    (floatRows .any) .fresh).2.1

/-- It was asked for another layout of the same element types, and before that for a signature without an
output. -/
def twoLayouts : Registry :=
  ((oneLayout.insert ⟨[.array .float64 1 .any], .none⟩ .fresh).2.1.insert (floatRows .c) .fresh).2.1

theorem reachable_twoLayouts : twoLayouts.Reachable := .insert (.insert (.insert (.empty _) ..) ..) ..

/-- Both layouts are found by signature, and only the older by element types. -/
theorem Reachable.indexes_scan_twoLayouts :
    twoLayouts.bySignature.find? (floatRows .c) = some 1 ∧
    twoLayouts.byKey.find? [.float64, .float64] = some 0 ∧
    (twoLayouts.find? [.float64]).map (·.signature) = some (floatRows .any) ∧
    (twoLayouts.insert ⟨[], .none⟩ .fresh).2.1 = twoLayouts := by
  obtain ⟨-, hsignature, hkey, -, -, hfind, hfailing, -⟩ :=
    Reachable.indexes_scan reachable_twoLayouts
  refine ⟨(hsignature _ _).2 (by decide +kernel), (hkey _ _).2 ⟨by decide +kernel, nofun⟩, ?_, ?_⟩
  · rw [hfind]
    rfl
  · exact hfailing _ _ _ rfl

end Registry

end Corewise
