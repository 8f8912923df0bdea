import Corewise.Lowering.Pass
import Corewise.Proofs.Lowering.Module
/-!
Lowering passes after any requests. The trampoline of a request is made by the first that asks for it; what it was
made from is linked, and declared unless the symbol is declared already.
-/

namespace Corewise.Lowering

/-- A request for a trampoline, with what it is made from if there is none yet. -/
structure Ask where
  request : Request
  artifact : Artifact
  writable : List Bool
  boundsCheck : Bool

namespace Ask

/-- The trampoline that is made. -/
def made (a : Ask) : Trampoline := .of a.request.1 a.artifact a.writable a.boundsCheck

/-- How the entry point is declared: by its name, with the type that it has under its convention. -/
def declaration (a : Ask) : Declaration :=
  ⟨a.artifact.symbol, Trampoline.functionType a.artifact, [.alwaysInline]⟩

end Ask

namespace Pass

def serve (p : Pass) (a : Ask) : Trampoline × Pass :=
  p.trampoline a.request a.artifact a.writable a.boundsCheck

def after (p : Pass) (asks : List Ask) : Pass := asks.foldl (fun p a => (p.serve a).2) p

/-- The asks for which the pass has no trampoline when they come. -/
def missed (p : Pass) : List Ask → List Ask
  | [] => []
  | a :: asks => (if (p.find? a.request).isNone then [a] else []) ++ (p.serve a).2.missed asks

/-- What a pass has after the asks, some of which it has missed: one trampoline for each request, made by the first
that asked for it, the declarations of their symbols, each by the first that was missed, and the libraries of all
that were missed. -/
structure Records (p : Pass) (asks missed : List Ask) : Prop where
  trampolines : p.trampolines = missed.map fun a => (a.request, a.made)
  requests_nodup : (p.trampolines.map (·.1)).Nodup
  find? : ∀ request, p.find? request = (asks.find? (·.request == request)).map Ask.made
  symbols_nodup : (p.module.functions.map (·.name)).Nodup
  declared : ∀ symbol, p.module.find? symbol =
    (missed.find? (·.artifact.symbol == symbol)).map Ask.declaration
  libraries_nodup : p.module.linked.Nodup
  linked : ∀ library, library ∈ p.module.linked ↔ ∃ a ∈ missed, a.artifact.library = library

variable {p : Pass} {asks missed : List Ask} {a : Ask}

theorem find?_isSome (p : Pass) (request : Request) :
    (p.find? request).isSome = true ↔ request ∈ p.trampolines.map (·.1) := by
  rw [find?, List.lookup_isSome_iff, List.mem_map]
  apply exists_congr
  intro kept
  rw [beq_iff_eq, eq_comm]

theorem trampoline_of_some {request : Request} {t : Trampoline} (h : p.find? request = some t)
    (a : Artifact) (writable : List Bool) (boundsCheck : Bool) :
    p.trampoline request a writable boundsCheck = (t, p) := by
  simp only [trampoline, h]

theorem trampoline_of_none {request : Request} (h : p.find? request = none) (a : Artifact)
    (writable : List Bool) (boundsCheck : Bool) :
    p.trampoline request a writable boundsCheck =
      (.of request.1 a writable boundsCheck, ⟨Trampoline.declareIn p.module a,
        p.trampolines ++ [(request, .of request.1 a writable boundsCheck)]⟩) := by
  simp only [trampoline, h]

/-- The requests for which there are trampolines once one has been asked for. -/
theorem requests_trampoline (p : Pass) (request : Request) (a : Artifact) (writable : List Bool)
    (boundsCheck : Bool) : (p.trampoline request a writable boundsCheck).2.trampolines.map (·.1) =
      if request ∈ p.trampolines.map (·.1) then p.trampolines.map (·.1)
      else p.trampolines.map (·.1) ++ [request] := by
  rcases hfound : p.find? request with _ | t
  case none =>
    have habsent : request ∉ p.trampolines.map (·.1) := by
      rw [← find?_isSome, hfound]
      exact Bool.false_ne_true
    rw [trampoline_of_none hfound, if_neg habsent, List.map_append, List.map_singleton]
  case some =>
    rw [trampoline_of_some hfound, if_pos ((p.find?_isSome request).1 (hfound ▸ rfl))]

theorem records_empty (name : String) : (empty name).Records [] [] where
  trampolines := rfl
  requests_nodup := List.nodup_nil
  find? _ := rfl
  symbols_nodup := List.nodup_nil
  declared _ := rfl
  libraries_nodup := List.nodup_nil
  linked library := by
    constructor
    · exact fun h => nomatch h
    · rintro ⟨a, ha, -⟩
      cases ha

theorem serve_of_some {t : Trampoline} (h : p.find? a.request = some t) : p.serve a = (t, p) :=
  trampoline_of_some h ..

theorem serve_of_none (h : p.find? a.request = none) : p.serve a =
    (a.made, ⟨Trampoline.declareIn p.module a.artifact, p.trampolines ++ [(a.request, a.made)]⟩) :=
  trampoline_of_none h ..

/-- A request that has been made before adds nothing. -/
theorem Records.of_some (h : p.Records asks missed) {t : Trampoline} (ht : p.find? a.request = some t) :
    p.Records (asks ++ [a]) missed :=
  { h with
    find? := by
      intro request
      rw [h.find?, List.find?_append]
      by_cases heq : a.request = request
      case pos =>
        obtain ⟨first, hfirst, -⟩ := Option.map_eq_some_iff.1 ((h.find? _).symm.trans ht)
        rw [← heq, hfirst, Option.some_or]
      case neg =>
        rw [List.find?_singleton, beq_eq_false_iff_ne.2 heq]
        exact congrArg _ Option.or_none.symm }

/-- A symbol that is declared already keeps its declaration. -/
theorem find?_declareIn {m : Module} (a : Ask)
    (hm : ∀ symbol d, m.find? symbol = some d → d.attributes = [.alwaysInline]) (symbol : Symbol) :
    (Trampoline.declareIn m a.artifact).find? symbol =
      (m.find? symbol).or (if a.artifact.symbol == symbol then some a.declaration else none) := by
  simp only [Trampoline.declareIn, Module.find?_declare, Module.find?_link]
  by_cases heq : a.artifact.symbol = symbol
  case neg =>
    rw [if_neg (Ne.symm heq), beq_eq_false_iff_ne.2 heq, if_neg Bool.false_ne_true, Option.or_none]
  case pos =>
    subst heq
    rw [if_pos rfl, beq_self_eq_true, if_pos rfl]
    rcases hd : m.find? a.artifact.symbol with _ | d
    case none => rfl
    case some =>
      have hhas : d.has .alwaysInline = true := by
        rw [Declaration.has, hm _ d hd]
        rfl
      exact congrArg some (if_pos hhas)

/-- A request that is new is recorded with what has been made for it. -/
theorem Records.of_none (h : p.Records asks missed) (ha : p.find? a.request = none) :
    (p.serve a).2.Records (asks ++ [a]) (missed ++ [a]) := by
  have hrequests : ((p.serve a).2.trampolines.map (·.1)).Nodup := by
    rw [serve, requests_trampoline]
    exact nodup_ite_concat h.requests_nodup
  have hinline : ∀ symbol d, p.module.find? symbol = some d → d.attributes = [.alwaysInline] := by
    intro symbol d hd
    rw [h.declared, Option.map_eq_some_iff] at hd
    obtain ⟨b, -, rfl⟩ := hd
    rfl
  rw [serve_of_none ha] at hrequests ⊢
  constructor
  case trampolines => rw [h.trampolines, List.map_append, List.map_singleton]
  case requests_nodup => exact hrequests
  case find? =>
    intro request
    show (p.trampolines ++ [(a.request, a.made)]).lookup request = _
    rw [List.lookup_append, List.find?_append, Option.map_or, ← h.find?]
    congr 1
    rw [List.lookup_cons, List.lookup_nil, List.find?_singleton, BEq.comm]
    cases a.request == request <;> rfl
  case symbols_nodup => exact Module.declare_nodup (by rw [Module.functions_link]; exact h.symbols_nodup) _ _ _
  case declared =>
    intro symbol
    rw [find?_declareIn a hinline, h.declared, List.find?_append, Option.map_or, List.find?_singleton]
    cases a.artifact.symbol == symbol <;> rfl
  case libraries_nodup =>
    show (Module.declare _ _ _ _).linked.Nodup
    rw [Module.linked_declare]
    exact Module.link_nodup h.libraries_nodup _
  case linked =>
    intro library
    show library ∈ (Module.declare _ _ _ _).linked ↔ _
    rw [Module.linked_declare, Module.mem_linked_link, h.linked]
    simp only [List.mem_append, List.mem_singleton, or_and_right, exists_or, exists_eq_left]
    rw [eq_comm (a := library)]

theorem Records.serve (h : p.Records asks missed) (a : Ask) :
    (p.serve a).2.Records (asks ++ [a])
      (missed ++ if (p.find? a.request).isNone then [a] else []) := by
  rcases ha : p.find? a.request with _ | t
  case none => exact h.of_none ha
  case some =>
    rw [serve_of_some ha]
    simpa using h.of_some ha

theorem Records.after (h : p.Records asks missed) (more : List Ask) :
    (p.after more).Records (asks ++ more) (missed ++ p.missed more) := by
  induction more generalizing p asks missed with
  | nil => simpa [Pass.after, Pass.missed] using h
  | cons a more ih =>
    have hrest := ih (h.serve a)
    rw [List.append_assoc, List.append_assoc] at hrest
    exact hrest

/-- What is declared are the symbols of the trampolines. -/
theorem Records.declared_iff (h : p.Records asks missed) (symbol : Symbol) :
    (∃ d ∈ p.module.functions, d.name = symbol) ↔ ∃ kept ∈ p.trampolines, kept.2.symbol = symbol := by
  have hfound : (∃ d ∈ p.module.functions, d.name = symbol) ↔ (p.module.find? symbol).isSome = true := by
    rw [Module.find?, List.find?_isSome]
    simp only [decide_eq_true_eq]
  rw [hfound, h.declared, Option.isSome_map, List.find?_isSome, h.trampolines]
  simp only [beq_iff_eq, List.mem_map, exists_exists_and_eq_and]
  rfl

/-- What is given for a request is what the first that asked for it has made. -/
theorem Records.serve_fst (h : p.Records asks missed) (a : Ask) :
    (p.serve a).1 = ((asks.find? (·.request == a.request)).getD a).made := by
  have hfind := h.find? a.request
  rcases ha : p.find? a.request with _ | t
  case none =>
    rw [ha] at hfind
    rw [serve_of_none ha, Option.map_eq_none_iff.1 hfind.symm, Option.getD_none]
  case some =>
    obtain ⟨first, hfirst, hmade⟩ := Option.map_eq_some_iff.1 (hfind.symm.trans ha)
    rw [serve_of_some ha, hfirst, Option.getD_some, hmade]

/-- Whatever a pass is asked for, it keeps one trampoline for each request, from the first that asked for it; it
declares the symbols of its trampolines and no others, and links the libraries of what it has missed. -/
theorem declares_and_links (name : String) (asks : List Ask) :
    ((empty name).after asks).Records asks ((empty name).missed asks) ∧
    (∀ symbol, (∃ d ∈ ((empty name).after asks).module.functions, d.name = symbol) ↔
      ∃ kept ∈ ((empty name).after asks).trampolines, kept.2.symbol = symbol) ∧
    ∀ a, (((empty name).after asks).serve a).1 =
      ((asks.find? (·.request == a.request)).getD a).made := by
  have h := (records_empty name).after asks
  exact ⟨h, h.declared_iff, h.serve_fst⟩

/-- A request for elements of one type, and a kernel that was compiled for the same type. -/
def fillAsk (symbol library : String) (operand : OperandType) (entry : Body) : Ask :=
  ⟨(.void [operand], [.int64]), ⟨.named symbol, library, .void [operand], entry⟩, [], false⟩

def fillScalar : Ask := fillAsk "fill" "one" (.scalar .int64) (.native fun _ => .done)

def fillRow : Ask := fillAsk "fill" "two" (.anyArray .int64 1) (.object fun _ => .done)

/-- The request of `fillScalar`, with another kernel. -/
def fillAgain : Ask := fillAsk "other" "three" (.scalar .int64) (.native fun _ => .done)

/-- Two trampolines share a symbol, which is declared for the first of them, and the kernel that comes with a repeated
request is not used. -/
theorem declares_and_links_shared :
    ((empty "fill").after [fillScalar, fillRow, fillAgain]).trampolines =
      [(fillScalar.request, fillScalar.made), (fillRow.request, fillRow.made)] ∧
    ((empty "fill").after [fillScalar, fillRow, fillAgain]).module =
      ⟨"fill", [⟨.named "fill", ⟨.none, [.scalar .int64]⟩, [.alwaysInline]⟩], ["one", "two"]⟩ ∧
    (((empty "fill").after [fillScalar, fillRow]).serve fillAgain).1 = fillScalar.made := by
  obtain ⟨h, -, -⟩ := declares_and_links "fill" [fillScalar, fillRow, fillAgain]
  obtain ⟨-, -, hgiven⟩ := declares_and_links "fill" [fillScalar, fillRow]
  exact ⟨h.trampolines, by decide +kernel, hgiven fillAgain⟩

end Pass

end Corewise.Lowering
