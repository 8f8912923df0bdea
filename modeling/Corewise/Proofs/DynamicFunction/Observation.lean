import Corewise.Proofs.DynamicFunction.Fixed
/-!
What shows of functions. Two machines that match read the same and show the same; and a relation between
machines that the parts of operations cannot tell apart is one that no operation can tell apart.
-/

namespace Corewise

/-- What an operation gives back where it succeeds. -/
inductive Answer where
  | done
  | value (result : Value)
  | signature (call : CallSignature)

namespace Operation

/-- The operation with what it gives back. -/
def respond : Operation → Step Answer
  | .call args out => DynamicFunction.call args out >>= fun v => pure (.value v)
  | .callTable args out => Step.onTable (·.call args out) >>= fun v => pure (.value v)
  | .typeCall types keywords => DynamicFunction.typeCall types keywords >>= fun c => pure (.signature c)
  | .lowerCall args => DynamicFunction.lowerCall args >>= fun v => pure (.value v)
  | .add signature => DynamicFunction.add signature >>= fun _ => pure .done
  | .buildTable => DynamicFunction.buildTable >>= fun _ => pure .done
  | .disableCompile => DynamicFunction.disableCompile >>= fun _ => pure .done

/-- The operands that it is given, the output last. -/
def operands : Operation → List Value
  | .call args out => args ++ out.toList
  | .callTable args out => args ++ out.toList
  | .lowerCall args => args
  | .typeCall _ _ => []
  | .add _ => []
  | .buildTable => []
  | .disableCompile => []

end Operation

/-- What shows of a machine after an operation. -/
structure Observation where
  answer : Except Error Answer
  memory : Memory
  /-- Type codes of the loops in the table. -/
  loops : List String
  specializations : List CallSignature
  compilations : Nat
  frozen : Bool

def Machine.observed (s : Machine) (answer : Except Error Answer) : Observation :=
  ⟨answer, s.memory, s.function.table.codes, s.function.registry.signatures, s.engine.compilations,
    s.function.lifecycle.isFrozen⟩

/-- What shows along a run of operations, each with the memory that it finds. -/
def DynamicFunction.observations (f : DynamicFunction) (engine : Engine) :
    List (Operation × Memory) → List Observation
  | [] => []
  | (operation, m) :: rest =>
    let ran := operation.respond.run ⟨f, engine, m⟩
    ran.2.observed ran.1 :: ran.2.function.observations ran.2.engine rest

namespace Machine

/-- Operations read the same of both machines, and the same shows of them. -/
structure Matches (s t : Machine) : Prop where
  name : t.function.name = s.function.name
  arity : t.function.arity = s.function.arity
  fixed : t.function.lifecycle.isFixed = s.function.lifecycle.isFixed
  frozen : t.function.lifecycle.isFrozen = s.function.lifecycle.isFrozen
  codes : t.function.table.codes = s.function.table.codes
  signatures : t.function.registry.signatures = s.function.registry.signatures
  compilations : t.engine.compilations = s.engine.compilations
  memory : t.memory = s.memory
  selects : ∀ query, (t.function.table.select? query).isNone = (s.function.table.select? query).isNone
  finds : ∀ query, (t.function.specialization? query).isNone = (s.function.specialization? query).isNone

theorem Matches.observed_eq {s t : Machine} (h : s.Matches t) (answer : Except Error Answer) :
    t.observed answer = s.observed answer := by
  rw [observed, observed, h.memory, h.codes, h.signatures, h.compilations, h.frozen]

/-- What a relation between machines has to keep for operations on these operands. -/
structure Simulation (R : Machine → Machine → Prop) (operands : List Value) : Prop where
  matching : ∀ s t, R s t → s.Matches t
  table : ∀ args out, args ++ out.toList = operands → Effect.Respects R (Step.onTable (·.call args out))
  specialized : ∀ s t loop loop', R s t →
    s.function.specialization? (s.memory.dtypes operands) = some loop →
    t.function.specialization? (t.memory.dtypes operands) = some loop' →
    ((Step.onTable (·.executeWith operands loop')).run t).1 =
        ((Step.onTable (·.executeWith operands loop)).run s).1 ∧
      R ((Step.onTable (·.executeWith operands loop)).run s).2
        ((Step.onTable (·.executeWith operands loop')).run t).2
  add : ∀ call, Effect.Respects R (DynamicFunction.add call)
  build : Effect.Respects R DynamicFunction.buildTable
  disable : Effect.Respects R DynamicFunction.disableCompile
  resolve : ∀ function query frozen mayCompile, Effect.Respects R (Step.onRegistry
    fun registry engine => registry.resolve function query frozen mayCompile engine)

namespace Simulation

variable {R : Machine → Machine → Prop} {operands : List Value}

theorem call {args : List Value} {out : Option Value} (h : Simulation R (args ++ out.toList)) :
    Effect.Respects R (DynamicFunction.call args out) := by
  unfold DynamicFunction.call
  apply Effect.Respects.get
  case hsame =>
    intro s t hst
    have hmatch := h.matching s t hst
    dsimp only
    rw [hmatch.fixed, hmatch.arity, hmatch.name, hmatch.memory, hmatch.selects]
  case hf =>
    intro s
    dsimp only
    have htable := h.table (args ++ out.toList) none (List.append_nil _)
    have hresolved : Effect.Respects R
        (if (s.function.table.select? (s.memory.dtypes (args ++ out.toList))).isNone then
          Step.onRegistry (fun registry engine => registry.resolve s.function.name
            (s.memory.dtypes (args ++ out.toList)) false true engine) >>= fun _ =>
            DynamicFunction.buildTable >>= fun _ =>
              Step.onTable (·.call (args ++ out.toList) none)
        else Step.onTable (·.call (args ++ out.toList) none) : Step Value) := by
      split
      · exact (h.resolve _ _ _ _).bind fun _ => h.build.bind fun _ => htable
      · exact htable
    split
    · exact h.table args out rfl
    · split
      · exact (Effect.Respects.throw _).bind fun _ => hresolved
      · exact hresolved

theorem typeCall (h : Simulation R operands) (types : List OperandType)
    (keywords : List (String × OperandType)) :
    Effect.Respects R (DynamicFunction.typeCall types keywords) := by
  unfold DynamicFunction.typeCall
  apply Effect.Respects.get
  case hsame =>
    intro s t hst
    have hmatch := h.matching s t hst
    dsimp only
    simp only [hmatch.arity, hmatch.name, hmatch.frozen, hmatch.finds]
  case hf =>
    intro s
    dsimp only
    have hrest : Effect.Respects R
        (Step.ofExcept (Dispatch.siteTypes s.function.arity types) >>= fun query =>
          if (s.function.specialization? query).isNone then
            Step.onRegistry (fun registry engine => registry.resolve s.function.name query
              s.function.lifecycle.isFrozen (!s.function.lifecycle.isFrozen) engine) >>= fun r =>
              if r.kind = .compiled then DynamicFunction.buildTable >>= fun _ => pure (.void types)
              else pure (.void types)
          else pure (.void types) : Step CallSignature) := by
      apply Effect.Respects.bind (fun _ _ h => ⟨rfl, h⟩)
      intro query
      split
      · refine (h.resolve _ _ _ _).bind fun resolution => ?_
        split
        · exact h.build.bind fun _ => .pure _
        · exact .pure _
      · exact .pure _
    split
    · exact (Effect.Respects.throw _).bind fun _ => hrest
    · exact hrest

theorem lowerCall (h : Simulation R operands) : Effect.Respects R (DynamicFunction.lowerCall operands) := by
  intro s t hst
  have hmatch := h.matching s t hst
  have hspecialized := h.specialized s t
  obtain ⟨f, engine, m⟩ := s
  obtain ⟨g, engine', m'⟩ := t
  obtain rfl : m' = m := hmatch.memory
  have hname : g.name = f.name := hmatch.name
  have hfinds : (g.specialization? (m'.dtypes operands)).isNone =
    (f.specialization? (m'.dtypes operands)).isNone := hmatch.finds _
  rcases hloop : f.specialization? (m'.dtypes operands) with _ | loop
  case none =>
    rw [hloop, Option.isNone_none, Option.isNone_iff_eq_none] at hfinds
    rw [DynamicFunction.lowerCall_of_none hloop, DynamicFunction.lowerCall_of_none hfinds, hname]
    exact ⟨rfl, hst⟩
  case some =>
    rcases hloop' : g.specialization? (m'.dtypes operands) with _ | loop'
    case none =>
      rw [hloop, hloop'] at hfinds
      cases hfinds
    case some =>
      rw [DynamicFunction.lowerCall_of_some hloop, DynamicFunction.lowerCall_of_some hloop']
      exact hspecialized loop loop' hst hloop hloop'

/-- No operation tells the machines apart. -/
theorem respond {operation : Operation} (h : Simulation R operation.operands) :
    Effect.Respects R operation.respond := by
  cases operation with
  | call args out => exact (call h).bind fun _ => .pure _
  | callTable args out => exact (h.table args out rfl).bind fun _ => .pure _
  | typeCall types keywords => exact (h.typeCall types keywords).bind fun _ => .pure _
  | lowerCall args => exact (lowerCall h).bind fun _ => .pure _
  | add signature => exact (h.add signature).bind fun _ => .pure _
  | buildTable => exact h.build.bind fun _ => .pure _
  | disableCompile => exact h.disable.bind fun _ => .pure _

end Simulation

end Machine

end Corewise
