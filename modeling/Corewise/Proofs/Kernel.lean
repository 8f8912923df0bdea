import Corewise.Compiler
import Corewise.Proofs.Memory
/-!
Kernel bodies at work. A body writes elements and nothing else, it fails only with a text of its own,
and it does the same under either convention.
-/

namespace Corewise

variable {m m' : Memory}

theorem Program.run_grows (program : Program) (operand? : Nat → Option Value) (m : Memory) :
    m.Grows (program.run operand? m).2 := by
  induction program generalizing m with
  | done => exact .refl m
  | fail text => exact .refl m
  | read i offset next ih =>
    unfold Program.run
    split
    · exact ih _ m
    · exact ih _ m
  | write i offset value next ih =>
    unfold Program.run
    split
    case h_1 r _ =>
      split
      case h_1 b hset =>
        obtain ⟨hdtype, hshape, hwf⟩ := Buffer.setFlat_eq_ok hset
        have hstore := Memory.grows_store hdtype hshape fun hm => hwf (hm.buffer r)
        exact hstore.trans (ih true _)
      case h_2 => exact ih false m
    case h_2 => exact ih false m

theorem Program.run_invocations (program : Program) (operand? : Nat → Option Value) (m : Memory) :
    (program.run operand? m).2.invocations = m.invocations := by
  induction program generalizing m with
  | done => rfl
  | fail text => rfl
  | read i offset next ih =>
    unfold Program.run
    split
    · exact ih _ m
    · exact ih _ m
  | write i offset value next ih =>
    unfold Program.run
    split
    · split
      · exact ih true _
      · exact ih false m
    · exact ih false m

namespace Body

/-- The program of a body for operands as seen before it starts. Every box is full. -/
def program : Body → List OperandView → Program
  | native body, views => body views
  | object body, views => body (views.map some)

/-- What has been boxed is unboxed as it was, so a body reaches the operands themselves under either
convention. -/
theorem effect_eq (body : Body) (operands : List Value) (m : Memory) :
    body.effect operands m =
      (body.program ((m.contentsOf operands).map Contents.view)).run (operands[·]?) m := by
  have hviews : operands.map m.view = (m.contentsOf operands).map Contents.view := List.map_map.symm
  cases body with
  | native body =>
    rw [← hviews]
    rfl
  | object body =>
    have hboxed (i : Nat) : ((operands.map Object.box)[i]?).bind Object.unbox? = operands[i]? := by
      rw [List.getElem?_map]
      cases operands[i]? <;> rfl
    have hshown : (operands.map Object.box).map (fun box => box.unbox?.map m.view) =
        ((m.contentsOf operands).map Contents.view).map some := by
      rw [← hviews, List.map_map, List.map_map]
      rfl
    show (body _).run (fun i => ((operands.map Object.box)[i]?).bind Object.unbox?) m = _
    rw [hshown]
    exact congrArg (Program.run · _ m) (funext hboxed)

theorem call_run (body : Body) (operands : List Value) (m : Memory) :
    (body.call operands).run m =
      (match (body.effect operands (m.invoked operands)).1 with
        | none => .ok ()
        | some text => .error (.kernel text),
      (body.effect operands (m.invoked operands)).2) := by
  unfold call
  rw [Effect.run_get_bind]
  dsimp only
  rcases body.effect operands (m.invoked operands) with ⟨_ | text, m'⟩ <;> rfl

/-- A body writes elements, and that is all it does to memory. -/
theorem call_grows (body : Body) (operands : List Value) :
    Effect.Keeps Memory.Grows (body.call operands) := by
  intro m
  have hinvoked : m.Grows (m.invoked operands) := Memory.grows_noting _
  rw [call_run, effect_eq]
  exact hinvoked.trans (Program.run_grows _ _ _)

/-- A call is noted, with what the operands held on entry. -/
theorem call_invocations (body : Body) (operands : List Value) (m : Memory) :
    ((body.call operands).run m).2.invocations = m.invocations ++ [m.contentsOf operands] := by
  rw [call_run, effect_eq]
  exact Program.run_invocations _ _ _

/-- The body ends with this text when it is called on operands that hold this. -/
def Raises (body : Body) (text : String) (held : List Contents) : Prop :=
  ∃ operands m, m.contentsOf operands = held ∧
    ((body.call operands).run m).1 = .error (.kernel text)

/-- The last invocation of all ended with this text. -/
def RaisedIn (body : Body) (text : String) (m : Memory) : Prop :=
  ∃ held, m.invocations.getLast? = some held ∧ body.Raises text held

theorem call_error {body : Body} {operands : List Value} {e : Error}
    (h : (body.call operands).run m = (.error e, m')) :
    ∃ text, e = .kernel text ∧ body.RaisedIn text m' := by
  have hlast := call_invocations body operands m
  have hrun := h
  rw [h] at hlast
  rw [call_run] at hrun
  generalize (body.effect operands (m.invoked operands)).1 = failure at hrun
  cases failure with
  | none => cases hrun
  | some text =>
    cases hrun
    refine ⟨text, rfl, m.contentsOf operands, ?_, operands, m, rfl, congrArg Prod.fst h⟩
    rw [hlast, List.getLast?_concat]

/-- An invocation that was noted since ended with this text. It was the last one of all if none run at the
same time. -/
structure Raised (body : Body) (parallel : Bool) (text : String) (m m' : Memory) : Prop where
  since : ∃ noted held, m'.invocations = m.invocations ++ noted ∧ held ∈ noted ∧ body.Raises text held
  last : parallel = false → body.RaisedIn text m'

end Body

/-- Compiling does not change what a body does: every box is full. -/
theorem Compiler.bind_call {kernel : Kernel} {options : Options} {entry : Body}
    (h : bind kernel options = .ok entry) : entry.call = kernel.body.call := by
  have hprogram : entry.program = kernel.body.program := by
    unfold bind at h
    split at h
    case h_1 body hbody =>
      split at h
      · cases h
      · cases h
        rw [hbody]
    case h_2 body hbody =>
      rw [hbody]
      split at h
      · cases h
        funext views
        have hunbox : Body.unbox? (views.map some) = some views := by
          rw [Body.unbox?, List.mapM_map]
          exact (List.mapM_pure (m := Option) (f := id)).trans (congrArg some (List.map_id views))
        show Body.boxed _ body (views.map some) = body views
        rw [Body.boxed, hunbox]
      · cases h
        rfl
  funext operands
  unfold Body.call
  congr 1
  funext m
  rw [Body.effect_eq, Body.effect_eq, hprogram]

end Corewise
