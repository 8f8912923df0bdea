import Corewise.Proofs.LoopTable
/-!
What calls do to memory, whatever comes of them: they write elements and make outputs, and no array that was
there before changes its type or its shape.
-/

namespace Corewise

/-- What was in memory is there still, and elements of it may have been written. -/
def Execution.Grows (x y : Execution) : Prop := x.memory.Grows y.memory

instance : Std.Refl Execution.Grows := ⟨fun x => .refl x.memory⟩

instance : Trans Execution.Grows Execution.Grows Execution.Grows :=
  ⟨fun h h' => Memory.Grows.trans h h'⟩

theorem Execute.onMemory_grows {α : Type} {a : Action α} (h : Effect.Keeps Memory.Grows a) :
    Effect.Keeps Execution.Grows (Execute.onMemory a) := fun x => h x.memory

namespace LoopTable

variable {t : LoopTable} {loop : Specialization}

theorem allocate_grows (inputs : List Value) (dtype : DType) :
    Effect.Keeps Memory.Grows (t.allocate inputs dtype) := by
  refine Effect.Keeps.get fun m => ?_
  refine Effect.Keeps.bind (fun m => Memory.Grows.refl m) fun shape => ?_
  intro m
  exact Action.newArray_grows fun _ => Buffer.wellFormed_zeros dtype shape

theorem execute_grows (operands : List Value) :
    Effect.Keeps Execution.Grows (t.execute operands loop) := by
  intro x
  rcases hplan : Loop.plan t.signature (x.memory.contentsOf operands) with e | plan
  · rw [execute_of_error hplan]
    exact Std.Refl.refl x
  · rw [execute_of_ok hplan]
    exact Loop.runAll_grows _ x.memory

theorem executeWith_grows (operands : List Value) :
    Effect.Keeps Execution.Grows (t.executeWith operands loop) :=
  executeWith_keeps_of (fun _ _ => Execute.onMemory_grows (allocate_grows _ _)) execute_grows

/-- A call through a table leaves all arrays with their types and shapes. -/
theorem call_grows (args : List Value) (out : Option Value) :
    Effect.Keeps Execution.Grows (t.call args out) :=
  call_keeps_of args out fun _ _ _ => executeWith_grows _

end LoopTable

end Corewise
