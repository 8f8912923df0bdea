import Corewise.Loop
/-!
Running iterations at the same time. An iteration takes its steps one by one. Each step reads or writes
one array, which is locked meanwhile, or calls the kernel on copies, so the steps of several iterations
come in some order. A schedule says whose turn it is; what it leaves undone is done in ascending order,
except that no iteration is begun any more once one has failed.
-/

namespace Corewise.Loop

/-- An element with the operand that it is put back to. -/
abbrev Return := (Value × Access) × Contents

/-- How far an iteration has come. -/
inductive Task where
  | waiting (flat : Nat)
  /-- These elements have been copied, and those of the other operands are still to be copied. -/
  | reading (flat : Nat) (elements : List Contents) (rest : List (Value × Access))
  /-- The kernel is done, and these elements are still to be put back. -/
  | returning (rest : List Return)
  | failed (e : Error)

namespace Task

def isWaiting : Task → Bool
  | waiting _ => true
  | _ => false

def error? : Task → Option Error
  | failed e => some e
  | _ => none

end Task

section

variable (signature : CoreSignature) (plan : Plan) (operands : List Value) (writable : List Bool)
  (callee : Callee)

namespace Task

/-- One step of an iteration. -/
def step : Memory × Task → Memory × Task
  | (m, waiting flat) => (m, reading flat [] (addressed signature plan operands writable flat))
  | (m, reading flat elements (p :: rest)) =>
    match element m p.2 p.1 with
    | .ok e => (m, reading flat (elements ++ [e]) rest)
    | .error e => (m, failed e)
  | (m, reading flat elements []) =>
    let made := outcome callee elements
    match made.result with
    | .ok _ =>
      (m.noting made.noted,
        returning ((addressed signature plan operands writable flat).zip made.after))
    | .error e => (m.noting made.noted, failed e)
  | (m, returning (t :: rest)) =>
    match (put t.1.2 t.1.1 t.2).run m with
    | (.ok _, m) => (m, returning rest)
    | (.error e, m) => (m, failed e)
  | (m, returning []) => (m, returning [])
  | (m, failed e) => (m, failed e)

def steps : Nat → Memory × Task → Memory × Task
  | 0, s => s
  | count + 1, s => steps count (step signature plan operands writable callee s)

end Task

/-- The iteration numbered `k` takes some steps. -/
def turn (count : Nat) (s : Memory × List Task) (k : Nat) : Memory × List Task :=
  match s.2[k]? with
  | none => s
  | some task =>
    let (m, task) := Task.steps signature plan operands writable callee count (s.1, task)
    (m, s.2.set k task)

/-- Brings an iteration to its end. One that has not begun is left alone when another has failed. -/
def finish (s : Memory × List Task) (k : Nat) : Memory × List Task :=
  if (s.2[k]?.any Task.isWaiting) ∧ s.2.any (·.error?.isSome) then s
  else turn signature plan operands writable callee (2 * operands.length + 2) s k

/-- All iterations at the same time, taking turns in this order first. -/
def together (turns : List Nat) (m : Memory) : Memory × List Task :=
  (List.range plan.iterations).foldl (finish signature plan operands writable callee)
    (turns.foldl (turn signature plan operands writable callee 1)
      (m, (List.range plan.iterations).map .waiting))

/-- A failure, if there is one. -/
def report (choice : Nat) (tasks : List Task) : Except Error Unit :=
  match tasks.filterMap Task.error? with
  | [] => .ok ()
  | e :: errors => .error ((e :: errors).getD choice e)

/-- All iterations at the same time, in the turns that the memory has scheduled for them. -/
def runTogether : Action Unit := ExceptT.mk fun m =>
  let (after, tasks) := together signature plan operands writable callee m.schedule.turns m
  (report m.schedule.report tasks, after)

/-- All iterations, at the same time or in ascending order. -/
def runAll (parallel : Bool) : Action Unit :=
  if parallel then runTogether signature plan operands writable callee
  else run signature plan operands writable callee

end

end Corewise.Loop
