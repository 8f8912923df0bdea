import Corewise.CommandLine
/-!
The program: reads the file that the command names, and prints what the command says.
-/

open Corewise CommandLine

/-- Why the system has not read a file. -/
def failureOf (e : IO.Error) : FileFailure :=
  match e with
  | .noFileOrDirectory .. => .notFound
  | .inappropriateType _ code _ | .invalidArgument _ code _ =>
    (FileFailure.ofCode? code.toNat).getD (.other (toString e))
  | e => .other (toString e)

/-- The content of a file, or why it cannot be read. -/
def readFile (path : String) : IO (Except FileFailure String) := do
  try
    return .ok (← IO.FS.readFile path)
  catch e => return .error (failureOf e)

def main (args : List String) : IO UInt32 := do
  let outcome ←
    match Command.parse args with
    | none => pure usageFailure
    | some command => do
      let file ←
        match command with
        | .inspect path => readFile path
        | _ => pure (.ok "")
      pure (run command file)
  IO.print outcome.output
  IO.eprint outcome.errors
  return outcome.status.toUInt32
