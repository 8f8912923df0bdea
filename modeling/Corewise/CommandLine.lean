import Corewise.Casting
import Corewise.CoreSignature.Parser
import Corewise.CoreSignature.Report
import Corewise.Dispatch
import Corewise.Files
import Corewise.Snapshot.Text
/-!
The command line. `signature` prints what a core signature says, `inspect` prints the
specializations of a saved snapshot.
-/

namespace Corewise.CommandLine

inductive Topic where
  | program | signature | inspect | help
  deriving DecidableEq, Repr

inductive Command where
  | signature (text : String)
  | inspect (path : String)
  | version
  | help (topic : Topic)
  deriving DecidableEq, Repr

def programName : String := "dyngufunc"

def version : String := "0.1.0"

namespace Command

def isHelpFlag (arg : String) : Bool := arg == "--help" || arg.startsWith "-h"

/-- An argument that is no flag: a single dash is none either. -/
def isFlag (arg : String) : Bool := arg.startsWith "-" && arg != "-"

/-- The command with one argument. A path is not empty. -/
def ofOperand? (topic : Topic) (arg : String) : Option Command :=
  match topic with
  | .signature => some (.signature arg)
  | .inspect => if arg = "" then none else some (.inspect arg)
  | _ => none

/-- The one argument of a subcommand. Behind `--` every argument stands for itself, and a request
for help counts only before the first argument too many. -/
def parseOperand (topic : Topic) : (found : Option Command) → List String → Option Command
  | found, [] => found
  | found, arg :: rest =>
    if arg = "--" then
      match found, rest with
      | some command, [] => some command
      | none, [text] => ofOperand? topic text
      | _, _ => none
    else if isHelpFlag arg then some (.help topic)
    else if isFlag arg then none
    else
      match found, ofOperand? topic arg with
      | none, some command => parseOperand topic (some command) rest
      | _, _ => none

def parseTopic : List String → Option Command
  | [] => some (.help .program)
  | ["signature"] => some (.help .signature)
  | ["inspect"] => some (.help .inspect)
  | ["help"] => some (.help .help)
  | _ => none

/-- Reads the arguments; none when they are not understood. -/
def parse : List String → Option Command
  | [] => none
  | arg :: rest =>
    if arg = "--version" ∨ arg.startsWith "-V" then some .version
    else if isHelpFlag arg then some (.help .program)
    else if arg = "signature" then parseOperand .signature none rest
    else if arg = "inspect" then parseOperand .inspect none rest
    else if arg = "help" then parseTopic rest
    else none

end Command

/-- What a run prints, and its exit status. -/
structure Outcome where
  status : Nat
  output : String
  errors : String
  deriving DecidableEq, Repr

def joinLines (lines : List String) : String := String.join (lines.map (· ++ "\n"))

def success (lines : List String) : Outcome := ⟨0, joinLines lines, ""⟩

/-- An error that says so of itself has been reported already. -/
def errorText (text details : String) : String :=
  if (text.splitOn "signature parsing failed").length = 1 then "Error: " ++ text ++ details ++ "\n"
  else ""

def operandLine (core : Core) : String :=
  "(" ++ String.intercalate "," core ++ ") rank " ++ toString core.length

/-- The operands of a core signature, or the report of what is wrong in its text. -/
def describeSignature (text : String) : Outcome :=
  match CoreSignature.parse text with
  | .error e => ⟨1, "", e.report⟩
  | .ok s =>
    let inputs := s.inputs.zipIdx.map fun p => "  input " ++ toString p.2 ++ ": " ++ operandLine p.1
    let warning :=
      if s.unboundOutputs = [] then []
      else
        ["warning output dimensions not bound by any input: " ++
          String.intercalate ", " s.unboundOutputs]
    success (["signature " ++ s.render] ++ inputs ++ ["  output: " ++ operandLine s.output] ++
      warning)

/-- One line for each specialization, up to the first without element types. -/
def specializationLines (arity : Nat) : List CallSignature → List String × Option Error
  | [] => ([], none)
  | call :: calls =>
    match elementTypes call.args with
    | .error e => ([], some e)
    | .ok types =>
      let (lines, failure) := specializationLines arity calls
      (("  " ++ Dispatch.loopCode arity types ++ "  " ++ call.display) :: lines, failure)

def describeSnapshot (s : Snapshot) : Outcome :=
  match CoreSignature.parse s.signature with
  | .error e => ⟨1, "", errorText e.message ""⟩
  | .ok signature =>
    let head :=
      ["kernel " ++ s.kernel,
        "  signature: " ++ s.signature,
        "  dynamic: " ++ toString s.isDynamic ++ "  frozen: " ++ toString s.frozen,
        "  identity: " ++ s.identity.title,
        "specializations " ++ toString s.specializations.length]
    let (lines, failure) := specializationLines signature.arity s.specializations
    match failure with
    | none => success (head ++ lines)
    | some e => ⟨1, joinLines (head ++ lines), errorText e.message ""⟩

/-- A text whose lines stand under its first one. -/
def indented (text : String) : String := "    " ++ text.replace "\n" "\n    "

/-- Reports a file that cannot be loaded. -/
def loadFailure (path cause : String) : Outcome :=
  ⟨1, "", errorText ("failed to load " ++ path)
    ("\n\nCaused by:\n" ++ indented (Error.serialization cause).message)⟩

/-- Reads a saved snapshot; the content of the file, or why it cannot be read. -/
def inspect (path : String) (file : Except FileFailure String) : Outcome :=
  match file with
  | .error failure => loadFailure path (path ++ ": " ++ failure.message)
  | .ok text =>
    match Snapshot.ofYamlText text with
    | .ok s => describeSnapshot s
    | .error failure => loadFailure path failure.message

def helpOptions (withVersion : Bool) : List String :=
  if withVersion then ["Options:", "  -h, --help     Print help", "  -V, --version  Print version"]
  else ["Options:", "  -h, --help  Print help"]

def signaturePurpose : String := "Parses a dimension signature and prints its operand core ranks"

def inspectPurpose : String := "Prints the specializations recorded in a persisted state file"

def helpPurpose : String := "Print this message or the help of the given subcommand(s)"

def helpText : Topic → List String
  | .program =>
    ["Inspect gufunc signatures and persisted gufunc state", "",
      "Usage: " ++ programName ++ " <COMMAND>", "",
      "Commands:",
      "  signature  " ++ signaturePurpose,
      "  inspect    " ++ inspectPurpose,
      "  help       " ++ helpPurpose, ""] ++ helpOptions true
  | .signature =>
    [signaturePurpose, "", "Usage: " ++ programName ++ " signature <TEXT>", "",
      "Arguments:", "  <TEXT>  ", ""] ++ helpOptions false
  | .inspect =>
    [inspectPurpose, "", "Usage: " ++ programName ++ " inspect <PATH>", "",
      "Arguments:", "  <PATH>  ", ""] ++ helpOptions false
  | .help =>
    [helpPurpose, "", "Usage: " ++ programName ++ " help [COMMAND]...", "",
      "Arguments:",
      "  [COMMAND]...  Print help for the subcommand(s)"]

/-- Arguments that are not understood. -/
def usageFailure : Outcome :=
  ⟨2, "", joinLines ["Usage: " ++ programName ++ " <COMMAND>", "",
    "For more information, try '--help'."]⟩

/-- Runs a command whose file, if it names one, has been read. -/
def run (command : Command) (file : Except FileFailure String) : Outcome :=
  match command with
  | .signature text => describeSignature text
  | .inspect path => inspect path file
  | .version => success [programName ++ " " ++ version]
  | .help topic => success (helpText topic)

end Corewise.CommandLine
