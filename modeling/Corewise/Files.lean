/-!
Trees of files, and what reading the file at a path gives.
-/

namespace Corewise

/-- Why a file cannot be read. -/
inductive FileFailure where
  | notFound | notDirectory | isDirectory | nameTooLong
  | other (text : String)
  deriving DecidableEq, Repr

namespace FileFailure

/-- The number of the failure. -/
def code? : FileFailure → Option Nat
  | notFound => some 2
  | notDirectory => some 20
  | isDirectory => some 21
  | nameTooLong => some 36
  | other _ => none

def ofCode? (n : Nat) : Option FileFailure :=
  [notFound, notDirectory, isDirectory, nameTooLong].find? fun f => f.code? == some n

def reason : FileFailure → String
  | notFound => "No such file or directory"
  | notDirectory => "Not a directory"
  | isDirectory => "Is a directory"
  | nameTooLong => "File name too long"
  | other text => text

def message (f : FileFailure) : String :=
  f.reason ++ (f.code?.elim "" fun n => " (os error " ++ toString n ++ ")")

end FileFailure

inductive FileTree where
  | file (text : String)
  | directory (entries : List (String × FileTree))
  deriving Inhabited

namespace FileTree

/-- Bytes of the longest name. -/
def maxName : Nat := 255

/-- Bytes of the longest path. -/
def maxPath : Nat := 4095

/-- Follows the parts of a path from a tree with those around it, the innermost first. A file has
no parts, not even itself. -/
def follow : FileTree → List FileTree → List String → Except FileFailure FileTree
  | t, _, [] => .ok t
  | .file _, _, _ => .error .notDirectory
  | .directory entries, outer, part :: parts =>
    if part = "" ∨ part = "." then follow (.directory entries) outer parts
    else if part = ".." then
      match outer with
      | [] => follow (.directory entries) [] parts
      | t :: outer => follow t outer parts
    else if maxName < part.utf8ByteSize then .error .nameTooLong
    else
      match entries.lookup part with
      | none => .error .notFound
      | some t => follow t (.directory entries :: outer) parts

/-- The text of the file at a path. A path that does not start with a slash starts at `here`. -/
def read (root : FileTree) (here path : String) : Except FileFailure String := do
  if path = "" then throw .notFound
  else if maxPath < path.utf8ByteSize then throw .nameTooLong
  else
    let full := if path.startsWith "/" then path else here ++ "/" ++ path
    match ← follow root [] (full.splitOn "/") with
    | .file text => return text
    | .directory _ => throw .isDirectory

end FileTree

end Corewise
