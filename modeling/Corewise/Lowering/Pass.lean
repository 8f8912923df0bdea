import Corewise.Lowering.Trampoline
/-!
Lowering passes: one module, and the trampolines made so far. There is one trampoline for each pair
of element types and loop key, made at the first request for it.
-/

namespace Corewise.Lowering

/-- What trampolines are told apart by: types of the elements, and key of the loop. -/
abbrev Request := CallSignature × List DType

structure Pass where
  module : Module
  trampolines : List (Request × Trampoline)

namespace Pass

def empty (name : String) : Pass := ⟨.empty name, []⟩

def size (p : Pass) : Nat := p.trampolines.length

def find? (p : Pass) (request : Request) : Option Trampoline := p.trampolines.lookup request

/-- The trampoline for a request, made from the artifact unless it is there. -/
def trampoline (p : Pass) (request : Request) (a : Artifact) (writable : List Bool)
    (boundsCheck : Bool) : Trampoline × Pass :=
  match p.find? request with
  | some t => (t, p)
  | none =>
    let t := Trampoline.of request.1 a writable boundsCheck
    (t, ⟨Trampoline.declareIn p.module a, p.trampolines ++ [(request, t)]⟩)

end Pass

end Corewise.Lowering
