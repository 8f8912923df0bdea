import Corewise.Kernel
/-!
Libraries of kernels by name. A name stands for one body for good, so what was saved under a name
is found again.
-/

namespace Corewise

/-- Kernels in the order of their registration. -/
structure KernelLibrary where
  kernels : List Kernel

namespace KernelLibrary

def empty : KernelLibrary := ⟨[]⟩

def find? (l : KernelLibrary) (name : String) : Option Kernel :=
  l.kernels.find? fun k => k.name == name

def contains (l : KernelLibrary) (name : String) : Bool := (l.find? name).isSome

/-- Registers a kernel. One that is there already changes nothing, and a name that stands for
another body is refused. -/
def register (l : KernelLibrary) (k : Kernel) : Except Error KernelLibrary :=
  match l.find? k.name with
  | none => .ok ⟨l.kernels ++ [k]⟩
  | some existing => if existing.sameBody k then .ok l else .error (.kernelConflict k.name)

end KernelLibrary

end Corewise
