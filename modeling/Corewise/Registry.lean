import Corewise.Compiler
/-!
Registries of specializations. Entries are only ever appended, and three indexes answer look-ups:
by call signature, by all element types and by the element types of the inputs. Entries differ in
their call signatures; where several share their element types, the index names the first.
-/

namespace Corewise

/-- Positions by key. -/
structure Index (α : Type) where
  positions : List (α × Nat)
  deriving Repr

namespace Index

def empty {α : Type} : Index α := ⟨[]⟩

def find? {α : Type} [BEq α] (i : Index α) (key : α) : Option Nat := i.positions.lookup key

/-- The new position hides one that was entered under the key before. -/
def insert {α : Type} (i : Index α) (key : α) (position : Nat) : Index α :=
  ⟨(key, position) :: i.positions⟩

/-- A position that was entered under the key before stays. -/
def insertIfNew {α : Type} [BEq α] (i : Index α) (key : α) (position : Nat) : Index α :=
  if (i.find? key).isSome then i else ⟨i.positions ++ [(key, position)]⟩

end Index

/-- A kernel compiled for one call signature, with the element types of all its operands. -/
structure Specialization where
  signature : CallSignature
  key : List DType
  artifact : Artifact

/-- Its element types, split after the inputs. -/
def Specialization.types (arity : Nat) (s : Specialization) : LoopTypes :=
  ⟨s.key.take arity, s.key.drop arity⟩

structure Registry where
  recipe : Recipe
  entries : List Specialization
  bySignature : Index CallSignature
  byKey : Index (List DType)
  byInputs : Index (List DType)

namespace Registry

def empty (recipe : Recipe) : Registry := ⟨recipe, [], .empty, .empty, .empty⟩

def arity (r : Registry) : Nat := r.recipe.signature.arity

def signatures (r : Registry) : List CallSignature := r.entries.map (·.signature)

def contains (r : Registry) (call : CallSignature) : Bool := (r.bySignature.find? call).isSome

/-- The entry with exactly these element types, of the inputs alone or of all operands. -/
def find? (r : Registry) (query : List DType) : Option Specialization := do
  let position ←
    if query.length = r.arity then r.byInputs.find? query else r.byKey.find? query
  r.entries[position]?

/-- An entry that accepts these element types, with what they are widened to. -/
def findCompatible? (r : Registry) (query : List DType) : Option (List DType × Specialization) := do
  let selected ← Dispatch.select (Specialization.types r.arity) r.entries r.arity query
  let widened := (selected.types r.arity).all.take query.length
  let entry ← r.find? widened
  return (widened, entry)

/-- The registry with one more entry. -/
def append (r : Registry) (s : Specialization) : Registry :=
  let position := r.entries.length
  { r with
    entries := r.entries ++ [s]
    bySignature := r.bySignature.insert s.signature position
    byKey := r.byKey.insertIfNew s.key position
    byInputs := r.byInputs.insertIfNew (s.key.take r.arity) position }

/-- The entry for a call signature, compiled unless it is there already. A failure leaves the
registry as it is. -/
def insert (r : Registry) (call : CallSignature) (engine : Engine) :
    Except Error Specialization × Registry × Engine :=
  match (r.bySignature.find? call).bind (r.entries[·]?) with
  | some entry => (.ok entry, r, engine)
  | none =>
    match elementTypes call.args with
    | .error e => (.error e, r, engine)
    | .ok key =>
      match Compiler.compile r.recipe call engine with
      | (.error e, engine) => (.error e, r, engine)
      | (.ok artifact, engine) =>
        let entry : Specialization := ⟨call, key, artifact⟩
        (.ok entry, r.append entry, engine)

end Registry

/-- How a look-up was satisfied. -/
inductive Resolution.Kind where
  /-- An entry has exactly these element types. -/
  | exact
  /-- An entry accepts them. -/
  | compatible
  | compiled
  deriving DecidableEq, Repr

def Resolution.Kind.name : Resolution.Kind → String
  | .exact => "Exact"
  | .compatible => "Compatible"
  | .compiled => "Compiled"

structure Resolution where
  signature : CallSignature
  /-- The element types asked for, widened to those of the entry. -/
  types : List DType
  kind : Resolution.Kind
  deriving DecidableEq, Repr

namespace Registry

/-- A compatible entry, whose kind says whether widening changed anything. -/
def resolveFrozen (r : Registry) (function : String) (query : List DType) :
    Except Error Resolution :=
  match r.findCompatible? query with
  | some (widened, entry) =>
    .ok ⟨entry.signature, widened, if widened = query then .exact else .compatible⟩
  | none => .error (.noMatch function query)

/-- A stored entry for the element types, or a newly compiled one. A frozen look-up takes any
compatible entry; otherwise only an exact one will do, and failing that `mayCompile` decides
between compiling and a compatible entry. -/
def resolve (r : Registry) (function : String) (query : List DType)
    (frozen mayCompile : Bool) (engine : Engine) :
    Except Error Resolution × Registry × Engine :=
  if frozen then (r.resolveFrozen function query, r, engine)
  else
    match r.find? query with
    | some entry => (.ok ⟨entry.signature, query, .exact⟩, r, engine)
    | none =>
      if mayCompile then
        match r.insert (Dispatch.synthesize r.recipe.signature query) engine with
        | (.error e, r, engine) => (.error e, r, engine)
        | (.ok _, r, engine) =>
          match r.find? query with
          | some entry => (.ok ⟨entry.signature, query, .compiled⟩, r, engine)
          | none => (.error (.noMatch function query), r, engine)
      else
        match r.findCompatible? query with
        | some (widened, entry) => (.ok ⟨entry.signature, widened, .compatible⟩, r, engine)
        | none => (.error (.noMatch function query), r, engine)

end Registry

end Corewise
