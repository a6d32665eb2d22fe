import GraphCheckpoint.Handle
import GraphCheckpoint.Table

/-!
Contract: how ids found in documents become references.

Owns:
- `Lookup`, a resolver that may remember what it has resolved;
- the resolver over a fixed table of references;
- the resolver that answers every id with a placeholder of its own.

Does not own: the resolver of a rebind, which is the rebind's arena.
-/

namespace GraphCheckpoint

/-- Resolves the kind, id and expected type of a reference. A failed look-up changes nothing. -/
abbrev Lookup (σ : Type) := ObjectKind → String → Option String → StateT σ Outcome Handle

/-- Fails where both types are known and differ. -/
def checkDeclaredType (kind : ObjectKind) (expected : Option String) (found : Handle) :
    Outcome Unit :=
  match expected, found.declaredType with
  | some wanted, some actual =>
      if wanted = actual then .ok ()
      else .error (Failure.declaredTypeDiffers kind found.id actual wanted)
  | _, _ => .ok ()

/-- A fixed table of references. -/
structure StaticLookup where
  entities : Table Handle
  locations : Table Handle
deriving Inhabited

namespace StaticLookup

def empty : StaticLookup := ⟨[], []⟩

/-- Adds references, each under its id; a later one takes the place of an earlier one. -/
def ofHandles (entities locations : List Handle) : StaticLookup :=
  ⟨Table.ofEntries (entities.map fun handle => (handle.id, handle)),
    Table.ofEntries (locations.map fun handle => (handle.id, handle))⟩

def find (lookup : StaticLookup) (kind : ObjectKind) (id : String) (expected : Option String) :
    Outcome Handle := do
  let table := if kind = .entity then lookup.entities else lookup.locations
  match table.get? id with
  | none => .error (.noSuchObject kind id)
  | some found =>
      checkDeclaredType kind expected found
      return found

/-- The table as a resolver. -/
def resolver {σ : Type} (lookup : StaticLookup) : Lookup σ :=
  fun kind id expected => StateT.lift (lookup.find kind id expected)

end StaticLookup

/-- The placeholders handed out so far, by id. -/
structure PlaceholderLookup where
  entities : Table Handle
  locations : Table Handle
  slots : Slots
deriving Inhabited

namespace PlaceholderLookup

def start (slots : Slots) : PlaceholderLookup := ⟨[], [], slots⟩

/-- The placeholder of an id, made at its first look-up with the type expected then. -/
def resolver : Lookup PlaceholderLookup := fun kind id expected => do
  let state ← get
  let table := if kind = .entity then state.entities else state.locations
  match table.get? id with
  | some found => return found
  | none =>
      let (handle, slots) := state.slots.placeholder id expected
      if kind = .entity then
        set { state with entities := state.entities.insert id handle, slots := slots }
      else set { state with locations := state.locations.insert id handle, slots := slots }
      return handle

end PlaceholderLookup

end GraphCheckpoint
