import GraphCheckpoint.Live.Heap
import GraphCheckpoint.Lookup

/-!
Contract: the arena of a rebind, in which every id has one slot.

Owns:
- `Arena`, the slots of all ids met so far, over the heap in which they are made;
- the look-up that decoding uses, registration of records, and binding of new objects;
- the check that every id met has a record.

Does not own: the order of these steps.

An id keeps the kind and the declared type with which it was met first. All references to it share
its slot, so binding the slot reaches every one of them.
-/

namespace GraphCheckpoint

/-- What is known of an id. -/
structure ArenaEntry where
  kind : ObjectKind
  handle : Handle
  /-- A record of the object has been loaded. -/
  hasRecord : Bool
deriving DecidableEq, Repr, Inhabited

/-- All ids met, over a heap. -/
structure Arena where
  entries : Table ArenaEntry
  heap : Heap
deriving Inhabited

namespace Arena

def start (heap : Heap) : Arena := ⟨[], heap⟩

def size (arena : Arena) : Nat := arena.entries.length

/-- Adds an id with a placeholder. -/
def add (kind : ObjectKind) (id : String) (declaredType : Option String) (hasRecord : Bool)
    (arena : Arena) : Handle × Arena :=
  let (handle, slots) := arena.heap.slots.placeholder id declaredType
  (handle,
    ⟨arena.entries.insert id ⟨kind, handle, hasRecord⟩, { arena.heap with slots := slots }⟩)

/-- The reference to an id. An id met for the first time gets a placeholder with the expected type;
an id met before must be of the kind, and of the type where both types are known. -/
def resolver : Lookup Arena := fun kind id expected => do
  let arena ← get
  match arena.entries.get? id with
  | none =>
      let (handle, arena) := arena.add kind id expected false
      set arena
      return handle
  | some entry =>
      if entry.kind = kind then
        checkDeclaredType kind expected entry.handle
        return entry.handle
      else throw (Failure.kindClash id entry.kind kind)

/-- Notes that a record of the id has been loaded. -/
def register (kind : ObjectKind) (id typeName : String) (arena : Arena) : Outcome Arena :=
  match arena.entries.get? id with
  | none => .ok (arena.add kind id (some typeName) true).2
  | some entry =>
      if entry.kind ≠ kind then .error (Failure.kindClash id entry.kind kind)
      else if entry.hasRecord then
        .error (.invalidState (kind.name ++ " '" ++ id ++ "' was loaded twice"))
      else
        .ok { arena with entries := arena.entries.insert id { entry with hasRecord := true } }

/-- The reference to an id of which a record has been loaded. -/
def reference (arena : Arena) (kind : ObjectKind) (id : String) : Outcome Handle :=
  match arena.entries.get? id with
  | some entry =>
      if entry.hasRecord ∧ entry.kind = kind then .ok entry.handle
      else .error (.noSuchObject kind id)
  | none => .error (.noSuchObject kind id)

/-- The ids met without a record. -/
def missing (arena : Arena) : List ObjectKey :=
  arena.entries.filterMap fun (id, entry) =>
    if entry.hasRecord then none else some ⟨entry.kind, id⟩

/-- The first of some keys in their order. -/
def leastKey : List ObjectKey → Option ObjectKey
  | [] => none
  | key :: rest =>
      match leastKey rest with
      | none => some key
      | some other => if other.before key then some other else some key

/-- Fails for the first id in order that has been met without a record. -/
def checkReferences (arena : Arena) : Outcome Unit :=
  match leastKey arena.missing with
  | some key => .error (.noSuchObject key.kind key.id)
  | none => .ok ()

/-- Binds the slot of an id to the object at an address. -/
def bind (kind : ObjectKind) (id : String) (address : Address) (arena : Arena) : Outcome Arena := do
  let handle ← arena.reference kind id
  let slots ← arena.heap.slots.bind handle address
  return { arena with heap := { arena.heap with slots := slots } }

end Arena

end GraphCheckpoint
