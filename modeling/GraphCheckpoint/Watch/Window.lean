import GraphCheckpoint.Live.Hierarchy

/-!
Contract: the changes collected between two writes.

Owns:
- `Window`, the objects changed and the ids removed, kind by kind;
- the rules of collecting: the first object under an id stays, and a removal counts for more than
  any change, before it or after it;
- the delta of a window.

Does not own: who reports changes, or when a window is written.
-/

namespace GraphCheckpoint

/-- The part of a window that belongs to one kind. -/
structure WindowPart where
  changed : Table Address
  removed : IdSet
deriving DecidableEq, Repr, Inhabited

namespace WindowPart

def empty : WindowPart := ⟨[], []⟩

def isEmpty (part : WindowPart) : Bool := part.changed.isEmpty && part.removed.isEmpty

/-- Notes a changed object, unless its id has been removed or noted before. -/
def recordChanged (id : String) (address : Address) (part : WindowPart) : WindowPart :=
  if part.removed.contains id then part
  else { part with changed := part.changed.insertNew id address }

/-- Notes a removed id. -/
def recordRemoved (id : String) (part : WindowPart) : WindowPart :=
  ⟨part.changed.erase id, IdSet.insert id part.removed⟩

theorem mem_removed_recordRemoved {id other : String} (part : WindowPart) :
    other ∈ (part.recordRemoved id).removed ↔ other = id ∨ other ∈ part.removed :=
  IdSet.mem_insert part.removed

theorem removed_recordChanged (id : String) (address : Address) (part : WindowPart) :
    (part.recordChanged id address).removed = part.removed := by
  unfold recordChanged
  split <;> rfl

end WindowPart

/-- The changes since the last write. -/
structure Window where
  entities : WindowPart
  locations : WindowPart
  policies : WindowPart
deriving DecidableEq, Repr, Inhabited

namespace Window

def empty : Window := ⟨.empty, .empty, .empty⟩

/-- The part of a kind. -/
def part (window : Window) : ObjectKind → WindowPart
  | .entity => window.entities
  | .location => window.locations
  | .policy => window.policies

/-- Changes the part of a kind. -/
def mapPart (kind : ObjectKind) (change : WindowPart → WindowPart) (window : Window) : Window :=
  match kind with
  | .entity => { window with entities := change window.entities }
  | .location => { window with locations := change window.locations }
  | .policy => { window with policies := change window.policies }

def isEmpty (window : Window) : Bool :=
  window.entities.isEmpty && window.locations.isEmpty && window.policies.isEmpty

def changedCount (window : Window) : Nat :=
  window.entities.changed.length + window.locations.changed.length + window.policies.changed.length

def removedCount (window : Window) : Nat :=
  window.entities.removed.length + window.locations.removed.length + window.policies.removed.length

/-- Notes a changed object under its kind and id. -/
def recordChanged (key : ObjectKey) (address : Address) (window : Window) : Window :=
  window.mapPart key.kind (WindowPart.recordChanged key.id address)

/-- Notes a removed object. -/
def recordRemoved (key : ObjectKey) (window : Window) : Window :=
  window.mapPart key.kind (WindowPart.recordRemoved key.id)

/-- Every object of the window. -/
def addresses (window : Window) : List Address :=
  window.entities.changed.values ++ window.locations.changed.values ++
    window.policies.changed.values

/-- Notes the object at an address as changed. -/
def recordObject (heap : Heap) (address : Address) (window : Window) : Window :=
  match heap.object? address with
  | some object => window.recordChanged object.key address
  | none => window

/-- The locations that change along with an entity: those above and below each one where it is
deployed. -/
def locationsAround (heap : Heap) (address : Address) : List Address :=
  (heap.deployedAt address).flatMap heap.locationsInHierarchy

/-- Notes a changed object and the locations gathered for it. -/
def recordWith (heap : Heap) (address : Address) (gathered : List Address) (window : Window) :
    Window :=
  gathered.foldl (fun current location => current.recordObject heap location)
    (window.recordObject heap address)

/-! ## The delta of a window -/

/-- The records of the changed objects of one kind, and the number of objects that gave none. -/
def recordsOf (heap : Heap) (part : WindowPart) : List (ObjectMemento LiveValue) × Nat :=
  let answers := part.changed.values.filterMap heap.memento?
  (answers.filterMap Except.toOption, (answers.filter fun answer => !answer.isOk).length)

/-- The delta of a window, and the number of objects that failed to give their records. These are
left out of the delta. -/
def toDelta (heap : Heap) (window : Window) : Delta LiveValue × Nat :=
  let (locations, failedLocations) := recordsOf heap window.locations
  let (entities, failedEntities) := recordsOf heap window.entities
  let (policies, failedPolicies) := recordsOf heap window.policies
  let blank : Delta LiveValue :=
    ⟨[], [], [], window.entities.removed, window.locations.removed, window.policies.removed⟩
  ((locations ++ entities ++ policies).foldl (fun delta memento => delta.add memento) blank,
    failedLocations + failedEntities + failedPolicies)

end Window

end GraphCheckpoint
