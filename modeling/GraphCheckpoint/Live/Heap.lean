import GraphCheckpoint.Graph
import GraphCheckpoint.Live.Object

/-!
Contract: the heap of live objects.

Owns:
- `Heap`, all objects, all slots of references and all computed values;
- making and changing objects, and references and weak links to them;
- the two operations that link an object below another.

Does not own: when an object is no longer reachable.
-/

namespace GraphCheckpoint

/-- Everything that lives: objects by address, slots and cells. An object that is gone leaves its
address empty. -/
structure Heap where
  objects : Array (Option LiveObject)
  slots : Slots
  cells : Cells
deriving Inhabited

namespace Heap

def empty : Heap := ⟨#[], .empty, .empty⟩

/-- The object at an address, while it lives. -/
def object? (heap : Heap) (address : Address) : Option LiveObject :=
  (heap.objects[address.index]?).join

/-- Puts a new object into the heap. -/
def create (object : LiveObject) (heap : Heap) : Address × Heap :=
  (⟨heap.objects.size⟩, { heap with objects := heap.objects.push (some object) })

/-- Changes the object at an address. -/
def update (address : Address) (change : LiveObject → LiveObject) (heap : Heap) : Heap :=
  { heap with objects := heap.objects.modify address.index (Option.map change) }

/-! ## References -/

/-- A new bound reference to an object, with the object's id and type. -/
def referenceTo (address : Address) (object : LiveObject) (heap : Heap) : Handle × Heap :=
  let (handle, slots) := heap.slots.allocate object.id (some object.typeName) (some address)
  (handle, { heap with slots := slots })

/-- The address that a reference leads to. -/
def target? (heap : Heap) (handle : Handle) : Option Address := heap.slots.target? handle

def isBuilt (heap : Heap) (handle : Handle) : Bool := heap.slots.isBound handle

/-- The object that a reference leads to. -/
def resolve? (heap : Heap) (handle : Handle) : Option LiveObject :=
  (heap.target? handle).bind heap.object?

/-- The weak link of a reference as it leads now. -/
def downgrade (heap : Heap) (handle : Handle) : WeakLink :=
  ⟨handle.id, handle.declaredType, heap.target? handle⟩

/-- The weak link to an object. -/
def linkTo (address : Address) (object : LiveObject) : WeakLink :=
  ⟨object.id, some object.typeName, some address⟩

/-- Where a weak link leads, while the object lives. -/
def follow? (heap : Heap) (link : WeakLink) : Option Address :=
  link.target.filter fun address => (heap.object? address).isSome

/-- A new reference for a weak link: bound while the object lives, else a placeholder. -/
def upgrade (link : WeakLink) (heap : Heap) : Handle × Heap :=
  let (handle, slots) := heap.slots.allocate link.id link.declaredType (heap.follow? link)
  (handle, { heap with slots := slots })

/-! ## Linking -/

/-- Links an entity below another. The child joins the application of its parent, which is the
parent itself where it belongs to none. -/
def addChildEntity (parent child : Address) (heap : Heap) : Heap :=
  match heap.object? parent, heap.object? child with
  | some parentObject, some childObject =>
      let back := linkTo parent parentObject
      let application := (parentObject.entityLinks?.bind EntityLinks.application).getD back
      let (handle, heap) := heap.referenceTo child childObject
      let heap := heap.update child (LiveObject.mapEntityLinks fun links =>
        { links with parent := some back, application := some application })
      heap.update parent (LiveObject.mapEntityLinks fun links =>
        { links with children := links.children ++ [handle] })
  | _, _ => heap

/-- Links a location below another. -/
def addChildLocation (parent child : Address) (heap : Heap) : Heap :=
  match heap.object? parent, heap.object? child with
  | some parentObject, some childObject =>
      let (handle, heap) := heap.referenceTo child childObject
      let heap := heap.update child (LiveObject.mapLocationLinks fun links =>
        { links with parent := some (linkTo parent parentObject) })
      heap.update parent (LiveObject.mapLocationLinks fun links =>
        { links with children := links.children ++ [handle] })
  | _, _ => heap

/-- Appends a reference to an object to one of the lists of an entity. -/
def appendReference (owner target : Address)
    (place : Handle → EntityLinks → EntityLinks) (heap : Heap) : Heap :=
  match heap.object? target with
  | some object =>
      let (handle, heap) := heap.referenceTo target object
      heap.update owner (LiveObject.mapEntityLinks (place handle))
  | none => heap

def addLocation (owner target : Address) : Heap → Heap :=
  appendReference owner target fun handle links =>
    { links with locations := links.locations ++ [handle] }

def addPolicy (owner target : Address) : Heap → Heap :=
  appendReference owner target fun handle links =>
    { links with policies := links.policies ++ [handle] }

def addEnricher (owner target : Address) : Heap → Heap :=
  appendReference owner target fun handle links =>
    { links with enrichers := links.enrichers ++ [handle] }

/-! ## Records of several objects -/

/-- The record of the object at an address. -/
def memento? (heap : Heap) (address : Address) : Option (Outcome (ObjectMemento LiveValue)) :=
  (heap.object? address).map LiveObject.memento

/-- The graph of the records of some objects. The first object that fails ends it: entities are
asked first, then locations, then policies. -/
def graphOf (objects : List LiveObject) : Outcome (Graph LiveValue) :=
  let inTurn := ObjectKind.all.flatMap fun kind => objects.filter fun object => object.kind == kind
  inTurn.foldlM (fun graph object => do return graph.insert (← object.memento)) .empty

end Heap

end GraphCheckpoint
