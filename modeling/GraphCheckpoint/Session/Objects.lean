import GraphCheckpoint.Session.Watching

/-!
Contract: objects, references, weak links and computed values in a session.

Owns:
- making, naming, changing and linking objects, with the reports that changes cause;
- what can be seen of an object;
- named references, weak links and computed values.

Does not own: the objects' own operations.
-/

namespace GraphCheckpoint.Session

/-! ## Objects -/

/-- Makes an object under a name. -/
def makeObject (kind : ObjectKind) (name id typeName : String) : Step Unit := do
  let address ← onHeap (Heap.create (.blank kind id typeName))
  modify fun session => { session with objects := session.objects.insert name address }

/-- Takes a name away; tells whether it was there. -/
def dropObject (name : String) : Step Bool := do
  let known := (← get).objects.contains name
  modify fun session => { session with objects := session.objects.erase name }
  return known

/-- Changes a named object, which then reports the change. -/
def changeObject (name : String) (change : LiveObject → LiveObject) : Step Unit := do
  let address ← addressOf name
  mapHeap (Heap.update address change)
  reportChanged address

/-- Links an object below another of its kind. Entities report it, the parent first. -/
def addChild (parent child : String) : Step Unit := do
  let parentAddress ← addressOf parent
  let childAddress ← addressOf child
  match (← objectAt parentAddress).kind with
  | .entity =>
      mapHeap (Heap.addChildEntity parentAddress childAddress)
      reportChanged parentAddress
      reportChanged childAddress
  | _ => mapHeap (Heap.addChildLocation parentAddress childAddress)

/-- Attaches a location, a policy or, where it is to be one, an enricher to an entity. -/
def attach (owner target : String) (asEnricher : Bool) : Step Unit := do
  let ownerAddress ← addressOf owner
  let targetAddress ← addressOf target
  let targetKind := (← objectAt targetAddress).kind
  let add :=
    if asEnricher then Heap.addEnricher
    else if targetKind = .location then Heap.addLocation
    else Heap.addPolicy
  mapHeap (add ownerAddress targetAddress)
  reportChanged ownerAddress

/-- The record of a named object. -/
def mementoOf (name : String) : Step (ObjectMemento LiveValue) := do
  orRefuse (← objectOf name).memento

/-- Ids of all locations above and below a named one. -/
def hierarchyOf (name : String) : Step (List String) := do
  let address ← addressOf name
  let heap ← heapOf
  return (heap.locationsInHierarchy address).filterMap fun found =>
    (heap.object? found).map LiveObject.id

/-- The graph of some objects: named ones, and entities that fail under a given id. -/
def graphOfObjects (members : List (String ⊕ String)) : Step (Graph LiveValue) := do
  let objects ← members.mapM fun member =>
    match member with
    | .inl name => objectOf name
    | .inr id =>
        return { LiveObject.blank .entity id "Broken" with
          behaviour := .failing (.generation .entity id "torn down") }
  orRefuse (Heap.graphOf objects)

/-- What can be seen of an object's links. -/
inductive LinksView where
  | entity (parent application : Option Handle) (links : EntityLinks) (located : List String)
  | location (parent : Option Handle) (children : List Handle) (parentId : Option String)
      (childIds : List String)
  | policy (id typeName : String)

/-- New references for the weak links of an object, and what its other links lead to now. -/
def linksOf (name : String) : Step LinksView := do
  let address ← addressOf name
  let object ← objectAt address
  let idsAt := fun (heap : Heap) (places : List Address) =>
    places.filterMap fun place => (heap.object? place).map LiveObject.id
  match object.state with
  | .entity links =>
      let parent ← links.parent.mapM fun link => onHeap (Heap.upgrade link)
      let application ← links.application.mapM fun link => onHeap (Heap.upgrade link)
      let heap ← heapOf
      return .entity parent application links (idsAt heap (heap.deployedAt address))
  | .location links =>
      let parent ← links.parent.mapM fun link => onHeap (Heap.upgrade link)
      let heap ← heapOf
      return .location parent links.children
        (idsAt heap (heap.parentLocation? address).toList).head?
        (idsAt heap (heap.childLocations address))
  | .policy _ => return .policy object.id object.typeName

/-! ## References -/

/-- How a named reference is made. -/
inductive ReferenceSource where
  | placeholder (id : String) (declaredType : Option String)
  /-- To a named object, with its id and type. -/
  | toObject (name : String)
  /-- To a named object, under another id and type. -/
  | resolved (name : String) (declaredType : Option String) (id : String)
  /-- Through the slot of another reference. -/
  | copyOf (name : String)

def referenceNamed (name : String) : Step Handle := named "reference" Session.references name

/-- A new reference to a named object, with its id and type. -/
def referenceToObject (name : String) : Step Handle := do
  let address ← addressOf name
  onHeap (Heap.referenceTo address (← objectAt address))

/-- A new placeholder. -/
def makePlaceholder (id : String) (declaredType : Option String) : Step Handle :=
  onHeap fun heap =>
    let (handle, slots) := heap.slots.placeholder id declaredType
    (handle, { heap with slots := slots })

def makeReference : ReferenceSource → Step Handle
  | .placeholder id declaredType => makePlaceholder id declaredType
  | .toObject name => referenceToObject name
  | .resolved name declaredType id => do
      let address ← addressOf name
      onHeap fun heap =>
        let (handle, slots) := heap.slots.allocate id declaredType (some address)
        (handle, { heap with slots := slots })
  | .copyOf name => referenceNamed name

/-- Makes a reference under a name, and gives it with the id of the object that it leads to. -/
def nameReference (name : String) (source : ReferenceSource) : Step (Handle × Option String) := do
  let handle ← makeReference source
  modify fun session => { session with references := session.references.insert name handle }
  return (handle, ((← heapOf).resolve? handle).map LiveObject.id)

/-- A reference shown for people. -/
def shownReference (heap : Heap) (handle : Handle) : String :=
  Text.shownRecord "ObjectRef"
    [("id", Text.quoted handle.id), ("declared_type", Text.quotedOption handle.declaredType),
      ("built", if heap.isBuilt handle then "true" else "false")]

/-- Takes a reference's name away; tells whether it was there. -/
def dropReference (name : String) : Step Bool := do
  let known := (← get).references.contains name
  modify fun session => { session with references := session.references.erase name }
  return known

/-- Makes a weak link of a reference. -/
def nameWeakLink (name reference : String) : Step Unit := do
  let handle ← referenceNamed reference
  let link := (← heapOf).downgrade handle
  modify fun session => { session with weakLinks := session.weakLinks.insert name link }

/-- A weak link, whether its object lives, and a new reference for it. -/
def weakLinkOf (name : String) : Step (WeakLink × Bool × Handle) := do
  let link ← named "weak link" Session.weakLinks name
  let alive := ((← heapOf).follow? link).isSome
  return (link, alive, ← onHeap (Heap.upgrade link))

/-! ## Computed values -/

def onCells {α : Type} (action : Cells → α × Cells) : Step α :=
  onHeap fun heap =>
    let (result, cells) := action heap.cells
    (result, { heap with cells := cells })

def cellNamed (name : String) : Step CellId := named "deferred" Session.computed name

/-- Makes a pending value under a name. -/
def makeComputed (name : String) : Step Unit := do
  let cell ← onCells (Cells.allocate .pending)
  modify fun session => { session with computed := session.computed.insert name cell }

/-- Settles a named value; tells whether it was still pending. -/
def settleComputed (name : String) (state : Cell) : Step Bool := do
  let cell ← cellNamed name
  onCells (Cells.settle cell state)

end GraphCheckpoint.Session
