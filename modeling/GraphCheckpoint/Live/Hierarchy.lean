import GraphCheckpoint.Live.Heap

/-!
Contract: all locations above and below a location.

Owns:
- the children and the parent that a location has at present;
- `locationsInHierarchy`, every location that children links or parent links lead to.

Does not own: the links.

Each id is visited once, so cycles do no harm. The walk holds the ids that have not been visited;
every location that it takes uses one of them up.
-/

namespace GraphCheckpoint.Heap

/-- The live children of a location, in order. -/
def childLocations (heap : Heap) (address : Address) : List Address :=
  match (heap.object? address).bind LiveObject.locationLinks? with
  | some links => links.children.filterMap heap.target?
  | none => []

/-- The live parent of a location. -/
def parentLocation? (heap : Heap) (address : Address) : Option Address := do
  let links ← (heap.object? address).bind LiveObject.locationLinks?
  heap.follow? (← links.parent)

/-- The live locations where an entity is deployed, in order. -/
def deployedAt (heap : Heap) (address : Address) : List Address :=
  match (heap.object? address).bind LiveObject.entityLinks? with
  | some links => links.locations.filterMap heap.target?
  | none => []

/-- The object at an address has an id among the given ones. -/
def hasIdIn (heap : Heap) (ids : List String) (address : Address) : Bool :=
  match heap.object? address with
  | some object => ids.contains object.id
  | none => false

/-- The ids without that of the object at an address. -/
def idsWithout (heap : Heap) (ids : List String) (address : Address) : List String :=
  match heap.object? address with
  | some object => ids.filter (· != object.id)
  | none => ids

/-- The walk down: takes the pending location that came last and has not been visited, and makes its
children pending. Gives the locations taken and the ids left over; the budget bounds how many are
taken. -/
def descend (heap : Heap) : Nat → List String → List Address → List Address × List String
  | 0, unvisited, _ => ([], unvisited)
  | budget + 1, unvisited, pending =>
      match pending.dropWhile fun address => !heap.hasIdIn unvisited address with
      | [] => ([], unvisited)
      | next :: others =>
          let (taken, left) :=
            heap.descend budget (heap.idsWithout unvisited next)
              ((heap.childLocations next).reverse ++ others)
          (next :: taken, left)

/-- The walk up: takes parents as long as they have not been visited. -/
def ascend (heap : Heap) : Nat → List String → Option Address → List Address
  | budget + 1, unvisited, some next =>
      if heap.hasIdIn unvisited next then
        next :: heap.ascend budget (heap.idsWithout unvisited next) (heap.parentLocation? next)
      else []
  | _, _, _ => []

/-- The ids of all live locations, each once. -/
def locationIds (heap : Heap) : List String :=
  (heap.objects.toList.filterMap fun entry => do
    let object ← entry
    if object.kind = .location then some object.id else none).eraseDups

/-- The location itself, everything below it, and everything above it. -/
def locationsInHierarchy (heap : Heap) (root : Address) : List Address :=
  let ids := heap.locationIds
  let (below, unvisited) := heap.descend ids.length ids [root]
  below ++ heap.ascend unvisited.length unvisited (heap.parentLocation? root)

end GraphCheckpoint.Heap
