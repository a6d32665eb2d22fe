import GraphCheckpoint.Memento

/-!
Contract: whole graphs of records and the changes between them.

Owns:
- `Delta`, the records written and the ids removed by one write;
- `Graph`, all records by id, and the fold of a delta into it;
- the references of a graph that lead to no record of it.

Does not own: where graphs and deltas are kept.
-/

namespace GraphCheckpoint

variable {V W : Type}

/-- The records that one write brings, in order, and the ids that it removes. -/
structure Delta (V : Type) where
  entities : List (EntityMemento V)
  locations : List (LocationMemento V)
  policies : List (PolicyMemento V)
  removedEntities : IdSet
  removedLocations : IdSet
  removedPolicies : IdSet
deriving Inhabited

/-- All records, each under a key, which is its id unless a caller chose another. -/
structure Graph (V : Type) where
  entities : Table (EntityMemento V)
  locations : Table (LocationMemento V)
  policies : Table (PolicyMemento V)
deriving Inhabited

/-- Equality of two lists, position by position. -/
def sameList {α : Type} (same : α → α → Bool) : List α → List α → Bool
  | [], [] => true
  | left :: lefts, right :: rights => same left right && sameList same lefts rights
  | _, _ => false

/-- Equality of two tables, entry by entry. -/
def sameTable {α : Type} (same : α → α → Bool) : Table α → Table α → Bool :=
  sameList fun left right => left.1 == right.1 && same left.2 right.2

namespace Delta

def empty : Delta V := ⟨[], [], [], [], [], []⟩

def updatedCount (delta : Delta V) : Nat :=
  delta.entities.length + delta.locations.length + delta.policies.length

def removedCount (delta : Delta V) : Nat :=
  delta.removedEntities.length + delta.removedLocations.length + delta.removedPolicies.length

def isEmpty (delta : Delta V) : Bool := delta.updatedCount == 0 && delta.removedCount == 0

/-- Adds a record behind those of its kind. -/
def add (memento : ObjectMemento V) (delta : Delta V) : Delta V :=
  match memento with
  | .entity memento => { delta with entities := delta.entities ++ [memento] }
  | .location memento => { delta with locations := delta.locations ++ [memento] }
  | .policy memento => { delta with policies := delta.policies ++ [memento] }

/-- Converts all records: entities first, then locations, then policies. -/
def convert {m : Type → Type} [Monad m] (conversion : Conversion m V W) (delta : Delta V) :
    m (Delta W) := do
  let entities ← delta.entities.mapM fun memento => memento.convert conversion
  let locations ← delta.locations.mapM fun memento => memento.convert conversion
  let policies ← delta.policies.mapM fun memento => memento.convert conversion
  return ⟨entities, locations, policies, delta.removedEntities, delta.removedLocations,
    delta.removedPolicies⟩

def sameWith (same : Table V → Table V → Bool) (left right : Delta V) : Bool :=
  sameList (EntityMemento.sameWith same) left.entities right.entities &&
    sameList (LocationMemento.sameWith same) left.locations right.locations &&
    sameList (PolicyMemento.sameWith same) left.policies right.policies &&
    left.removedEntities == right.removedEntities &&
    left.removedLocations == right.removedLocations &&
    left.removedPolicies == right.removedPolicies

/-- The delta that brings all records of a graph and removes nothing. -/
def ofGraph (graph : Graph V) : Delta V :=
  ⟨graph.entities.values, graph.locations.values, graph.policies.values, [], [], []⟩

end Delta

namespace Graph

def empty : Graph V := ⟨[], [], []⟩

def insertEntity (memento : EntityMemento V) (graph : Graph V) : Graph V :=
  { graph with entities := graph.entities.insert memento.id memento }

def insertLocation (memento : LocationMemento V) (graph : Graph V) : Graph V :=
  { graph with locations := graph.locations.insert memento.id memento }

def insertPolicy (memento : PolicyMemento V) (graph : Graph V) : Graph V :=
  { graph with policies := graph.policies.insert memento.id memento }

/-- Sets a record under its id. -/
def insert (memento : ObjectMemento V) (graph : Graph V) : Graph V :=
  match memento with
  | .entity memento => graph.insertEntity memento
  | .location memento => graph.insertLocation memento
  | .policy memento => graph.insertPolicy memento

/-- Sets every record of the delta under its id, then drops the removed ids. -/
def apply (delta : Delta V) (graph : Graph V) : Graph V :=
  let filled := delta.entities.foldl (fun current memento => current.insertEntity memento) graph
  let filled := delta.locations.foldl (fun current memento => current.insertLocation memento) filled
  let filled := delta.policies.foldl (fun current memento => current.insertPolicy memento) filled
  ⟨filled.entities.eraseAll delta.removedEntities,
    filled.locations.eraseAll delta.removedLocations,
    filled.policies.eraseAll delta.removedPolicies⟩

def size (graph : Graph V) : Nat :=
  graph.entities.length + graph.locations.length + graph.policies.length

def isEmpty (graph : Graph V) : Bool := graph.size == 0

/-- A record stands under the key. -/
def contains (kind : ObjectKind) (id : String) (graph : Graph V) : Bool :=
  match kind with
  | .entity => graph.entities.contains id
  | .location => graph.locations.contains id
  | .policy => graph.policies.contains id

/-- Ids of the entities that are applications, in key order. -/
def applicationIds (graph : Graph V) : List String :=
  graph.entities.values.filterMap fun memento =>
    if memento.isApplication then some memento.id else none

/-- The records of a kind, by key. -/
def records (graph : Graph V) : ObjectKind → Table (ObjectMemento V)
  | .entity => graph.entities.mapValues ObjectMemento.entity
  | .location => graph.locations.mapValues ObjectMemento.location
  | .policy => graph.policies.mapValues ObjectMemento.policy

/-- Keys of the three tables. -/
def ids (graph : Graph V) : List String × List String × List String :=
  (graph.entities.keys, graph.locations.keys, graph.policies.keys)

def convert {m : Type → Type} [Monad m] (conversion : Conversion m V W) (graph : Graph V) :
    m (Graph W) := do
  let entities ← graph.entities.mapM fun (key, memento) => do
    return (key, ← memento.convert conversion)
  let locations ← graph.locations.mapM fun (key, memento) => do
    return (key, ← memento.convert conversion)
  let policies ← graph.policies.mapM fun (key, memento) => do
    return (key, ← memento.convert conversion)
  return ⟨entities, locations, policies⟩

def sameWith (same : Table V → Table V → Bool) (left right : Graph V) : Bool :=
  sameTable (EntityMemento.sameWith same) left.entities right.entities &&
    sameTable (LocationMemento.sameWith same) left.locations right.locations &&
    sameTable (PolicyMemento.sameWith same) left.policies right.policies

/-- Everything that some record of the graph refers to, by link or by value. -/
def references (ofTable : Table V → List ObjectKey) (graph : Graph V) : List ObjectKey :=
  graph.entities.values.flatMap EntityMemento.links ++
    graph.locations.values.flatMap LocationMemento.links ++
    graph.entities.values.flatMap (EntityMemento.valueReferences ofTable) ++
    graph.locations.values.flatMap (LocationMemento.valueReferences ofTable) ++
    graph.policies.values.flatMap (PolicyMemento.valueReferences ofTable)

/-- Adds a key in its place in the order, once. -/
def insertKey (key : ObjectKey) : List ObjectKey → List ObjectKey
  | [] => [key]
  | candidate :: rest =>
      if key = candidate then candidate :: rest
      else if key.before candidate then key :: candidate :: rest
      else candidate :: insertKey key rest

/-- The references that lead to no record, in order, each once. -/
def dangling (ofTable : Table V → List ObjectKey) (graph : Graph V) : List ObjectKey :=
  (graph.references ofTable).foldl
    (fun missing key =>
      if graph.contains key.kind key.id then missing else insertKey key missing) []

end Graph

end GraphCheckpoint
