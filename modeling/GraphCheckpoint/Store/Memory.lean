import GraphCheckpoint.Codec

/-!
Contract: a store that keeps every record encoded in memory.

Owns:
- one encoded record under each id and kind;
- writing of deltas and checkpoints, all or nothing, and loading.

Does not own: the encoding of records.

A stopped store passes over writes and refuses loads.
-/

namespace GraphCheckpoint.Store

open GraphCheckpoint.Encoding

/-- Encoded records by id. -/
structure MemoryStore where
  settings : Settings
  entities : Table Bytes
  locations : Table Bytes
  policies : Table Bytes
  running : Bool
  /-- The number of deltas taken since the store was made. -/
  deltas : Nat
deriving DecidableEq, Repr, Inhabited

namespace MemoryStore

def make (settings : Settings) : MemoryStore := ⟨settings, [], [], [], true, 0⟩

def size (store : MemoryStore) : Nat :=
  store.entities.length + store.locations.length + store.policies.length

/-- Ids of all that is stored, by kind. -/
def storedIds (store : MemoryStore) : List String × List String × List String :=
  (store.entities.keys, store.locations.keys, store.policies.keys)

/-- Takes a delta. Every record is encoded before any is stored. -/
def delta (store : MemoryStore) (cells : Cells) (delta : Delta LiveValue) :
    Outcome MemoryStore := do
  if !store.running then return store
  let entities ← delta.entities.mapM fun memento => do
    return (memento.id, ← store.settings.encodeEntity cells memento)
  let locations ← delta.locations.mapM fun memento => do
    return (memento.id, ← store.settings.encodeLocation cells memento)
  let policies ← delta.policies.mapM fun memento => do
    return (memento.id, ← store.settings.encodePolicy cells memento)
  return { store with
    entities := (store.entities.insertAll entities).eraseAll delta.removedEntities
    locations := (store.locations.insertAll locations).eraseAll delta.removedLocations
    policies := (store.policies.insertAll policies).eraseAll delta.removedPolicies
    deltas := store.deltas + 1 }

/-- Puts a whole graph, under its own keys, in the place of all that is stored. -/
def checkpoint (store : MemoryStore) (cells : Cells) (graph : Graph LiveValue) :
    Outcome MemoryStore := do
  if !store.running then return store
  let entities ← graph.entities.mapM fun (key, memento) => do
    return (key, ← store.settings.encodeEntity cells memento)
  let locations ← graph.locations.mapM fun (key, memento) => do
    return (key, ← store.settings.encodeLocation cells memento)
  let policies ← graph.policies.mapM fun (key, memento) => do
    return (key, ← store.settings.encodePolicy cells memento)
  return { store with entities := entities, locations := locations, policies := policies }

/-- Loads the graph, with references resolved by a look-up; each record stands under its own id. -/
def load {σ : Type} (store : MemoryStore) (lookup : Lookup σ) :
    StateT σ Outcome (Graph LiveValue) := do
  if store.running then
    let entities ← store.entities.values.mapM (store.settings.decodeEntity lookup)
    let locations ← store.locations.values.mapM (store.settings.decodeLocation lookup)
    let policies ← store.policies.values.mapM (store.settings.decodePolicy lookup)
    return Graph.empty.apply ⟨entities, locations, policies, [], [], []⟩
  else throw (.invalidState "in-memory persister has been stopped")

def stop (store : MemoryStore) : MemoryStore := { store with running := false }

end MemoryStore

end GraphCheckpoint.Store
