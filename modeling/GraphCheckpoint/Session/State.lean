import GraphCheckpoint.Live.Ownership
import GraphCheckpoint.Rebind.Manager
import GraphCheckpoint.Store.File
import GraphCheckpoint.Store.Memory
import GraphCheckpoint.Store.Recording

/-!
Contract: a session, a program's view of live objects, listeners, stores and a manager, all by name.

Owns:
- `Session` and the names in it;
- `Step`, an operation on a session that may be refused;
- what a session keeps alive.

Does not own: the operations, which the other modules of sessions hold.

Listeners, managers and stores are kept by number, since they may be in use after their names have
been given to others.
-/

namespace GraphCheckpoint

open GraphCheckpoint.Store

/-- A store of any sort. -/
inductive AnyStore where
  | memory (store : MemoryStore)
  | file (store : FileStore)
  | recording (store : RecordingStore)
deriving Inhabited

/-- All that a session holds. -/
structure Session where
  heap : Heap
  /-- Named objects. -/
  objects : Table Address
  /-- Named references. -/
  references : Table Handle
  /-- Named weak links. -/
  weakLinks : Table WeakLink
  /-- Named computed values. -/
  computed : Table CellId
  listeners : Array Listener
  listenerNames : Table Nat
  managers : Array Manager
  /-- The manager in use. -/
  manager : Option Nat
  /-- The store whose writes are held back. -/
  heldBack : Option StoreRef
  stores : Array AnyStore
  storeNames : Table StoreRef
  disk : Disk
  /-- Milliseconds since 1970; a new value for each opening of a store. -/
  clock : Int
  /-- The last rebuilt graph. -/
  outcome : Option RebindOutcome
  /-- The objects of factories that remember, oldest first, under the ids that were asked for. -/
  remembered : List (ObjectKey × Address)
  /-- The answers that objects got while they were rebuilt. -/
  answers : List Answer
deriving Inhabited

/-- Why a step is refused. -/
inductive Refusal where
  | failure (failure : Failure)
  /-- The step names something that is not there. -/
  | misuse (text : String)

/-- An operation on a session. What was done before a refusal stays done. -/
abbrev Step (α : Type) := ExceptT Refusal (StateM Session) α

namespace Session

/-- The time that documents are stamped with. -/
def stamp : Int64 := 1000000000000

def empty : Session where
  heap := .empty
  objects := []
  references := []
  weakLinks := []
  computed := []
  listeners := #[]
  listenerNames := []
  managers := #[]
  manager := none
  heldBack := none
  stores := #[]
  storeNames := []
  disk := .empty
  clock := stamp.toInt
  outcome := none
  remembered := []
  answers := []

/-! ## Parts of steps -/

def refuse {α : Type} (failure : Failure) : Step α := throw (.failure failure)

def misuse {α : Type} (text : String) : Step α := throw (.misuse text)

/-- Gives a result, or refuses the step with its failure. -/
def orRefuse {α : Type} : Outcome α → Step α
  | .ok result => return result
  | .error failure => refuse failure

/-- What a name stands for. -/
def named {α : Type} (what : String) (table : Session → Table α) (name : String) : Step α := do
  match (table (← get)).get? name with
  | some found => return found
  | none => misuse ("no " ++ what ++ " " ++ Text.quoted name)

def heapOf : Step Heap := do return (← get).heap

def mapHeap (change : Heap → Heap) : Step Unit :=
  modify fun session => { session with heap := change session.heap }

/-- Runs an operation that gives a result and a new heap. -/
def onHeap {α : Type} (action : Heap → α × Heap) : Step α :=
  modifyGet fun session =>
    let (result, heap) := action session.heap
    (result, { session with heap := heap })

/-- Where a named object lives. -/
def addressOf (name : String) : Step Address := named "object" Session.objects name

/-- The object at an address. -/
def objectAt (address : Address) : Step LiveObject := do
  match (← heapOf).object? address with
  | some object => return object
  | none => misuse "an object that is gone"

def objectOf (name : String) : Step LiveObject := do objectAt (← addressOf name)

/-! ## What lives on -/

/-- What a store keeps alive. -/
def ownedByStore (heap : Heap) : AnyStore → List Owned
  | .recording store => heap.ownedByDelta (Delta.ofGraph store.graph)
  | _ => []

/-- The managers in use: the one that is meant to be, and those that write at the moment. -/
def managersInUse (session : Session) : List (Nat × Manager) :=
  (session.managers.toList.zipIdx.map fun (manager, index) => (index, manager)).filter
    fun (index, manager) => session.manager == some index || manager.schedule.writing.isSome

/-- The deltas that are being written. -/
def pendingWrites (session : Session) : List PendingWrite :=
  session.managersInUse.filterMap fun (_, manager) => manager.schedule.writing

/-- The stores in use: those with a name, those of the managers, and those being written to. -/
def storesInUse (session : Session) : List StoreRef :=
  session.storeNames.values ++
    session.managersInUse.filterMap (fun (_, manager) => manager.store) ++
    session.pendingWrites.map PendingWrite.store

/-- What the session itself keeps alive. -/
def roots (session : Session) : List Owned :=
  let objects :=
    session.objects.values ++ ((session.outcome.map RebindOutcome.addresses).getD []) ++
      session.remembered.map Prod.snd
  objects.map Owned.object ++
    session.references.values.flatMap session.heap.ownedByHandle ++
    session.computed.values.map Owned.cell ++
    session.listenerNames.values.map (fun index => Owned.listener (.own index)) ++
    session.managersInUse.map (fun (index, _) => Owned.listener (.manager index)) ++
    session.pendingWrites.flatMap (fun pending => session.heap.ownedByDelta pending.delta) ++
    session.storesInUse.flatMap fun store =>
      ((session.stores[store.index]?).map (ownedByStore session.heap)).getD []

/-- A listener, if there is one. -/
def listener? (session : Session) : ListenerRef → Option Listener
  | .silent => none
  | .own index => session.listeners[index]?
  | .manager index => (session.managers[index]?).map fun manager => manager.persister.listener

/-- Drops the objects that nothing keeps alive. -/
def sweep (session : Session) : Session :=
  let listeners :=
    (List.range session.listeners.size).map ListenerRef.own ++
      (List.range session.managers.size).map ListenerRef.manager
  let inWindow := fun listener =>
    ((session.listener? listener).map fun found => found.window.addresses).getD []
  { session with heap := session.heap.sweep session.roots listeners inWindow }

/-- Does a step, and drops what it has left without an owner. -/
def perform {α : Type} (step : Step α) (session : Session) : Except Refusal α × Session :=
  let (result, session) := step.run.run session
  (result, session.sweep)

end Session

end GraphCheckpoint
