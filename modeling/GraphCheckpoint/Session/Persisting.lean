import GraphCheckpoint.Session.Storing

/-!
Contract: the manager's writing in a session.

Owns:
- making the manager, giving it a store, starting and stopping it;
- carrying out the writes of its cycles, with what the store does meanwhile;
- running several cycles at once on a store whose writes are held back;
- waiting for a later cycle.

Does not own: the order of cycles, which the schedule has.
-/

namespace GraphCheckpoint.Session

open GraphCheckpoint.Store

/-- Makes a manager and puts it to use. -/
def makeManager (config : ManagerConfig) (registry : Registry) : Step Manager := do
  let manager := Manager.make config registry
  modify fun session =>
    { session with
      managers := session.managers.push manager
      manager := some session.managers.size }
  return manager

/-- Gives the manager a store, or takes its store away; tells whether it has one. -/
def setBackend (name : Option String) : Step Bool := do
  let store ← name.mapM storeNamed
  mapManager (Manager.mapPersister (Persister.setStore store))
  return (← currentManager).store.isSome

def persisterOf : Step Persister := do return (← currentManager).persister

/-- Does something to the manager, and gives its persister afterwards. -/
def onManager (change : Manager → Manager) : Step Persister := do
  mapManager change
  persisterOf

/-- Stops the manager, then its store. -/
def shutdown : Step Persister := do
  mapManager Manager.stop
  match (← currentManager).store with
  | some store => stopStore store
  | none => pure ()
  persisterOf

/-! ## Writes -/

/-- What a recording store's reactions do while it takes a delta. -/
def react (reactions : Reactions) : Step Unit := do
  match reactions.change with
  | some id =>
      let object := LiveObject.blank .entity id "Hooked"
      let address ← onHeap (Heap.create object)
      mapListener (.manager (← managerIndex)) fun listener =>
        { listener with window := listener.window.recordChanged object.key address }
  | none => pure ()
  match reactions.toManager with
  | some .stop => mapManager Manager.stop
  | some .detach => mapManager (Manager.mapPersister (Persister.setStore none))
  | none => pure ()

/-- Gives a delta to a store. -/
def deltaStore (which : StoreRef) (delta : Delta LiveValue) : Step (Outcome Unit) := do
  let cells := (← heapOf).cells
  match ← storeAt which with
  | .memory store => keepStore which .memory (store.delta cells delta)
  | .file store => onFile which store (FileStore.delta cells stamp delta)
  | .recording store =>
      react store.reactions
      keepStore which .recording (store.delta (← heapOf) delta)

/-- Changes the schedule of the manager. -/
def mapSchedule (change : Heap → Schedule → Schedule) : Step Unit := do
  let heap ← heapOf
  mapManager (Manager.mapSchedule (change heap))

/-- Carries out writes and gives waiting cycles their turns, at most so many. The writes of a store
that is held back are left as they are. -/
def carryOut : Nat → Step Unit
  | 0 => pure ()
  | budget + 1 => do
      match (← currentManager).schedule.writing with
      | none => pure ()
      | some pending =>
          if (← get).heldBack ≠ some pending.store then
            let written ← deltaStore pending.store pending.delta
            mapSchedule fun _ => Schedule.finish written
            mapSchedule Schedule.grantAll
            carryOut budget

/-- Requests a cycle. -/
def requestCycle (cycle : Nat) : Step Unit := do
  mapSchedule fun heap => Schedule.request heap cycle
  carryOut 1

/-- The result of a cycle that has ended. -/
def cycleResult (cycle : Nat) : Step (Outcome Unit) := do
  return ((← currentManager).schedule.resultOf? cycle).getD (.ok ())

/-- The number of a cycle that runs by itself. -/
def singleCycle : Nat := 0

/-- The numbers of cycles that run at once. -/
def cyclesAtOnce (count : Nat) : List Nat := (List.range count).map (· + 1)

/-- Runs one cycle. -/
def persistNow : Step (Outcome Unit) := do
  mapSchedule fun _ => Schedule.forget singleCycle
  requestCycle singleCycle
  cycleResult singleCycle

/-- Runs some cycles, whatever comes of them. -/
def persistTimes (count : Nat) : Step Unit :=
  (List.range count).forM fun _ => do discard persistNow

/-- Lets the cycles run that come by themselves. Two are enough for everything collected before to
have been written. -/
def awaitScheduled : Step Unit := persistTimes 2

/-! ## Waiting -/

/-- The wait that began with so many completed cycles is over. -/
def isWaitOver (completedAtStart : Nat) : Step Bool := do
  return (← persisterOf).isWaitOver completedAtStart

/-- The result of a wait. -/
def waitResult (ended : Bool) (milliseconds : Nat) : Outcome Unit :=
  if ended then .ok () else .error (Persister.waitTimeout milliseconds)

/-- Begins a wait, runs some cycles, and ends it. A wait without time ends at its first look. -/
def waitDuring (milliseconds cycles : Nat) : Step (Outcome Unit) := do
  let completed := (← persisterOf).writes
  let overAtOnce ← isWaitOver completed
  persistTimes cycles
  let overLater ← isWaitOver completed
  return waitResult (overAtOnce || (milliseconds ≠ 0 && overLater)) milliseconds

/-! ## Cycles at once -/

/-- Holds the writes of a store back, or lets all writes go. -/
def holdBack (store : Option StoreRef) : Step Unit :=
  modify fun session => { session with heldBack := store }

/-- Does something with a certain manager in use. -/
def withManager {α : Type} (index : Nat) (action : Step α) : Step α := do
  let before := (← get).manager
  modify fun session => { session with manager := some index }
  let result ← action
  modify fun session => { session with manager := before }
  return result

/-- What comes of cycles that run while a store's writes are held back. -/
structure Overlap (α : Type) where
  /-- The persister while the writes are held back. -/
  held : Persister
  /-- What the steps taken meanwhile gave. -/
  meanwhile : α
  results : List (Outcome Unit)
  waited : Option (Outcome Unit)
  after : Persister

/-- Requests cycles while a store's writes are held back, does something else, and then lets the
writes go. After that it runs some more cycles. A wait may go along with it. All cycles are those of
the manager that is in use at the beginning. A window that has been taken keeps nothing alive while
its delta is being written. -/
def overlap {α : Type} (store : String) (tasks : Nat) (meanwhile : Step α)
    (waitMilliseconds : Option Nat) (cycles : Nat) : Step (Overlap α) := do
  let manager ← managerIndex
  holdBack (← storeNamed store)
  (cyclesAtOnce tasks).forM fun cycle => mapSchedule fun _ => Schedule.forget cycle
  (cyclesAtOnce tasks).forM requestCycle
  modify Session.sweep
  let held ← persisterOf
  let completed := held.writes
  let overAtOnce ← isWaitOver completed
  let given ← meanwhile
  holdBack none
  withManager manager do
    let overMeanwhile ← isWaitOver completed
    carryOut (tasks + 1)
    let results ← (cyclesAtOnce tasks).mapM cycleResult
    persistTimes cycles
    let overLater ← isWaitOver completed
    let waited := waitMilliseconds.map fun milliseconds =>
      waitResult (overAtOnce || (milliseconds ≠ 0 && (overMeanwhile || overLater))) milliseconds
    return ⟨held, given, results, waited, ← persisterOf⟩

end GraphCheckpoint.Session
