import GraphCheckpoint.Watch.Listener

/-!
Contract: the persister, which writes collected changes to a store.

Owns:
- `Persister`, its listener, its store and its counters;
- starting and stopping;
- the two ends of a cycle: taking the window, and counting the finished write;
- waiting for a later cycle.

Does not own: the order in which cycles run, or what a store does with a delta.

The persister is active while it runs, its listener takes reports, and a store is set. Only an
active persister takes a window.
-/

namespace GraphCheckpoint

/-- Which store a persister writes to. -/
structure StoreRef where
  index : Nat
deriving DecidableEq, Repr, Inhabited

/-- Writes what its listener collects. -/
structure Persister where
  listener : Listener
  running : Bool
  store : Option StoreRef
  /-- The number of cycles that have been completed, with a write or without need for one. -/
  writes : Nat
  /-- The number of cycles whose write failed. -/
  writeFailures : Nat
  /-- The number of objects that gave no record when they were to be written. -/
  mementoFailures : Nat
  /-- The text of the last failed write. -/
  lastError : Option String
deriving DecidableEq, Repr, Inhabited

/-- How a cycle begins. -/
inductive CycleStart where
  /-- The persister is not active: nothing is taken. -/
  | inactive
  /-- The window is empty: there is nothing to write. -/
  | nothingNew
  /-- The delta of the window is to be written to a store. -/
  | write (store : StoreRef) (delta : Delta LiveValue)

namespace Persister

def fresh : Persister := ⟨.fresh, false, none, 0, 0, 0, none⟩

def isActive (persister : Persister) : Bool :=
  persister.running && !persister.listener.stopped && persister.store.isSome

/-- Takes reports and runs cycles from now on. -/
def start (persister : Persister) : Persister :=
  { persister with listener := persister.listener.resume, running := true }

/-- Takes no more reports, and drops what has been collected. -/
def stop (persister : Persister) : Persister :=
  { persister with listener := persister.listener.stopAndDiscard, running := false }

def setStore (store : Option StoreRef) (persister : Persister) : Persister :=
  { persister with store := store }

/-- Counts a completed cycle. -/
def countCycle (persister : Persister) : Persister :=
  { persister with writes := persister.writes + 1 }

/-- Begins a cycle: takes the window, if there is something in it. -/
def beginCycle (heap : Heap) (persister : Persister) : CycleStart × Persister :=
  match persister.store with
  | none => (.inactive, persister)
  | some store =>
      if !persister.isActive then (.inactive, persister)
      else if persister.listener.window.isEmpty then (.nothingNew, persister.countCycle)
      else
        let (window, listener) := persister.listener.swap
        let (delta, failures) := window.toDelta heap
        (.write store delta,
          { persister with
            listener := listener
            mementoFailures := persister.mementoFailures + failures })

/-- Ends a cycle that has written. A failed write is reported only while the persister is still
active. -/
def endCycle (written : Outcome Unit) (persister : Persister) : Outcome Unit × Persister :=
  let counted := persister.countCycle
  match written with
  | .ok _ => (.ok (), counted)
  | .error failure =>
      if counted.isActive then
        (.error failure,
          { counted with
            writeFailures := counted.writeFailures + 1
            lastError := some failure.message })
      else (.ok (), counted)

/-! ## Waiting -/

/-- A wait that began when the given number of cycles had been completed is over: the persister is
not active, or two more cycles are complete, of which the second cannot have begun before the
wait. -/
def isWaitOver (completedAtStart : Nat) (persister : Persister) : Bool :=
  !persister.isActive || completedAtStart + 1 < persister.writes

/-- The failure of a wait that takes too long. -/
def waitTimeout (milliseconds : Nat) : Failure :=
  .timeout ("no complete persistence cycle within " ++ toString milliseconds ++ "ms")

theorem window_stop (persister : Persister) : persister.stop.listener.window = .empty := rfl

theorem isActive_stop (persister : Persister) : persister.stop.isActive = false := rfl

/-- An inactive persister keeps its window and all else. -/
theorem beginCycle_of_inactive {persister : Persister} (inactive : persister.isActive = false)
    (heap : Heap) : persister.beginCycle heap = (.inactive, persister) := by
  unfold beginCycle
  split
  · rfl
  · simp [inactive]

end Persister

end GraphCheckpoint
