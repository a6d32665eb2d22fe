import GraphCheckpoint.Watch.Window

/-!
Contract: listeners, which collect the changes that objects report.

Owns:
- `Listener`, a window and whether reports are still taken;
- `Report`, what an object can report, and its three steps: the first look at whether the listener
  takes reports, the gathering of locations, and the recording, which looks once more.

Does not own: which listener an object has.
-/

namespace GraphCheckpoint

/-- Collects changes until it is stopped. -/
structure Listener where
  window : Window
  stopped : Bool
deriving DecidableEq, Repr, Inhabited

/-- What an object reports about itself. -/
inductive Report where
  /-- It is followed from now on. -/
  | managed
  | changed
  /-- It is gone. -/
  | unmanaged
deriving DecidableEq, Repr, Inhabited

namespace Listener

def fresh : Listener := ⟨.empty, false⟩

/-- Changes the window, unless the listener has been stopped. -/
def record (change : Window → Window) (listener : Listener) : Listener :=
  if listener.stopped then listener else { listener with window := change listener.window }

/-- Hands out the window and starts a new one. -/
def swap (listener : Listener) : Window × Listener :=
  (listener.window, { listener with window := .empty })

/-- Takes no more reports; what has been collected stays. -/
def stop (listener : Listener) : Listener := { listener with stopped := true }

/-- Takes no more reports and drops what has been collected. -/
def stopAndDiscard (_ : Listener) : Listener := ⟨.empty, true⟩

/-- Takes reports again. -/
def resume (listener : Listener) : Listener := { listener with stopped := false }

theorem record_stopped {listener : Listener} (stopped : listener.stopped = true)
    (change : Window → Window) : listener.record change = listener := by
  simp [record, stopped]

theorem window_record {listener : Listener} (running : listener.stopped = false)
    (change : Window → Window) : (listener.record change).window = change listener.window := by
  simp [record, running]

end Listener

namespace Report

/-- The locations that a report has to gather: those around a changed entity. -/
def gather (heap : Heap) (address : Address) : Report → List Address
  | .managed | .changed => Window.locationsAround heap address
  | .unmanaged => []

/-- What a report leaves in a window. -/
def apply (heap : Heap) (address : Address) (gathered : List Address) (report : Report)
    (window : Window) : Window :=
  match report with
  | .managed | .changed => window.recordWith heap address gathered
  | .unmanaged =>
      match heap.object? address with
      | some object => window.recordRemoved object.key
      | none => window

end Report

/-- A listener takes a report of the object at an address. -/
def Listener.notify (heap : Heap) (report : Report) (address : Address) (listener : Listener) :
    Listener :=
  listener.record (report.apply heap address (report.gather heap address))

end GraphCheckpoint
