import GraphCheckpoint.Session.State

/-!
Contract: listeners in a session.

Owns:
- making listeners, and finding the one that a name stands for;
- passing a report from an object to a listener;
- what can be done with a window: recording, swapping, clearing.

Does not own: when objects report.
-/

namespace GraphCheckpoint.Session

/-- The manager in use. -/
def managerIndex : Step Nat := do
  match (← get).manager with
  | some index => return index
  | none => misuse "no manager"

def currentManager : Step Manager := do
  let index ← managerIndex
  match (← get).managers[index]? with
  | some manager => return manager
  | none => misuse "no manager"

/-- Changes the manager in use. -/
def mapManager (change : Manager → Manager) : Step Unit := do
  let index ← managerIndex
  modify fun session => { session with managers := session.managers.modify index change }

/-- Changes a listener. -/
def mapListener (which : ListenerRef) (change : Listener → Listener) : Step Unit :=
  match which with
  | .silent => pure ()
  | .own index =>
      modify fun session => { session with listeners := session.listeners.modify index change }
  | .manager index =>
      modify fun session =>
        { session with managers := session.managers.modify index fun manager =>
            manager.mapPersister fun persister =>
              { persister with listener := change persister.listener } }

/-- Makes a listener. -/
def makeListener (name : String) : Step Unit :=
  modify fun session =>
    { session with
      listeners := session.listeners.push .fresh
      listenerNames := session.listenerNames.insert name session.listeners.size }

/-- The listener whose window a name stands for. -/
def collectorNamed (name : String) : Step ListenerRef := do
  if name = "manager" then return .manager (← managerIndex)
  else return .own (← named "listener" Session.listenerNames name)

/-- The listener that a name stands for. The manager's takes no reports while writing is not
enabled. -/
def listenerNamed (name : String) : Step ListenerRef := do
  match name with
  | "noop" => return .silent
  | "manager" =>
      if (← currentManager).config.persistenceEnabled then collectorNamed name else return .silent
  | _ => collectorNamed name

/-! ## Reports -/

/-- Passes a report of an object to a listener. An object may stop the manager while its locations
are gathered; the listener looks again afterwards whether it takes reports. -/
def report (which : ListenerRef) (report : Report) (address : Address) : Step Unit := do
  match (← get).listener? which with
  | none => pure ()
  | some listener =>
      if !listener.stopped then
        let object ← objectAt address
        if object.behaviour = .stopping ∧ report ≠ .unmanaged then mapManager Manager.stop
        let heap ← heapOf
        mapListener which (Listener.notify heap report address)

/-- An object reports to its listener, if it has one. -/
def reportToOwn (kind : Report) (address : Address) : Step Unit := do
  match (← objectAt address).listener with
  | some which => report which kind address
  | none => pure ()

/-- An object reports that it has changed; locations do not do so. -/
def reportChanged (address : Address) : Step Unit := do
  if (← objectAt address).kind ≠ .location then reportToOwn .changed address

/-- Sets the listener of an object, which reports to it at once. -/
def manage (name listener : String) : Step Unit := do
  let address ← addressOf name
  let which ← listenerNamed listener
  mapHeap fun heap => heap.update address fun object => { object with listener := some which }
  report which .managed address

/-- Takes the listener from an object, which reports to it once more. -/
def unmanage (name : String) : Step Unit := do
  let address ← addressOf name
  let before ← objectAt address
  mapHeap fun heap => heap.update address fun object => { object with listener := none }
  match before.listener with
  | some which => report which .unmanaged address
  | none => pure ()

/-- Reports an object to a listener, whether it is the object's own or not. -/
def notify (listener : String) (kind : Report) (name : String) : Step Unit := do
  let which ← listenerNamed listener
  report which kind (← addressOf name)

/-- Reports the change of a new object that is peculiar in some way. -/
def notifyPeculiar (listener : String) (kind : ObjectKind) (id : String) (behaviour : Behaviour) :
    Step Unit := do
  let which ← listenerNamed listener
  let object := { LiveObject.blank kind id "Broken" with behaviour := behaviour }
  let address ← onHeap (Heap.create object)
  report which .changed address

/-! ## Windows -/

/-- Changes the window of a listener, whether it takes reports or not. -/
def mapWindow (name : String) (change : Window → Window) : Step Unit := do
  mapListener (← collectorNamed name) fun listener =>
    { listener with window := change listener.window }

def windowOf (name : String) : Step Window := do
  let which ← collectorNamed name
  match (← get).listener? which with
  | some listener => return listener.window
  | none => return .empty

/-- Stops a listener, and tells whether it is stopped. -/
def stopListener (name : String) : Step Bool := do
  let which ← listenerNamed name
  mapListener which Listener.stop
  return (((← get).listener? which).map Listener.stopped).getD true

def recordChanged (listener name : String) : Step Unit := do
  let heap ← heapOf
  let address ← addressOf name
  mapWindow listener fun window => window.recordObject heap address

def recordRemoved (listener : String) (key : ObjectKey) : Step Unit :=
  mapWindow listener (Window.recordRemoved key)

/-- Ids and display names of the changed entities of a window that can give their records. -/
def displayNames (heap : Heap) (window : Window) : List (String × Option String) :=
  (Window.recordsOf heap window.entities).1.map fun memento =>
    (memento.id, memento.common.displayName)

/-- Takes the window of a listener, with the display names of its entities. -/
def swapWindow (name : String) : Step (Window × List (String × Option String)) := do
  let window ← windowOf name
  mapWindow name fun _ => .empty
  return (window, displayNames (← heapOf) window)

/-- A window shown for people. -/
def shownWindow (window : Window) : String :=
  Text.shownRecord "DeltaSnapshot"
    [("entities", Text.quotedList window.entities.changed.keys),
      ("locations", Text.quotedList window.locations.changed.keys),
      ("policies", Text.quotedList window.policies.changed.keys),
      ("removed_entity_ids", Text.quotedSet window.entities.removed),
      ("removed_location_ids", Text.quotedSet window.locations.removed),
      ("removed_policy_ids", Text.quotedSet window.policies.removed)]

end GraphCheckpoint.Session
