import GraphCheckpoint.Proofs.Persist.Schedule
import GraphCheckpoint.Proofs.Stateful
import GraphCheckpoint.Proofs.Watch.Scene
import GraphCheckpoint.Session.Persisting

/-!
Contract: what the steps of a session do while one manager takes reports.

Owns:
- `Session.Service`, what a session has for writing;
- `Session.Standing`, a session whose manager takes reports, with its heap and window;
- the outcome of every step that makes, changes, links or reports objects;
- the outcome of the steps that give a manager its store and start it.

Does not own: the order of steps.
-/

namespace GraphCheckpoint.Session

open GraphCheckpoint.Store

variable {session : Session} {index : Nat} {names : Table Address} {heap : Heap} {window : Window}
variable {address : Address} {object : LiveObject}

/-- What a session has for writing: its stores, and whether its manager runs and to which of them. -/
structure Service where
  running : Bool
  store : Option StoreRef
  stores : Array AnyStore
  storeNames : Table StoreRef

/-- No store that records reacts to what it takes. -/
def Quiet (stores : Array AnyStore) : Prop :=
  ∀ (index : Nat) recording, stores[index]? = some (.recording recording) →
    recording.reactions = Reactions.none

/-- The manager takes reports, and no cycle is under way. -/
structure Attending (service : Service) (window : Window) (manager : Manager) : Prop where
  enabled : manager.config.persistenceEnabled = true
  running : manager.persister.running = service.running
  store : manager.persister.store = service.store
  listener : manager.persister.listener = ⟨window, false⟩
  idle : manager.schedule.writing = none
  alone : manager.schedule.waiting = []

/-- A session with these named objects, this heap and this window of its manager. -/
structure Standing (session : Session) (index : Nat) (service : Service) (names : Table Address)
    (heap : Heap) (window : Window) : Prop where
  heap : session.heap = heap
  names : session.objects = names
  inUse : session.manager = some index
  released : session.heldBack = none
  stores : session.stores = service.stores
  storeNames : session.storeNames = service.storeNames
  quiet : Quiet service.stores
  manager : ∃ manager, session.managers[index]? = some manager ∧ Attending service window manager

variable {service : Service}

/-! ## Parts of steps -/

theorem get_run : (get : Step Session) session = (.ok session, session) := rfl

theorem heapOf_run : heapOf session = (.ok session.heap, session) := rfl

theorem mapHeap_run (change : Heap → Heap) :
    mapHeap change session = (.ok (), { session with heap := change session.heap }) := rfl

theorem named_run {α : Type} {what : String} {table : Session → Table α} {name : String} {found : α}
    (isFound : (table session).get? name = some found) :
    named what table name session = (.ok found, session) := by
  refine (bind_ok get_run).trans ?_
  rw [isFound]
  rfl

/-- What has been found under a name stands under it. -/
theorem named_eq_ok {α : Type} {what : String} {table : Session → Table α} {name : String}
    {found : α} {after : Session} (ran : named what table name session = (.ok found, after)) :
    after = session ∧ (table session).get? name = some found := by
  replace ran := (bind_ok get_run).symm.trans ran
  cases isNamed : (table session).get? name with
  | none =>
      rw [isNamed] at ran
      cases ran
  | some other =>
      rw [isNamed] at ran
      cases ran
      exact ⟨rfl, rfl⟩

theorem addressOf_run {name : String} (isFound : session.objects.get? name = some address) :
    addressOf name session = (.ok address, session) := named_run isFound

theorem objectAt_run (isObject : session.heap.object? address = some object) :
    objectAt address session = (.ok object, session) := by
  refine (bind_ok heapOf_run).trans ?_
  rw [isObject]
  rfl

theorem managerIndex_run (inUse : session.manager = some index) :
    managerIndex session = (.ok index, session) := by
  refine (bind_ok get_run).trans ?_
  rw [inUse]
  rfl

theorem currentManager_run (inUse : session.manager = some index) {manager : Manager}
    (isManager : session.managers[index]? = some manager) :
    currentManager session = (.ok manager, session) := by
  refine (bind_ok (managerIndex_run inUse)).trans ((bind_ok get_run).trans ?_)
  rw [isManager]
  rfl

/-- A change of one manager. -/
def modifyManager (index : Nat) (change : Manager → Manager) (session : Session) : Session :=
  { session with managers := session.managers.modify index change }

/-- The changed manager. -/
theorem getElem?_modifyManager {manager : Manager}
    (isManager : session.managers[index]? = some manager)
    (change : Manager → Manager) :
    (session.modifyManager index change).managers[index]? = some (change manager) := by
  rw [modifyManager, Array.getElem?_modify, if_pos rfl, isManager]
  rfl

theorem mapManager_run (inUse : session.manager = some index) (change : Manager → Manager) :
    mapManager change session = (.ok (), session.modifyManager index change) :=
  bind_ok (managerIndex_run inUse)

theorem storeAt_run {which : StoreRef} {store : AnyStore}
    (isStore : session.stores[which.index]? = some store) :
    storeAt which session = (.ok store, session) := by
  refine (bind_ok get_run).trans ?_
  rw [isStore]
  rfl

section Standing

variable (standing : session.Standing index service names heap window)

include standing

theorem Standing.listenerNamed_run :
    listenerNamed "manager" session = (.ok (.manager index), session) := by
  obtain ⟨manager, isManager, attending⟩ := standing.manager
  refine (bind_ok (currentManager_run standing.inUse isManager)).trans ?_
  rw [attending.enabled, if_pos rfl]
  exact bind_ok (managerIndex_run standing.inUse)

/-- Another heap or other names leave the manager as it is. -/
theorem Standing.with_heap (changed : Heap) :
    { session with heap := changed }.Standing index service names changed window :=
  { standing with heap := rfl }

theorem Standing.listener?_eq :
    session.listener? (.manager index) = some ⟨window, false⟩ := by
  obtain ⟨manager, isManager, attending⟩ := standing.manager
  rw [listener?, isManager, Option.map_some, attending.listener]

theorem Standing.with_manager {change : Manager → Manager} {changedWindow : Window}
    {running : Bool} {store : Option StoreRef}
    (changes : ∀ manager, Attending service window manager →
      Attending { service with running := running, store := store } changedWindow
        (change manager)) :
    { session with managers := session.managers.modify index change }.Standing index
      { service with running := running, store := store } names heap changedWindow where
  heap := standing.heap
  names := standing.names
  inUse := standing.inUse
  released := standing.released
  stores := standing.stores
  storeNames := standing.storeNames
  quiet := standing.quiet
  manager := by
    obtain ⟨manager, isManager, attending⟩ := standing.manager
    refine ⟨change manager, ?_, changes manager attending⟩
    rw [Array.getElem?_modify, if_pos rfl, isManager]
    rfl

/-- A report changes the window of the manager. -/
theorem Standing.report_run (isObject : heap.object? address = some object)
    (ordinary : object.behaviour = .ordinary) (kind : Report) :
    ∃ after, report (.manager index) kind address session = (.ok (), after) ∧
      after.Standing index service names heap
        (kind.apply heap address (kind.gather heap address) window) := by
  obtain rfl := standing.heap
  let hear : Manager → Manager := fun manager => manager.mapPersister fun persister =>
    { persister with listener := Listener.notify session.heap kind address persister.listener }
  refine ⟨{ session with managers := session.managers.modify index hear },
    (bind_ok get_run).trans ?_, standing.with_manager fun manager attending => ?_⟩
  · rw [standing.listener?_eq]
    refine (bind_ok (objectAt_run isObject)).trans ?_
    rw [ordinary]
    exact bind_ok heapOf_run
  · refine { attending with listener := ?_ }
    change Listener.notify session.heap kind address manager.persister.listener = _
    rw [attending.listener]
    rfl

/-- A manager that starts keeps what is noted. -/
theorem Standing.start_run :
    ∃ after, mapManager Manager.start session = (.ok (), after) ∧
      after.Standing index { service with running := true } names heap window := by
  refine ⟨_, mapManager_run standing.inUse _, standing.with_manager fun manager attending => ?_⟩
  have started : manager.start = manager.mapPersister Persister.start := if_pos attending.enabled
  rw [started]
  refine { attending with running := rfl, listener := ?_ }
  show manager.persister.listener.resume = _
  rw [attending.listener]
  rfl

/-- A manager that gets a store, or loses it, keeps what is noted. -/
theorem Standing.setBackend_run {name : Option String} {after : Session} {isSet : Bool}
    (ran : setBackend name session = (.ok isSet, after)) :
    ∃ store, after.Standing index { service with store := store } names heap window ∧
      store.isSome = name.isSome ∧
        ∀ which, store = some which → ∃ known, service.storeNames.get? known = some which := by
  obtain ⟨store, between, found, goesOn⟩ := bind_eq_ok ran
  have isFound : between = session ∧ store.isSome = name.isSome ∧
      ∀ which, store = some which → ∃ known, service.storeNames.get? known = some which := by
    cases name with
    | none =>
        cases found
        exact ⟨rfl, rfl, nofun⟩
    | some known =>
        obtain ⟨which, other, isNamed, isStore⟩ := bind_eq_ok found
        obtain ⟨rfl, isKnown⟩ := named_eq_ok isNamed
        cases isStore
        rw [standing.storeNames] at isKnown
        refine ⟨rfl, rfl, fun other isOther => ⟨known, ?_⟩⟩
        rw [isKnown, isOther]
  obtain ⟨rfl, isStore⟩ := isFound
  refine ⟨store, ?_, isStore⟩
  let change := Manager.mapPersister (Persister.setStore store)
  have standingAfter : (between.modifyManager index change).Standing index
      { service with store := store } names heap window :=
    standing.with_manager fun manager attending => { attending with store := rfl }
  obtain ⟨manager, isManager, -⟩ := standingAfter.manager
  have ended := (bind_ok (mapManager_run standing.inUse change)).symm.trans goesOn
  replace ended := (bind_ok (currentManager_run standingAfter.inUse isManager)).symm.trans ended
  cases ended
  exact standingAfter

end Standing

/-! ## Reports of objects -/

/-- Every object records its state. Its listener, if it has one, is that of a certain manager;
locations have none. -/
def Heard (heap : Heap) (index : Nat) : Prop :=
  ∀ address object, heap.object? address = some object → object.behaviour = .ordinary ∧
    (object.listener = none ∨
      (object.listener = some (.manager index) ∧ object.kind ≠ .location))

theorem Heard.sameRoles {after : Heap} (heard : Heard heap index) (same : heap.SameRoles after) :
    Heard after index := by
  intro address object isObject
  obtain ⟨other, isOther, sameRole⟩ := same.symm.exists_object isObject
  have found := heard address other isOther
  have sameKey : other.key = object.key := congrArg Prod.fst sameRole
  have sameKind : other.kind = object.kind := congrArg ObjectKey.kind sameKey
  have sameListener : other.listener = object.listener := congrArg (fun role => role.2.1) sameRole
  have sameBehaviour : other.behaviour = object.behaviour :=
    congrArg (fun role => role.2.2) sameRole
  rw [sameKind, sameListener, sameBehaviour] at found
  exact found

/-- An object that has changed reports it if it is watched. -/
theorem Standing.reportChanged_run (standing : session.Standing index service names heap window)
    (heard : Heard heap index) (isObject : heap.object? address = some object) :
    ∃ after changed, reportChanged address session = (.ok (), after) ∧
      after.Standing index service names heap changed ∧ Heap.Hears heap address window changed := by
  have isObjectNow : session.heap.object? address = some object := standing.heap ▸ isObject
  obtain ⟨ordinary, silent | ⟨listens, notLocation⟩⟩ := heard address object isObject
  · refine ⟨session, window, (bind_ok (objectAt_run isObjectNow)).trans ?_, standing,
      .unwatched ?_⟩
    · split
      · refine (bind_ok (objectAt_run isObjectNow)).trans ?_
        rw [silent]
        rfl
      · rfl
    · rintro ⟨other, isOther, watched⟩
      rw [isObject] at isOther
      cases isOther
      rw [silent] at watched
      cases watched
  · obtain ⟨after, ran, standingAfter⟩ := standing.report_run isObject ordinary .changed
    refine ⟨after, _, (bind_ok (objectAt_run isObjectNow)).trans ?_, standingAfter, .watched ?_⟩
    · rw [if_pos notLocation]
      refine (bind_ok (objectAt_run isObjectNow)).trans ?_
      rw [listens]
      exact ran
    · exact ⟨object, isObject, by rw [listens]; rfl⟩

/-! ## Steps on objects -/

section Steps

variable (standing : session.Standing index service names heap window)

include standing

theorem Standing.named_address {name : String} (isNamed : names.get? name = some address) :
    addressOf name session = (.ok address, session) :=
  addressOf_run (by rw [standing.names]; exact isNamed)

theorem Standing.makeObject_run (kind : ObjectKind) (name id typeName : String) :
    ∃ after, makeObject kind name id typeName session = (.ok (), after) ∧
      after.Standing index service (names.insert name ⟨heap.objects.size⟩)
        (heap.create (.blank kind id typeName)).2 window := by
  obtain rfl := standing.heap
  obtain rfl := standing.names
  exact ⟨_, rfl, { standing with heap := rfl, names := rfl }⟩

variable {name : String}

theorem Standing.changeObject_run (isNamed : names.get? name = some address)
    {change : LiveObject → LiveObject} (heard : Heard (heap.update address change) index)
    (isObject : (heap.update address change).object? address = some object) :
    ∃ after changed, changeObject name change session = (.ok (), after) ∧
      after.Standing index service names (heap.update address change) changed ∧
        Heap.Hears (heap.update address change) address window changed := by
  obtain rfl := standing.heap
  obtain ⟨after, changed, ran, standingAfter, hears⟩ :=
    (standing.with_heap _).reportChanged_run heard isObject
  exact ⟨after, changed, (bind_ok (standing.named_address isNamed)).trans
    ((bind_ok (mapHeap_run _)).trans ran), standingAfter, hears⟩

/-- The list of an entity to which an object of a kind is attached. -/
def attachTo (kind : ObjectKind) (asEnricher : Bool) : Address → Address → Heap → Heap :=
  if asEnricher then Heap.addEnricher
  else if kind = .location then Heap.addLocation
  else Heap.addPolicy

omit standing in
theorem attach_eq (owner target : String) (asEnricher : Bool) :
    attach owner target asEnricher = (do
      let ownerAddress ← addressOf owner
      let targetAddress ← addressOf target
      let targetObject ← objectAt targetAddress
      mapHeap (attachTo targetObject.kind asEnricher ownerAddress targetAddress)
      reportChanged ownerAddress) := rfl

theorem Standing.attach_run {owner target : String} {targetAddress : Address}
    {targetObject : LiveObject} {asEnricher : Bool}
    (ownerNamed : names.get? owner = some address)
    (targetNamed : names.get? target = some targetAddress)
    (isTarget : heap.object? targetAddress = some targetObject)
    (heard : Heard (attachTo targetObject.kind asEnricher address targetAddress heap) index)
    (isObject : (attachTo targetObject.kind asEnricher address targetAddress heap).object? address =
      some object) :
    ∃ after changed, attach owner target asEnricher session = (.ok (), after) ∧
      after.Standing index service names (attachTo targetObject.kind asEnricher address targetAddress heap)
        changed ∧
      Heap.Hears (attachTo targetObject.kind asEnricher address targetAddress heap) address window
        changed := by
  obtain rfl := standing.heap
  obtain ⟨after, changed, ran, standingAfter, hears⟩ :=
    (standing.with_heap _).reportChanged_run heard isObject
  refine ⟨after, changed, ?_, standingAfter, hears⟩
  rw [attach_eq]
  exact (bind_ok (standing.named_address ownerNamed)).trans
    ((bind_ok (standing.named_address targetNamed)).trans ((bind_ok (objectAt_run isTarget)).trans
      ((bind_ok (mapHeap_run _)).trans ran)))

variable {parent child : String} {parentAddress childAddress : Address}
variable {parentObject childObject : LiveObject}

theorem Standing.addChildLocation_run (parentNamed : names.get? parent = some parentAddress)
    (childNamed : names.get? child = some childAddress)
    (isParent : heap.object? parentAddress = some parentObject)
    (notEntity : parentObject.kind ≠ .entity) :
    ∃ after, addChild parent child session = (.ok (), after) ∧
      after.Standing index service names (heap.addChildLocation parentAddress childAddress) window := by
  obtain rfl := standing.heap
  refine ⟨_, (bind_ok (standing.named_address parentNamed)).trans
    ((bind_ok (standing.named_address childNamed)).trans ((bind_ok (objectAt_run isParent)).trans
      ?_)), standing.with_heap _⟩
  cases isKind : parentObject.kind with
  | entity => exact absurd isKind notEntity
  | location => rfl
  | policy => rfl

theorem Standing.addChildEntity_run (parentNamed : names.get? parent = some parentAddress)
    (childNamed : names.get? child = some childAddress)
    (isParent : heap.object? parentAddress = some parentObject)
    (isEntity : parentObject.kind = .entity)
    (heard : Heard (heap.addChildEntity parentAddress childAddress) index)
    (isParentAfter :
      (heap.addChildEntity parentAddress childAddress).object? parentAddress = some object)
    (isChildAfter :
      (heap.addChildEntity parentAddress childAddress).object? childAddress = some childObject) :
    ∃ after between changed, addChild parent child session = (.ok (), after) ∧
      after.Standing index service names (heap.addChildEntity parentAddress childAddress) changed ∧
      Heap.Hears (heap.addChildEntity parentAddress childAddress) parentAddress window between ∧
      Heap.Hears (heap.addChildEntity parentAddress childAddress) childAddress between changed := by
  obtain rfl := standing.heap
  obtain ⟨middle, between, ranFirst, standingMiddle, hearsFirst⟩ :=
    (standing.with_heap _).reportChanged_run heard isParentAfter
  obtain ⟨after, changed, ranSecond, standingAfter, hearsSecond⟩ :=
    standingMiddle.reportChanged_run heard isChildAfter
  refine ⟨after, between, changed, (bind_ok (standing.named_address parentNamed)).trans
    ((bind_ok (standing.named_address childNamed)).trans ((bind_ok (objectAt_run isParent)).trans
      ?_)), standingAfter, hearsFirst, hearsSecond⟩
  rw [isEntity]
  exact (bind_ok (mapHeap_run _)).trans ((bind_ok ranFirst).trans ranSecond)

theorem Standing.manage_run (isNamed : names.get? name = some address)
    (isObject : (heap.listening address (some (.manager index))).object? address = some object)
    (ordinary : object.behaviour = .ordinary) :
    ∃ after, manage name "manager" session = (.ok (), after) ∧
      after.Standing index service names (heap.listening address (some (.manager index)))
        (window.recordWith (heap.listening address (some (.manager index))) address
          (Window.locationsAround (heap.listening address (some (.manager index))) address)) := by
  obtain rfl := standing.heap
  obtain ⟨after, ran, standingAfter⟩ :=
    (standing.with_heap (session.heap.listening address (some (.manager index)))).report_run
      isObject ordinary .managed
  exact ⟨after, (bind_ok (standing.named_address isNamed)).trans
    ((bind_ok standing.listenerNamed_run).trans ((bind_ok (mapHeap_run _)).trans ran)),
    standingAfter⟩

theorem Standing.unmanage_run (isNamed : names.get? name = some address)
    (isObject : heap.object? address = some object) (ordinary : object.behaviour = .ordinary)
    (listens : object.listener = none ∨ object.listener = some (.manager index)) :
    ∃ after, unmanage name session = (.ok (), after) ∧
      after.Standing index service names (heap.listening address none)
        (if object.listener.isSome then window.recordRemoved object.key else window) := by
  obtain rfl := standing.heap
  have standingWithout := standing.with_heap (session.heap.listening address none)
  have isObjectAfter : (session.heap.listening address none).object? address =
      some { object with listener := none } := by
    rw [Heap.object?_listening, if_pos rfl, isObject]
    rfl
  rcases listens with silent | listens
  · refine ⟨{ session with heap := session.heap.listening address none },
      (bind_ok (standing.named_address isNamed)).trans
        ((bind_ok (objectAt_run isObject)).trans ((bind_ok (mapHeap_run _)).trans ?_)), ?_⟩
    · rw [silent]
      rfl
    · rw [silent]
      exact standingWithout
  · obtain ⟨after, ran, standingAfter⟩ :=
      standingWithout.report_run isObjectAfter ordinary .unmanaged
    refine ⟨after, (bind_ok (standing.named_address isNamed)).trans
      ((bind_ok (objectAt_run isObject)).trans ((bind_ok (mapHeap_run _)).trans ?_)), ?_⟩
    · rw [listens]
      exact ran
    · rw [listens]
      rw [Report.apply, isObjectAfter] at standingAfter
      exact standingAfter

end Steps

end GraphCheckpoint.Session
