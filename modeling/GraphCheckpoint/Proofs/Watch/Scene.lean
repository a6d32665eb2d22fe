import GraphCheckpoint.Proofs.Live.Roles
import GraphCheckpoint.Proofs.Watch.Window

/-!
Contract: what lives, what is noted for the next write, and what is stored, taken together.

Owns:
- `Scene`, a heap, a window and a stored graph, and the steps that they take together: growth of the
  heap, a report, the end of watching, and a write;
- `Scene.Sound`, the scenes that these steps lead to;
- the records that a write brings.

Does not own: which records refer to which.
-/

namespace GraphCheckpoint

/-- What lives, what is noted for the next write, and what has been written. -/
structure Scene where
  heap : Heap
  window : Window
  graph : Graph LiveValue

/-! ## Records of objects -/

namespace Heap

variable {heap : Heap} {x : Address}

theorem memento?_of_object (ordinary : heap.Ordinary) {object : LiveObject}
    (isObject : heap.object? x = some object) :
    heap.memento? x = some (.ok (LiveObject.stateMemento object.common object.state)) := by
  rw [memento?, isObject, Option.map_some, LiveObject.memento, ordinary x object isObject]

private theorem object_of_memento? (ordinary : heap.Ordinary) {memento : ObjectMemento LiveValue}
    (gives : heap.memento? x = some (.ok memento)) :
    ∃ object, heap.object? x = some object ∧
      LiveObject.stateMemento object.common object.state = memento := by
  cases isObject : heap.object? x with
  | none =>
      rw [memento?, isObject] at gives
      cases gives
  | some object =>
      rw [memento?_of_object ordinary isObject] at gives
      cases gives
      exact ⟨object, rfl, rfl⟩

/-- The record of a location names what its links lead to. -/
theorem links_of_memento? (ordinary : heap.Ordinary) {memento : LocationMemento LiveValue}
    (gives : heap.memento? x = some (.ok (.location memento))) :
    heap.Holds ⟨.location, memento.id⟩ x ∧ ∃ links, heap.locationLinks? x = some links ∧
      memento.parent = links.parent.map WeakLink.id ∧
        memento.children = links.children.map Handle.id := by
  obtain ⟨object, isObject, isMemento⟩ := object_of_memento? ordinary gives
  have isLinks : heap.locationLinks? x = object.locationLinks? := by
    rw [locationLinks?, isObject, Option.bind_some]
  cases isState : object.state with
  | location links =>
      rw [isState] at isMemento
      cases isMemento
      refine ⟨⟨object, isObject, ?_⟩, links, ?_, rfl, rfl⟩
      · rw [LiveObject.key, LiveObject.kind, isState]
        rfl
      · rw [isLinks, LiveObject.locationLinks?, isState]
  | entity links =>
      rw [isState] at isMemento
      cases isMemento
  | policy flags =>
      rw [isState] at isMemento
      cases isMemento

/-- The record of an entity names its places. -/
theorem places_of_memento? (ordinary : heap.Ordinary) {memento : EntityMemento LiveValue}
    (gives : heap.memento? x = some (.ok (.entity memento))) :
    heap.Holds ⟨.entity, memento.id⟩ x ∧ memento.locations = (heap.places x).map Handle.id := by
  obtain ⟨object, isObject, isMemento⟩ := object_of_memento? ordinary gives
  have isPlaces : heap.places x = (object.entityLinks?.map EntityLinks.locations).getD [] := by
    rw [places, isObject, Option.bind_some]
  cases isState : object.state with
  | entity links =>
      rw [isState] at isMemento
      cases isMemento
      refine ⟨⟨object, isObject, ?_⟩, ?_⟩
      · rw [LiveObject.key, LiveObject.kind, isState]
        rfl
      · rw [isPlaces, LiveObject.entityLinks?, isState]
        rfl
  | location links =>
      rw [isState] at isMemento
      cases isMemento
  | policy flags =>
      rw [isState] at isMemento
      cases isMemento

/-- Every location gives a record. -/
theorem exists_memento?_of_location (ordinary : heap.Ordinary) {id : String}
    (holds : heap.Holds ⟨.location, id⟩ x) :
    ∃ memento : LocationMemento LiveValue,
      heap.memento? x = some (.ok (.location memento)) ∧ memento.id = id := by
  obtain ⟨object, isObject, isKey⟩ := holds
  have isKind : object.kind = .location := congrArg ObjectKey.kind isKey
  have isId : object.id = id := congrArg ObjectKey.id isKey
  rw [memento?_of_object ordinary isObject]
  unfold LiveObject.kind at isKind
  cases isState : object.state with
  | location links => exact ⟨_, rfl, isId⟩
  | entity links =>
      rw [isState] at isKind
      cases isKind
  | policy flags =>
      rw [isState] at isKind
      cases isKind

/-- The window after a change of an object, which reports it if it is watched. -/
inductive Hears (heap : Heap) (address : Address) (window : Window) : Window → Prop
  | watched (watched : heap.Watched address) :
      Hears heap address window
        (window.recordWith heap address (Window.locationsAround heap address))
  | unwatched (unwatched : ¬ heap.Watched address) : Hears heap address window window

/-- The window after several objects have reported in turn. -/
inductive HearsAll (heap : Heap) : List Address → Window → Window → Prop
  | nil {window : Window} : HearsAll heap [] window window
  | cons {address : Address} {others : List Address} {before between after : Window}
      (hears : Hears heap address before between) (later : HearsAll heap others between after) :
      HearsAll heap (address :: others) before after

theorem HearsAll.one {before after : Window} (hears : heap.Hears x before after) :
    heap.HearsAll [x] before after :=
  .cons hears .nil

/-! ## Listeners -/

/-- The heap after an object has got a listener, or has lost it. -/
def listening (address : Address) (listener : Option ListenerRef) (heap : Heap) : Heap :=
  heap.update address fun object => { object with listener := listener }

theorem samePlaces_listening (address : Address) (listener : Option ListenerRef) (heap : Heap) :
    heap.SamePlaces (heap.listening address listener) :=
  samePlaces_update ⟨fun _ => rfl, fun _ => rfl, fun _ => rfl⟩

theorem object?_listening (address : Address) (listener : Option ListenerRef) (heap : Heap) :
    (heap.listening address listener).object? x =
      if x = address then (heap.object? x).map fun object => { object with listener := listener }
      else heap.object? x :=
  object?_update _

/-- An object that has no listener loses none. -/
theorem object?_listening_of_silent {address : Address} {object : LiveObject}
    (isObject : heap.object? address = some object) (silent : object.listener = none) :
    (heap.listening address none).object? x = heap.object? x := by
  rw [object?_listening]
  split
  · rename_i isAddress
    rw [isAddress, isObject, Option.map_some, ← silent]
  · rfl

theorem sameRoles_listening {address : Address} {object : LiveObject}
    (isObject : heap.object? address = some object) (silent : object.listener = none) :
    heap.SameRoles (heap.listening address none) := by
  intro x
  rw [object?_listening_of_silent isObject silent]

/-- Listeners have nothing to do with which object lives where. -/
theorem holds_of_listening {address : Address} {listener : Option ListenerRef} {key : ObjectKey}
    (holds : (heap.listening address listener).Holds key x) : heap.Holds key x := by
  obtain ⟨object, isObject, isKey⟩ := holds
  rw [object?_listening] at isObject
  split at isObject
  · obtain ⟨old, isOld, rfl⟩ := Option.map_eq_some_iff.mp isObject
    exact ⟨old, isOld, isKey⟩
  · exact ⟨object, isObject, isKey⟩

theorem DistinctLocations.listening (distinct : heap.DistinctLocations) (address : Address)
    (listener : Option ListenerRef) : (heap.listening address listener).DistinctLocations :=
  fun id y z yHolds zHolds =>
    distinct id y z (holds_of_listening yHolds) (holds_of_listening zHolds)

theorem Ordinary.listening (ordinary : heap.Ordinary) (address : Address)
    (listener : Option ListenerRef) : (heap.listening address listener).Ordinary := by
  intro place object isObject
  rw [object?_listening] at isObject
  split at isObject
  · obtain ⟨old, isOld, rfl⟩ := Option.map_eq_some_iff.mp isObject
    exact ordinary place old isOld
  · exact ordinary place object isObject

/-- An object without a listener is not watched; the others are as they were. -/
theorem watched_listening_none {address : Address} :
    (heap.listening address none).Watched x ↔ heap.Watched x ∧ x ≠ address := by
  unfold Watched
  rw [object?_listening]
  split
  · rename_i isAddress
    cases heap.object? x <;> simp [isAddress]
  · rename_i differs
    simp [differs]

/-- With a listener one more object may be watched. -/
theorem watched_listening_some {address : Address} {listener : ListenerRef} :
    (heap.listening address (some listener)).Watched x → heap.Watched x ∨ x = address := by
  unfold Watched
  rw [object?_listening]
  split
  · rename_i isAddress
    exact fun _ => Or.inr isAddress
  · exact Or.inl

theorem watched_listening_some_of_watched {address : Address} {listener : ListenerRef}
    (watched : heap.Watched x) : (heap.listening address (some listener)).Watched x := by
  obtain ⟨object, isObject, listens⟩ := watched
  rw [Watched, object?_listening]
  split
  · exact ⟨_, congrArg _ isObject, rfl⟩
  · exact ⟨object, isObject, listens⟩

end Heap

namespace Scene

variable {scene : Scene} {after : Heap} {e x : Address} {id : String}

/-! ## Steps -/

/-- The objects change, or there are more. -/
def grow (after : Heap) (scene : Scene) : Scene := { scene with heap := after }

/-- An object reports a change. -/
def report (e : Address) (scene : Scene) : Scene :=
  { scene with
    window := scene.window.recordWith scene.heap e (Window.locationsAround scene.heap e) }

/-- The listener of an object is taken away, and its id is noted as removed. -/
def unwatch (e : Address) (key : ObjectKey) (scene : Scene) : Scene :=
  { scene with
    heap := scene.heap.listening e none
    window := scene.window.recordRemoved key }

/-- What is noted is written. -/
def write (scene : Scene) : Scene :=
  ⟨scene.heap, .empty, scene.graph.apply (scene.window.toDelta scene.heap).1⟩

/-- The scenes that steps lead to: whatever is noted gives its record, and every entity noted has a
listener. -/
structure Sound (scene : Scene) : Prop where
  tidy : scene.heap.Tidy
  ordinary : scene.heap.Ordinary
  filed : scene.window.Filed scene.heap
  unremoved : scene.window.locations.removed = []
  watched : ∀ entry ∈ scene.window.entities.changed, scene.heap.Watched entry.2
  entitiesOrdered : scene.graph.entities.Ordered
  locationsOrdered : scene.graph.locations.Ordered

theorem sound_empty {heap : Heap} (tidy : heap.Tidy) (ordinary : heap.Ordinary) :
    Sound ⟨heap, .empty, .empty⟩ :=
  ⟨tidy, ordinary, Window.filed_empty, rfl, nofun, .nil, .nil⟩

theorem Sound.grow (sound : scene.Sound) (growth : scene.heap.Extends after)
    (tidy : after.Tidy) (ordinary : after.Ordinary)
    (watched : ∀ x, scene.heap.Watched x → after.Watched x) : (scene.grow after).Sound where
  tidy := tidy
  ordinary := ordinary
  filed := sound.filed.grow growth
  unremoved := sound.unremoved
  watched := fun entry member => watched _ (sound.watched entry member)
  entitiesOrdered := sound.entitiesOrdered
  locationsOrdered := sound.locationsOrdered

/-- A report gathers locations only. -/
theorem holds_of_mem_locationsAround (tidy : scene.heap.Tidy)
    (member : x ∈ Window.locationsAround scene.heap e) :
    ∃ id, scene.heap.Holds ⟨.location, id⟩ x := by
  obtain ⟨place, isPlace, inHierarchy⟩ := List.mem_flatMap.mp member
  obtain ⟨_, holds⟩ := tidy.holds_of_mem_deployedAt isPlace
  exact Heap.holds_of_mem_locationsInHierarchy tidy.linksLocations holds inHierarchy

theorem notes_report (e : Address) (scene : Scene) :
    Window.Notes scene.heap (e :: Window.locationsAround scene.heap e) scene.window
      (scene.report e).window :=
  Window.notes_recordWith scene.heap e _ scene.window

theorem Sound.report (sound : scene.Sound) (watched : scene.heap.Watched e) :
    (scene.report e).Sound where
  tidy := sound.tidy
  ordinary := sound.ordinary
  filed := (notes_report e scene).filed sound.filed
  unremoved := ((notes_report e scene).removed .location).trans sound.unremoved
  watched := by
    intro entry member
    rcases (notes_report e scene).origin .entity entry member with old | ⟨isNew, holds⟩
    · exact sound.watched entry old
    · rcases List.mem_cons.mp isNew with isE | gathered
      · rw [isE]
        exact watched
      · obtain ⟨id, holdsLocation⟩ := holds_of_mem_locationsAround sound.tidy gathered
        cases holds.key_unique holdsLocation
  entitiesOrdered := sound.entitiesOrdered
  locationsOrdered := sound.locationsOrdered

theorem samePlaces_unwatch (e : Address) (key : ObjectKey) (scene : Scene) :
    scene.heap.SamePlaces (scene.unwatch e key).heap :=
  Heap.samePlaces_listening e none scene.heap

theorem Sound.unwatch (sound : scene.Sound) {key : ObjectKey} (holds : scene.heap.Holds key e)
    (notLocation : key.kind ≠ .location) : (scene.unwatch e key).Sound where
  tidy := (samePlaces_unwatch e key scene).tidy sound.tidy
  ordinary := sound.ordinary.listening e none
  filed := (Window.filed_recordRemoved sound.filed key).grow (samePlaces_unwatch e key scene).growth
  unremoved :=
    (congrArg WindowPart.removed (Window.locations_recordRemoved notLocation)).trans sound.unremoved
  watched := by
    intro entry member
    have filedAfter := Window.filed_recordRemoved sound.filed key
    have found := Table.get?_of_mem (filedAfter .entity).ordered member
    obtain ⟨differs, noted⟩ := (Window.get?_recordRemoved (sound.filed .entity).ordered).mp found
    have isNoted : entry ∈ scene.window.entities.changed := Table.mem_of_get? noted
    refine Heap.watched_listening_none.mpr ⟨sound.watched entry isNoted, fun isE => ?_⟩
    exact differs (((sound.filed .entity).holds isNoted).key_unique (isE ▸ holds))
  entitiesOrdered := sound.entitiesOrdered
  locationsOrdered := sound.locationsOrdered

theorem Sound.write (sound : scene.Sound) : scene.write.Sound where
  tidy := sound.tidy
  ordinary := sound.ordinary
  filed := Window.filed_empty
  unremoved := rfl
  watched := nofun
  entitiesOrdered := by
    rw [Scene.write, Graph.apply_eq]
    exact (sound.entitiesOrdered.insertAll _).eraseAll _
  locationsOrdered := by
    rw [Scene.write, Graph.apply_eq]
    exact (sound.locationsOrdered.insertAll _).eraseAll _

/-! ## What a write stores -/

section Write

variable (sound : scene.Sound)

include sound

/-- A location stored after a write is recorded from a noted one, or was stored before. -/
theorem location_write {memento : LocationMemento LiveValue}
    (found : scene.write.graph.locations.get? id = some memento) :
    (memento.id = id ∧ ∃ z, (id, z) ∈ scene.window.locations.changed ∧
      scene.heap.memento? z = some (.ok (.location memento))) ∨
      scene.graph.locations.get? id = some memento := by
  rw [write, Graph.apply_eq] at found
  refine (Graph.get?_after sound.locationsOrdered found).2.imp ?_ fun old => old
  rintro ⟨isWritten, isId⟩
  obtain ⟨kind, entry, noted, gives⟩ := Window.mem_locations_toDelta.mp isWritten
  have sameKey := ((sound.filed kind).holds noted).key_unique
    (Heap.links_of_memento? sound.ordinary gives).1
  have isKind : kind = .location := congrArg ObjectKey.kind sameKey
  have sameId : entry.1 = id := (congrArg ObjectKey.id sameKey).trans isId
  subst isKind
  exact ⟨isId, entry.2, sameId ▸ noted, gives⟩

/-- An entity stored after a write is recorded from a noted one, or was stored before; it is not
noted as removed. -/
theorem entity_write {memento : EntityMemento LiveValue}
    (found : scene.write.graph.entities.get? id = some memento) :
    id ∉ scene.window.entities.removed ∧
      ((memento.id = id ∧ ∃ e, (id, e) ∈ scene.window.entities.changed ∧
        scene.heap.memento? e = some (.ok (.entity memento))) ∨
        scene.graph.entities.get? id = some memento) := by
  rw [write, Graph.apply_eq] at found
  obtain ⟨stays, origin⟩ := Graph.get?_after sound.entitiesOrdered found
  have isRemoved : (scene.window.toDelta scene.heap).1.removedEntities =
      scene.window.entities.removed := Window.removed_toDelta scene.heap scene.window .entity
  rw [isRemoved] at stays
  refine ⟨stays, origin.imp ?_ fun old => old⟩
  rintro ⟨isWritten, isId⟩
  obtain ⟨kind, entry, noted, gives⟩ := Window.mem_entities_toDelta.mp isWritten
  have sameKey := ((sound.filed kind).holds noted).key_unique
    (Heap.places_of_memento? sound.ordinary gives).1
  have isKind : kind = .entity := congrArg ObjectKey.kind sameKey
  have sameId : entry.1 = id := (congrArg ObjectKey.id sameKey).trans isId
  subst isKind
  exact ⟨isId, entry.2, sameId ▸ noted, gives⟩

end Write

/-- An id of a location is noted for the next write, or is stored. -/
def Keeps (scene : Scene) (id : String) : Prop :=
  scene.window.locations.changed.contains id = true ∨ scene.graph.locations.contains id = true

/-- The location at an address is noted under its id, or its id is stored. -/
def KeepsAt (scene : Scene) (x : Address) : Prop :=
  ∃ id, scene.heap.Holds ⟨.location, id⟩ x ∧ scene.Keeps id

theorem Keeps.report (keeps : scene.Keeps id) (e : Address) : (scene.report e).Keeps id :=
  keeps.imp (fun noted => @Window.Notes.contains _ _ _ _ .location id (notes_report e scene) noted)
    fun stored => stored

theorem Keeps.unwatch (keeps : scene.Keeps id) {key : ObjectKey}
    (notLocation : key.kind ≠ .location) : (scene.unwatch e key).Keeps id := by
  have same := @Window.locations_recordRemoved scene.window key notLocation
  exact keeps.imp (fun noted => same ▸ noted) fun stored => stored

/-- A write stores all that is noted. -/
theorem Keeps.write (sound : scene.Sound) (keeps : scene.Keeps id) :
    scene.write.graph.locations.contains id = true := by
  have nothing : (scene.window.toDelta scene.heap).1.removedLocations = [] :=
    (Window.removed_toDelta scene.heap scene.window .location).trans sound.unremoved
  rw [Scene.write, Graph.apply_eq, nothing]
  refine Graph.contains_after (keeps.symm.imp (fun stored => stored) fun noted => ?_)
  obtain ⟨z, isNoted⟩ := Table.contains_iff.mp noted
  have member := Table.mem_of_get? isNoted
  obtain ⟨memento, gives, isId⟩ :=
    Heap.exists_memento?_of_location sound.ordinary ((sound.filed .location).holds member)
  exact ⟨memento, Window.mem_locations_toDelta.mpr ⟨.location, (id, z), member, gives⟩, isId⟩

theorem KeepsAt.grow (keeps : scene.KeepsAt x) (growth : scene.heap.Extends after) :
    (scene.grow after).KeepsAt x :=
  keeps.imp fun _ kept => ⟨growth.holds _ _ kept.1, kept.2⟩

theorem KeepsAt.report (keeps : scene.KeepsAt x) (e : Address) : (scene.report e).KeepsAt x :=
  keeps.imp fun _ kept => ⟨kept.1, kept.2.report e⟩

theorem KeepsAt.unwatch (keeps : scene.KeepsAt x) {key : ObjectKey}
    (notLocation : key.kind ≠ .location) : (scene.unwatch e key).KeepsAt x :=
  keeps.imp fun _ kept => ⟨(samePlaces_unwatch e key scene).growth.holds _ _ kept.1,
    kept.2.unwatch notLocation⟩

theorem KeepsAt.write (sound : scene.Sound) (keeps : scene.KeepsAt x) : scene.write.KeepsAt x :=
  keeps.imp fun _ kept => ⟨kept.1, Or.inr (kept.2.write sound)⟩

/-- A report notes every location that it gathers. -/
theorem keepsAt_of_gathered (sound : scene.Sound)
    (gathered : x ∈ Window.locationsAround scene.heap e) : (scene.report e).KeepsAt x := by
  obtain ⟨id, holds⟩ := holds_of_mem_locationsAround sound.tidy gathered
  refine ⟨id, holds, Or.inl ?_⟩
  refine (notes_report e scene).noted .location id x (List.mem_cons_of_mem _ gathered) holds ?_
  intro removed
  have none : id ∈ scene.window.locations.removed := removed
  rw [sound.unremoved] at none
  cases none

end Scene

end GraphCheckpoint
