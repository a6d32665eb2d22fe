import GraphCheckpoint.Proofs.Watch.Charted
import GraphCheckpoint.Proofs.Watch.Reports

/-!
Contract: scenes in which nothing that a watched object has changed is missed.

Owns:
- `Scene.Current`, that the record of every watched object is stored as it is now unless the object is
  noted, and that of other objects nothing is stored unless their ids are noted as removed;
- that growth, reports, the beginning and the end of watching, and writes keep this;
- that after a write exactly the records of the watched objects are stored.

Does not own: locations, which are not watched.

One id of a kind stands for one object here. A removal counts for more than any change until the next
write, so an object that is watched must not be noted as removed.
-/

namespace GraphCheckpoint

namespace Table

variable {α : Type} {key : String} {value : α} {table : Table α} {entries : List (String × α)}

/-- A key that is set to one value only holds that value. -/
theorem get?_insertAll_of_all (isSet : (key, value) ∈ entries)
    (only : ∀ other, (key, other) ∈ entries → other = value) :
    (table.insertAll entries).get? key = some value := by
  obtain ⟨other, found⟩ := contains_iff.mp
    (@contains_insertAll _ key (table.insert key value) entries (Or.inr ⟨value, isSet⟩))
  rw [@get?_insertAll_congr _ key table (table.insert key value) entries (Or.inl ⟨value, isSet⟩),
    found]
  rcases get?_insertAll_cases found with isEntry | isOld
  · rw [only other isEntry]
  · rw [get?_insert_self] at isOld
    exact isOld.symm

end Table

/-- The record of an object has nothing to do with its listener. -/
theorem Heap.memento?_listening {heap : Heap} {x : Address} (address : Address)
    (listener : Option ListenerRef) : (heap.listening address listener).memento? x = heap.memento? x := by
  rw [memento?, memento?, object?_listening]
  split
  · rw [Option.map_map]
    rfl
  · rfl

namespace Scene

variable {scene : Scene} {key other : ObjectKey} {x y e : Address} {owing : Address → Prop}
variable {window : Window} {after : Heap}

/-- The object at an address is noted under a kind and an id. -/
def Noted (key : ObjectKey) (x : Address) (scene : Scene) : Prop :=
  (scene.window.part key.kind).changed.get? key.id = some x

/-- A kind and an id are noted as removed. -/
def Removed (key : ObjectKey) (scene : Scene) : Prop :=
  key.id ∈ (scene.window.part key.kind).removed

/-- The record that is stored under a kind and an id. -/
def stored? (key : ObjectKey) (scene : Scene) : Option (ObjectMemento LiveValue) :=
  (scene.graph.records key.kind).get? key.id

/-- No two objects but locations share a kind and an id. A watched object is not noted as removed, and
it owes a report, is noted, or is stored as it is now. No other object is noted, nor is it stored
unless it is noted as removed. -/
structure Current (owing : Address → Prop) (scene : Scene) : Prop where
  keyed : scene.graph.Keyed
  distinct : ∀ {key x y}, key.kind ≠ .location → scene.heap.Holds key x → scene.heap.Holds key y →
    x = y
  held : ∀ {key record}, key.kind ≠ .location → scene.stored? key = some record →
    ∃ x, scene.heap.Holds key x
  watched : ∀ {key x}, key.kind ≠ .location → scene.heap.Holds key x → scene.heap.Watched x →
    ¬ scene.Removed key ∧
      (owing x ∨ scene.Noted key x ∨ scene.heap.memento? x = (scene.stored? key).map .ok)
  unwatched : ∀ {key x}, key.kind ≠ .location → scene.heap.Holds key x → ¬ scene.heap.Watched x →
    (∀ y, ¬ scene.Noted key y) ∧ (scene.Removed key ∨ scene.stored? key = none)

theorem current_empty {heap : Heap} (noObject : ∀ x, heap.object? x = none) :
    Current owing ⟨heap, .empty, .empty⟩ := by
  have absent : ∀ {P : Prop} {key x}, heap.Holds key x → P := by
    rintro P key x ⟨object, isObject, -⟩
    rw [noObject] at isObject
    cases isObject
  refine ⟨Graph.keyed_empty, fun _ => absent, fun {key record} _ found => ?_, fun _ => absent,
    fun _ => absent⟩
  obtain ⟨kind, id⟩ := key
  cases kind <;> cases found

theorem Current.mono {owingMore : Address → Prop} (current : scene.Current owing)
    (subset : ∀ x, scene.heap.Watched x → owing x → owingMore x) : scene.Current owingMore :=
  { current with
    watched := fun notLocation holds watched =>
      (current.watched notLocation holds watched).imp_right (Or.imp_left (subset _ watched)) }

theorem Sound.holds_of_noted (sound : scene.Sound) (noted : scene.Noted key x) :
    scene.heap.Holds key x :=
  (sound.filed key.kind).holds (Table.mem_of_get? noted)

/-! ## Objects change -/

/-- Objects that change or are watched from now on owe a report. -/
theorem Current.grow {concerned : Address → Prop} (current : scene.Current owing)
    (sameHolds : ∀ {key x}, after.Holds key x ↔ scene.heap.Holds key x)
    (still : ∀ {x}, scene.heap.Watched x → after.Watched x)
    (begins : ∀ {x}, after.Watched x → scene.heap.Watched x ∨
      (concerned x ∧ ∀ key, scene.heap.Holds key x → ¬ scene.Removed key))
    (kept : ∀ {key x}, key.kind ≠ .location → scene.heap.Holds key x →
      concerned x ∨ after.memento? x = scene.heap.memento? x) :
    (scene.grow after).Current fun x => owing x ∨ concerned x where
  keyed := current.keyed
  distinct := fun notLocation holds holdsToo =>
    current.distinct notLocation (sameHolds.mp holds) (sameHolds.mp holdsToo)
  held := by
    intro key record notLocation isStored
    obtain ⟨x, holds⟩ := current.held notLocation isStored
    exact ⟨x, sameHolds.mpr holds⟩
  watched := by
    intro key x notLocation holds watched
    have heldBefore := sameHolds.mp holds
    rcases begins watched with watchedBefore | ⟨isConcerned, notRemoved⟩
    · obtain ⟨notRemoved, state⟩ := current.watched notLocation heldBefore watchedBefore
      refine ⟨notRemoved, ?_⟩
      rcases state with owes | noted | isStored
      · exact Or.inl (Or.inl owes)
      · exact Or.inr (Or.inl noted)
      · rcases kept notLocation heldBefore with isConcerned | sameMemento
        · exact Or.inl (Or.inr isConcerned)
        · exact Or.inr (Or.inr (sameMemento.trans isStored))
    · exact ⟨notRemoved key heldBefore, Or.inl (Or.inr isConcerned)⟩
  unwatched := fun notLocation holds unwatched =>
    current.unwatched notLocation (sameHolds.mp holds) fun watched => unwatched (still watched)

/-- Objects that change owe a report. -/
theorem Current.change {concerned : List Address} (current : scene.Current owing)
    (same : scene.heap.SameRoles after)
    (kept : ∀ {key x}, key.kind ≠ .location → scene.heap.Holds key x → x ∉ concerned →
      after.object? x = scene.heap.object? x) :
    (scene.grow after).Current fun x => owing x ∨ x ∈ concerned := by
  refine current.grow same.holds_iff same.watched_iff.mpr
    (fun watched => Or.inl (same.watched_iff.mp watched)) fun {key x} notLocation holds => ?_
  by_cases isConcerned : x ∈ concerned
  · exact Or.inl isConcerned
  · rw [Heap.memento?, Heap.memento?, kept notLocation holds isConcerned]
    exact Or.inr rfl

/-- Where only locations change, nobody owes a report for it. -/
theorem Current.keep (current : scene.Current owing) (same : scene.heap.SameRoles after)
    (kept : ∀ {key x}, key.kind ≠ .location → scene.heap.Holds key x →
      after.object? x = scene.heap.object? x) : (scene.grow after).Current owing := by
  have changed : (scene.grow after).Current fun x => owing x ∨ x ∈ ([] : List Address) :=
    current.change same fun notLocation holds _ => kept notLocation holds
  refine changed.mono fun x _ owes => owes.resolve_right ?_
  exact List.not_mem_nil

theorem holds_listening_iff {listener : Option ListenerRef} :
    (scene.heap.listening e listener).Holds key x ↔ scene.heap.Holds key x :=
  ⟨Heap.holds_of_listening, (Heap.samePlaces_listening e listener scene.heap).growth.holds key x⟩

/-- An object that is watched from now on owes a report. -/
theorem Current.listen (current : scene.Current owing) (listener : ListenerRef)
    (notRemoved : ∀ key, scene.heap.Holds key e → ¬ scene.Removed key) :
    (scene.grow (scene.heap.listening e (some listener))).Current fun x => owing x ∨ x = e := by
  refine current.grow holds_listening_iff Heap.watched_listening_some_of_watched
    (fun {x} watched => ?_) fun {key x} _ _ => Or.inr (Heap.memento?_listening e (some listener))
  refine (Heap.watched_listening_some watched).imp_right fun isE => ⟨isE, ?_⟩
  subst isE
  exact notRemoved

/-- Of a new object nothing is noted or stored, if no other object has had its kind and id. -/
theorem Current.create (current : scene.Current owing) (sound : scene.Sound) (kind : ObjectKind)
    (id typeName : String) (isNew : kind ≠ .location → ∀ x, ¬ scene.heap.Holds ⟨kind, id⟩ x) :
    (scene.grow (scene.heap.create (.blank kind id typeName)).2).Current owing := by
  let grown := (scene.heap.create (.blank kind id typeName)).2
  have isKey : (LiveObject.blank kind id typeName).key = ⟨kind, id⟩ := by cases kind <;> rfl
  have origin : ∀ {key x}, grown.Holds key x → scene.heap.Holds key x ∨
      (x.index = scene.heap.objects.size ∧ key = ⟨kind, id⟩) := by
    intro key x holds
    refine (Heap.holds_create holds).imp_right fun isLast => ⟨isLast.1, ?_⟩
    rw [← isLast.2, isKey]
  have old : ∀ {key x}, scene.heap.Holds key x →
      grown.object? x = scene.heap.object? x := by
    rintro key x ⟨object, isObject, -⟩
    rw [Heap.object?_create_of_some _ isObject, isObject]
  have watchedIff : ∀ {key x}, scene.heap.Holds key x →
      (grown.Watched x ↔ scene.heap.Watched x) := by
    intro key x holds
    rw [Heap.Watched, Heap.Watched, old holds]
  refine ⟨current.keyed, ?_, ?_, ?_, ?_⟩
  · intro key x y notLocation holds holdsToo
    rcases origin holds with xOld | ⟨xLast, xKey⟩ <;> rcases origin holdsToo with yOld | ⟨yLast, yKey⟩
    · exact current.distinct notLocation xOld yOld
    · subst yKey
      exact absurd xOld (isNew notLocation x)
    · subst xKey
      exact absurd yOld (isNew notLocation y)
    · cases x
      cases y
      exact congrArg Address.mk (xLast.trans yLast.symm)
  · intro key record notLocation isStored
    obtain ⟨x, holds⟩ := current.held notLocation isStored
    exact ⟨x, (Heap.extends_create _).holds key x holds⟩
  · intro key x notLocation holds watched
    rcases origin holds with isOld | ⟨isLast, -⟩
    · have state := current.watched notLocation isOld ((watchedIff isOld).mp watched)
      rw [Heap.memento?] at state
      show _ ∧ (_ ∨ _ ∨ (grown.object? x).map LiveObject.memento = _)
      rw [old isOld]
      exact state
    · obtain ⟨object, isObject, listens⟩ := watched
      have isBlank : grown.object? x = some (.blank kind id typeName) := by
        rw [Heap.object?_create, if_pos isLast]
      rw [show (scene.grow grown).heap.object? x = _ from isBlank] at isObject
      cases isObject
      cases listens
  · intro key x notLocation holds unwatched
    rcases origin holds with isOld | ⟨-, rfl⟩
    · exact current.unwatched notLocation isOld fun watched =>
        unwatched ((watchedIff isOld).mpr watched)
    · refine ⟨fun y noted => isNew notLocation y (sound.holds_of_noted noted), Or.inr ?_⟩
      cases isStored : (scene.grow grown).stored? ⟨kind, id⟩ with
      | none => rfl
      | some record =>
          obtain ⟨y, holdsToo⟩ := current.held notLocation isStored
          exact absurd holdsToo (isNew notLocation y)

/-! ## Reports -/

/-- A watched object that reports is noted. -/
theorem Current.hear (current : scene.Current owing) (sound : scene.Sound)
    (hears : scene.heap.Hears e scene.window window) :
    ({ scene with window := window } : Scene).Current fun x => owing x ∧ x ≠ e := by
  cases hears with
  | unwatched unwatched =>
      refine current.mono fun x watched owes => ⟨owes, ?_⟩
      rintro rfl
      exact unwatched watched
  | watched watched =>
      have notes := notes_report e scene
      have sameRemoved : ∀ key, (scene.report e).Removed key ↔ scene.Removed key := by
        intro key
        rw [Removed, notes.removed, Removed]
      refine ⟨current.keyed, current.distinct, current.held, ?_, ?_⟩
      · intro key x notLocation holds xWatched
        obtain ⟨notRemoved, state⟩ := current.watched notLocation holds xWatched
        refine ⟨fun removed => notRemoved ((sameRemoved key).mp removed), ?_⟩
        rcases state with owes | noted | isStored
        · by_cases isReporter : x = e
          · subst isReporter
            obtain ⟨y, noted⟩ := Table.contains_iff.mp
              (notes.noted key.kind key.id x List.mem_cons_self holds notRemoved)
            have isNoted : ({ scene with window := (scene.report x).window } : Scene).Noted key y :=
              noted
            have same := current.distinct notLocation
              ((sound.report watched).holds_of_noted isNoted) holds
            exact Or.inr (Or.inl (same ▸ noted))
          · exact Or.inl ⟨owes, isReporter⟩
        · exact Or.inr (Or.inl (notes.still key.kind key.id x noted))
        · exact Or.inr (Or.inr isStored)
      · intro key x notLocation holds unwatched
        obtain ⟨notNoted, state⟩ := current.unwatched notLocation holds unwatched
        refine ⟨fun y noted => ?_, state.imp_left (sameRemoved key).mpr⟩
        rcases notes.origin key.kind (key.id, y) (Table.mem_of_get? noted) with
          isOld | ⟨isNew, holdsToo⟩
        · exact notNoted y (Table.get?_of_mem (sound.filed key.kind).ordered isOld)
        · rcases List.mem_cons.mp isNew with isReporter | gathered
          · have isX : x = y := current.distinct notLocation holds holdsToo
            have isE : y = e := isReporter
            subst isX isE
            exact unwatched watched
          · obtain ⟨id, isLocation⟩ := holds_of_mem_locationsAround sound.tidy gathered
            exact notLocation (congrArg ObjectKey.kind (Heap.Holds.key_unique holdsToo isLocation))

theorem Current.hearAll {heap : Heap} {graph : Graph LiveValue} {before after : Window}
    {addresses : List Address} (current : Current owing ⟨heap, before, graph⟩)
    (sound : Sound ⟨heap, before, graph⟩) (hears : heap.HearsAll addresses before after) :
    Current (fun x => owing x ∧ x ∉ addresses) ⟨heap, after, graph⟩ := by
  induction hears generalizing owing with
  | nil => exact current.mono fun x _ owes => ⟨owes, List.not_mem_nil⟩
  | cons hears _ inductionHypothesis =>
      refine (inductionHypothesis (current.hear sound hears) (sound.hear hears)).mono ?_
      rintro x - ⟨⟨owes, notFirst⟩, notLater⟩
      refine ⟨owes, fun member => ?_⟩
      rcases List.mem_cons.mp member with isFirst | isLater
      · exact notFirst isFirst
      · exact notLater isLater

/-! ## The end of watching -/

theorem removed_unwatch : (scene.unwatch e key).Removed other ↔ other = key ∨ scene.Removed other :=
  @Window.mem_removed_recordRemoved scene.window key other.kind other.id

theorem noted_unwatch (sound : scene.Sound) :
    (scene.unwatch e key).Noted other y ↔ other ≠ key ∧ scene.Noted other y :=
  @Window.get?_recordRemoved scene.window y key other.kind other.id (sound.filed other.kind).ordered

/-- An object that is watched no more is noted as removed. -/
theorem Current.unwatch (current : scene.Current owing) (sound : scene.Sound)
    (notLocation : key.kind ≠ .location) (holds : scene.heap.Holds key e) :
    (scene.unwatch e key).Current owing where
  keyed := current.keyed
  distinct := fun notLocation holds holdsToo => current.distinct notLocation
    (holds_listening_iff.mp holds) (holds_listening_iff.mp holdsToo)
  held := by
    intro other record notLocation isStored
    obtain ⟨x, holds⟩ := current.held notLocation isStored
    exact ⟨x, holds_listening_iff.mpr holds⟩
  watched := by
    intro other x otherNotLocation otherHolds watched
    replace otherHolds := holds_listening_iff.mp otherHolds
    obtain ⟨watchedBefore, differs⟩ := Heap.watched_listening_none.mp watched
    obtain ⟨notRemoved, state⟩ := current.watched otherNotLocation otherHolds watchedBefore
    have isOther : other ≠ key := by
      rintro rfl
      exact differs (current.distinct notLocation otherHolds holds)
    refine ⟨fun removed => (removed_unwatch.mp removed).elim isOther notRemoved, ?_⟩
    rcases state with owes | noted | isStored
    · exact Or.inl owes
    · exact Or.inr (Or.inl ((noted_unwatch sound).mpr ⟨isOther, noted⟩))
    · exact Or.inr (Or.inr ((Heap.memento?_listening e none).trans isStored))
  unwatched := by
    intro other x otherNotLocation otherHolds unwatched
    replace otherHolds := holds_listening_iff.mp otherHolds
    by_cases isE : x = e
    · subst isE
      obtain rfl := otherHolds.key_unique holds
      exact ⟨fun y noted => ((noted_unwatch sound).mp noted).1 rfl,
        Or.inl (removed_unwatch.mpr (Or.inl rfl))⟩
    · obtain ⟨notNoted, state⟩ := current.unwatched otherNotLocation otherHolds fun watched =>
        unwatched (Heap.watched_listening_none.mpr ⟨watched, isE⟩)
      exact ⟨fun y noted => notNoted y ((noted_unwatch sound).mp noted).2,
        state.imp_left fun removed => removed_unwatch.mpr (Or.inr removed)⟩

/-! ## Writes -/

theorem not_noted_of_empty (nothing : scene.window = .empty) : ¬ scene.Noted key x := by
  rw [Noted, nothing]
  cases key.kind <;> nofun

theorem not_removed_of_empty (nothing : scene.window = .empty) : ¬ scene.Removed key := by
  rw [Removed, nothing]
  cases key.kind <;> nofun

/-- What is noted as removed is not stored. -/
theorem stored?_write_of_removed (keyed : scene.graph.Keyed) (removed : scene.Removed key) :
    scene.write.stored? key = none := by
  have gone : key.id ∈ (scene.window.toDelta scene.heap).1.removed key.kind := by
    rw [Window.removed_toDelta]
    exact removed
  rw [stored?, Scene.write, Graph.records_apply, Table.get?_eraseAll ((keyed.ordered key.kind).insertAll _),
    if_pos gone]

section Write

variable (sound : scene.Sound)

include sound

/-- A written record is that of an object that is noted under its kind and id. -/
theorem Sound.noted_of_written {record : ObjectMemento LiveValue}
    (isWritten : record ∈ (scene.window.toDelta scene.heap).1.records key.kind)
    (isId : record.id = key.id) :
    ∃ x, scene.Noted key x ∧ scene.heap.memento? x = some (.ok record) := by
  obtain ⟨isKind, kind, entry, isNoted, gives⟩ := Window.mem_records_toDelta.mp isWritten
  have sameKey := ((sound.filed kind).holds isNoted).key_unique (Heap.holds_of_memento? gives)
  have sameKind : kind = key.kind := (congrArg ObjectKey.kind sameKey).trans isKind
  have sameId : entry.1 = key.id := (congrArg ObjectKey.id sameKey).trans isId
  subst sameKind
  refine ⟨entry.2, ?_, gives⟩
  rw [Noted, ← sameId]
  exact Table.get?_of_mem (sound.filed key.kind).ordered isNoted

variable (keyed : scene.graph.Keyed)

include keyed

/-- What is noted is stored. -/
theorem Sound.stored?_write_of_noted {record : ObjectMemento LiveValue}
    (notRemoved : ¬ scene.Removed key) (noted : scene.Noted key x)
    (gives : scene.heap.memento? x = some (.ok record)) :
    scene.write.stored? key = some record := by
  have stays : key.id ∉ (scene.window.toDelta scene.heap).1.removed key.kind := by
    rw [Window.removed_toDelta]
    exact notRemoved
  have sameKey := (Heap.holds_of_memento? gives).key_unique (sound.holds_of_noted noted)
  have isKind : record.kind = key.kind := congrArg ObjectKey.kind sameKey
  have isId : record.id = key.id := congrArg ObjectKey.id sameKey
  rw [stored?, Scene.write, Graph.records_apply, Table.get?_eraseAll ((keyed.ordered key.kind).insertAll _),
    if_neg stays]
  apply Table.get?_insertAll_of_all
  · refine List.mem_map.mpr ⟨record, Window.mem_records_toDelta.mpr ⟨isKind, key.kind,
      (key.id, x), Table.mem_of_get? noted, gives⟩, ?_⟩
    rw [isId]
  · intro other member
    obtain ⟨written, isWritten, same⟩ := List.mem_map.mp member
    have sameId : written.id = key.id := congrArg Prod.fst same
    have isOther : written = other := congrArg Prod.snd same
    obtain ⟨y, notedToo, givesToo⟩ := sound.noted_of_written isWritten sameId
    obtain rfl : x = y := Option.some.inj (noted.symm.trans notedToo)
    rw [gives] at givesToo
    rw [← isOther]
    exact (Except.ok.inj (Option.some.inj givesToo)).symm

/-- What is neither noted nor removed stays as it is. -/
theorem Sound.stored?_write_of_absent (notRemoved : ¬ scene.Removed key)
    (notNoted : ∀ x, ¬ scene.Noted key x) : scene.write.stored? key = scene.stored? key := by
  apply Graph.get?_records_apply_of_not_touches keyed
  rintro (⟨record, isWritten, isId⟩ | gone)
  · obtain ⟨x, noted, -⟩ := sound.noted_of_written isWritten isId
    exact notNoted x noted
  · rw [Window.removed_toDelta] at gone
    exact notRemoved gone

end Write

/-- A write stores what is noted. -/
theorem Current.write (current : scene.Current fun _ => False) (sound : scene.Sound) :
    scene.write.Current fun _ => False where
  keyed := current.keyed.apply _
  distinct := current.distinct
  held := by
    intro key record notLocation isStored
    by_cases removed : scene.Removed key
    · rw [stored?_write_of_removed current.keyed removed] at isStored
      cases isStored
    · by_cases isNoted : ∃ x, scene.Noted key x
      · obtain ⟨x, noted⟩ := isNoted
        exact ⟨x, sound.holds_of_noted noted⟩
      · rw [sound.stored?_write_of_absent current.keyed removed fun x noted => isNoted ⟨x, noted⟩]
          at isStored
        exact current.held notLocation isStored
  watched := by
    intro key x notLocation holds watched
    obtain ⟨notRemoved, state⟩ := current.watched notLocation holds watched
    refine ⟨not_removed_of_empty rfl, Or.inr (Or.inr ?_)⟩
    obtain ⟨object, isObject, -⟩ := id holds
    have gives := Heap.memento?_of_object sound.ordinary isObject
    by_cases isNoted : ∃ y, scene.Noted key y
    · obtain ⟨y, noted⟩ := isNoted
      obtain rfl := current.distinct notLocation (sound.holds_of_noted noted) holds
      rw [sound.stored?_write_of_noted current.keyed notRemoved noted gives]
      exact gives
    · rw [sound.stored?_write_of_absent current.keyed notRemoved fun y noted => isNoted ⟨y, noted⟩]
      exact (state.resolve_left id).resolve_left fun noted => isNoted ⟨x, noted⟩
  unwatched := by
    intro key x notLocation holds unwatched
    obtain ⟨notNoted, state⟩ := current.unwatched notLocation holds unwatched
    refine ⟨fun y => not_noted_of_empty rfl, Or.inr ?_⟩
    by_cases removed : scene.Removed key
    · exact stored?_write_of_removed current.keyed removed
    · rw [sound.stored?_write_of_absent current.keyed removed notNoted]
      exact state.resolve_left removed

section Written

variable (current : scene.Current fun _ => False) (written : scene.window = .empty)

include current written

/-- After a write, a watched object is stored as it is now. -/
theorem Current.stored_of_watched (notLocation : key.kind ≠ .location)
    (holds : scene.heap.Holds key x) (watched : scene.heap.Watched x) :
    scene.heap.memento? x = (scene.stored? key).map .ok :=
  ((current.watched notLocation holds watched).2.resolve_left id).resolve_left
    (not_noted_of_empty written)

/-- After a write, nothing is stored but watched objects. -/
theorem Current.watched_of_stored {record : ObjectMemento LiveValue}
    (notLocation : key.kind ≠ .location) (isStored : scene.stored? key = some record) :
    ∃ x, scene.heap.Holds key x ∧ scene.heap.Watched x := by
  obtain ⟨x, holds⟩ := current.held notLocation isStored
  refine ⟨x, holds, ?_⟩
  by_cases watched : scene.heap.Watched x
  · exact watched
  · have nothing := (current.unwatched notLocation holds watched).2.resolve_left
      (not_removed_of_empty written)
    rw [isStored] at nothing
    cases nothing

end Written

end Scene

end GraphCheckpoint
