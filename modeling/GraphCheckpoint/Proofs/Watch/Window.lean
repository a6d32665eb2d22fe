import GraphCheckpoint.Proofs.Live.Heap
import GraphCheckpoint.Proofs.Replay
import GraphCheckpoint.Watch.Listener

/-!
Contract: what reports leave in a window, and what the delta of a window brings.

Owns:
- `Window.Filed`, the windows whose objects stand under their own kinds and ids;
- `Window.Notes`, what the recording of some objects adds to a window;
- the records and the removed ids of the delta of a window.

Does not own: which objects a report gathers, or when a window is written.
-/

namespace GraphCheckpoint

variable {heap before after : Heap}

namespace WindowPart

variable {part : WindowPart} {kind : ObjectKind} {id other : String} {address : Address}

/-- Every object stands under its own id, and is of one kind. -/
structure Filed (heap : Heap) (kind : ObjectKind) (part : WindowPart) : Prop where
  ordered : part.changed.Ordered
  holds : ∀ {id address}, (id, address) ∈ part.changed → heap.Holds ⟨kind, id⟩ address

theorem filed_empty : WindowPart.empty.Filed heap kind := ⟨List.Pairwise.nil, nofun⟩

theorem Filed.grow (filed : part.Filed before kind) (growth : before.Extends after) :
    part.Filed after kind :=
  ⟨filed.ordered, fun member => growth.holds _ _ (filed.holds member)⟩

theorem changed_recordChanged_cases (id : String) (address : Address) (part : WindowPart) :
    (part.recordChanged id address).changed = part.changed ∨
      (part.recordChanged id address).changed = part.changed.insert id address := by
  unfold recordChanged Table.insertNew
  split
  · exact Or.inl rfl
  · split
    · exact Or.inl rfl
    · exact Or.inr rfl

theorem ordered_recordChanged (ordered : part.changed.Ordered) (id : String) (address : Address) :
    (part.recordChanged id address).changed.Ordered := by
  rcases changed_recordChanged_cases id address part with same | more
  · exact same ▸ ordered
  · exact more ▸ ordered.insert id address

theorem mem_recordChanged {entry : String × Address}
    (member : entry ∈ (part.recordChanged id address).changed) :
    entry ∈ part.changed ∨ entry = (id, address) := by
  rcases changed_recordChanged_cases id address part with same | more
  · exact Or.inl (same ▸ member)
  · rw [more] at member
    exact (Table.mem_insert member).symm

/-- A recording is heard where its id has not been removed. -/
theorem get?_recordChanged_eq (part : WindowPart) (id other : String) (address : Address) :
    (part.recordChanged id address).changed.get? other =
      if other = id ∧ id ∉ part.removed then (part.changed.get? other).or (some address)
      else part.changed.get? other := by
  by_cases gone : id ∈ part.removed
  · rw [if_neg fun heard => heard.2 gone, recordChanged, if_pos (by simpa using gone)]
  · rw [recordChanged, if_neg (by simpa using gone)]
    simp only [Table.get?_insertNew, gone, not_false_eq_true, and_true]

/-- The first object under an id stays. -/
theorem get?_recordChanged {place : Address} (known : part.changed.get? other = some place) :
    (part.recordChanged id address).changed.get? other = some place := by
  rw [get?_recordChanged_eq, known]
  split <;> rfl

theorem contains_recordChanged_self (stays : id ∉ part.removed) :
    (part.recordChanged id address).changed.contains id = true := by
  rw [Table.contains, get?_recordChanged_eq, if_pos ⟨rfl, stays⟩, Option.isSome_or]
  exact Bool.or_true _

theorem Filed.recordChanged (filed : part.Filed heap kind) (holds : heap.Holds ⟨kind, id⟩ address) :
    (part.recordChanged id address).Filed heap kind where
  ordered := ordered_recordChanged filed.ordered id address
  holds := by
    intro other place member
    rcases mem_recordChanged member with old | new
    · exact filed.holds old
    · cases new
      exact holds

theorem Filed.recordRemoved (filed : part.Filed heap kind) (id : String) :
    (part.recordRemoved id).Filed heap kind where
  ordered := filed.ordered.erase id
  holds := fun member => filed.holds (Table.mem_of_mem_erase member)

/-- At most one object to an id, and none to a removed one. -/
structure Apart (part : WindowPart) : Prop where
  ordered : part.changed.Ordered
  apart : ∀ entry ∈ part.changed, entry.1 ∉ part.removed

theorem apart_empty : WindowPart.empty.Apart := ⟨List.Pairwise.nil, nofun⟩

theorem Apart.recordChanged (apart : part.Apart) (id : String) (address : Address) :
    (part.recordChanged id address).Apart := by
  refine ⟨ordered_recordChanged apart.ordered id address, fun entry member => ?_⟩
  rw [removed_recordChanged]
  unfold WindowPart.recordChanged at member
  split at member
  · exact apart.apart entry member
  · rename_i stays
    rw [Table.insertNew] at member
    split at member
    · exact apart.apart entry member
    · rcases Table.mem_insert member with isNew | old
      · rw [isNew]
        simpa using stays
      · exact apart.apart entry old

/-- A removed id has no object any more. -/
theorem ne_of_mem_recordRemoved (ordered : part.changed.Ordered) {entry : String × Address}
    (member : entry ∈ (part.recordRemoved id).changed) : entry.1 ≠ id := by
  intro same
  have found := Table.get?_of_mem (ordered.erase id) member
  rw [Table.get?_erase ordered, if_pos same] at found
  cases found

theorem Apart.recordRemoved (apart : part.Apart) (id : String) : (part.recordRemoved id).Apart where
  ordered := apart.ordered.erase id
  apart := by
    intro entry member isRemoved
    rcases (mem_removed_recordRemoved part).mp isRemoved with isId | old
    · exact ne_of_mem_recordRemoved apart.ordered member isId
    · exact apart.apart entry (Table.mem_of_mem_erase member) old

end WindowPart

namespace Window

variable {window : Window} {address : Address} {gathered : List Address}

theorem eq_empty (nothing : window.isEmpty = true) :
    window = .empty := by
  obtain ⟨⟨_, _⟩, ⟨_, _⟩, ⟨_, _⟩⟩ := window
  simp only [Window.isEmpty, WindowPart.isEmpty, Bool.and_eq_true, List.isEmpty_iff] at nothing
  obtain ⟨⟨⟨rfl, rfl⟩, rfl, rfl⟩, rfl, rfl⟩ := nothing
  rfl

/-- There is something in a window that is not empty. -/
theorem exists_noted (noted : window.isEmpty = false) : ∃ kind id,
    (∃ address, (window.part kind).changed.get? id = some address) ∨
      id ∈ (window.part kind).removed := by
  have someKind : ∃ kind, (window.part kind).isEmpty = false := by
    simp only [isEmpty, Bool.and_eq_false_iff] at noted
    rcases noted with (entities | locations) | policies
    · exact ⟨.entity, entities⟩
    · exact ⟨.location, locations⟩
    · exact ⟨.policy, policies⟩
  obtain ⟨kind, isPart⟩ := someKind
  rw [WindowPart.isEmpty, Bool.and_eq_false_iff] at isPart
  rcases isPart with changed | removed
  · obtain ⟨entry, rest, isChanged⟩ := List.exists_cons_of_ne_nil (List.isEmpty_eq_false_iff.mp changed)
    refine ⟨kind, entry.1, Or.inl ⟨entry.2, ?_⟩⟩
    rw [isChanged, Table.get?, if_pos rfl]
  · obtain ⟨id, rest, isRemoved⟩ := List.exists_cons_of_ne_nil (List.isEmpty_eq_false_iff.mp removed)
    refine ⟨kind, id, Or.inr ?_⟩
    rw [isRemoved]
    exact List.mem_cons_self

/-! ## Recording -/

/-- Every object stands under its own kind and id. -/
def Filed (heap : Heap) (window : Window) : Prop := ∀ kind, (window.part kind).Filed heap kind

theorem filed_empty : Window.empty.Filed heap := by
  intro kind
  cases kind <;> exact WindowPart.filed_empty

theorem Filed.grow (filed : window.Filed before) (growth : before.Extends after) :
    window.Filed after :=
  fun kind => (filed kind).grow growth

theorem part_mapPart (kind other : ObjectKind) (change : WindowPart → WindowPart)
    (window : Window) :
    (window.mapPart kind change).part other =
      if other = kind then change (window.part other) else window.part other := by
  cases kind <;> cases other <;> rfl

theorem part_recordChanged (key : ObjectKey) (address : Address) (kind : ObjectKind)
    (window : Window) :
    (window.recordChanged key address).part kind =
      if kind = key.kind then (window.part kind).recordChanged key.id address
      else window.part kind :=
  part_mapPart key.kind kind _ window

theorem removed_recordChanged (key : ObjectKey) (address : Address) (kind : ObjectKind)
    (window : Window) :
    ((window.recordChanged key address).part kind).removed = (window.part kind).removed := by
  rw [part_recordChanged]
  split
  · exact WindowPart.removed_recordChanged key.id address (window.part kind)
  · rfl

/-- A recording is heard where its key has not been removed. -/
theorem get?_recordChanged (key : ObjectKey) (address : Address) (kind : ObjectKind) (id : String)
    (window : Window) :
    ((window.recordChanged key address).part kind).changed.get? id =
      if ⟨kind, id⟩ = key ∧ id ∉ (window.part kind).removed then
        ((window.part kind).changed.get? id).or (some address)
      else (window.part kind).changed.get? id := by
  obtain ⟨changedKind, changedId⟩ := key
  simp only [part_recordChanged, ObjectKey.mk.injEq]
  by_cases isKind : kind = changedKind
  · rw [if_pos isKind, WindowPart.get?_recordChanged_eq]
    by_cases isId : id = changedId
    · subst isId
      simp only [isKind, true_and]
    · rw [if_neg fun heard => isId heard.1, if_neg fun heard => isId heard.1.2]
  · rw [if_neg isKind, if_neg fun heard => isKind heard.1.1]

theorem part_recordRemoved (key : ObjectKey) (kind : ObjectKind) (window : Window) :
    (window.recordRemoved key).part kind =
      if kind = key.kind then (window.part kind).recordRemoved key.id else window.part kind :=
  part_mapPart key.kind kind _ window

section Removals

variable {key : ObjectKey} {kind : ObjectKind} {id : String} {entry : String × Address}

theorem mem_removed_recordRemoved :
    id ∈ ((window.recordRemoved key).part kind).removed ↔
      ⟨kind, id⟩ = key ∨ id ∈ (window.part kind).removed := by
  obtain ⟨gone, goneId⟩ := key
  rw [part_recordRemoved, ObjectKey.mk.injEq]
  split
  · rename_i isKind
    rw [WindowPart.mem_removed_recordRemoved, and_iff_right isKind]
  · rename_i differs
    rw [or_iff_right fun same => differs same.1]

theorem mem_of_mem_recordRemoved
    (member : entry ∈ ((window.recordRemoved key).part kind).changed) :
    entry ∈ (window.part kind).changed := by
  rw [part_recordRemoved] at member
  split at member
  · exact Table.mem_of_mem_erase member
  · exact member

theorem get?_recordRemoved (ordered : (window.part kind).changed.Ordered) :
    ((window.recordRemoved key).part kind).changed.get? id = some address ↔
      ⟨kind, id⟩ ≠ key ∧ (window.part kind).changed.get? id = some address := by
  obtain ⟨gone, goneId⟩ := key
  rw [part_recordRemoved, ne_eq, ObjectKey.mk.injEq]
  split
  · rename_i isKind
    show ((window.part kind).changed.erase goneId).get? id = some address ↔ _
    rw [Table.get?_erase ordered, and_iff_right isKind]
    split
    · rename_i isId
      exact ⟨nofun, fun noted => absurd isId noted.1⟩
    · rename_i differs
      exact (and_iff_right differs).symm
  · rename_i differs
    rw [and_iff_right fun same => differs same.1]

theorem locations_recordRemoved (notLocation : key.kind ≠ .location) :
    (window.recordRemoved key).locations = window.locations :=
  (part_recordRemoved key .location window).trans (if_neg notLocation.symm)

end Removals

/-- What the recording of some objects adds to a window. -/
structure Notes (heap : Heap) (addresses : List Address) (before after : Window) : Prop where
  removed : ∀ kind, (after.part kind).removed = (before.part kind).removed
  filed : before.Filed heap → after.Filed heap
  origin : ∀ kind entry, entry ∈ (after.part kind).changed →
    entry ∈ (before.part kind).changed ∨
      (entry.2 ∈ addresses ∧ heap.Holds ⟨kind, entry.1⟩ entry.2)
  apart : ∀ kind, (before.part kind).Apart → (after.part kind).Apart
  still : ∀ kind id place, (before.part kind).changed.get? id = some place →
    (after.part kind).changed.get? id = some place
  noted : ∀ kind id address, address ∈ addresses → heap.Holds ⟨kind, id⟩ address →
    id ∉ (before.part kind).removed → (after.part kind).changed.contains id = true

/-- Noted ids stay noted. -/
theorem Notes.contains {addresses : List Address} {after : Window} {kind : ObjectKind}
    {id : String} (notes : Notes heap addresses window after)
    (known : (window.part kind).changed.contains id = true) :
    (after.part kind).changed.contains id = true := by
  obtain ⟨place, found⟩ := Table.contains_iff.mp known
  exact Table.contains_iff.mpr ⟨place, notes.still kind id place found⟩

theorem notes_nil (heap : Heap) (window : Window) : Notes heap [] window window where
  removed := fun _ => rfl
  filed := id
  origin := fun _ _ => Or.inl
  apart := fun _ => id
  still := fun _ _ _ => id
  noted := nofun

theorem notes_recordObject (heap : Heap) (address : Address) (window : Window) :
    Notes heap [address] window (window.recordObject heap address) := by
  cases isObject : heap.object? address with
  | none =>
      have unchanged : window.recordObject heap address = window := by
        rw [recordObject, isObject]
      rw [unchanged]
      exact { notes_nil heap window with
        origin := fun _ _ => Or.inl
        noted := by
          rintro kind id place member ⟨object, isPlace, -⟩ -
          rw [List.mem_singleton.mp member, isObject] at isPlace
          cases isPlace }
  | some object =>
      have parts : ∀ kind, (window.recordObject heap address).part kind =
          if kind = object.key.kind then (window.part kind).recordChanged object.key.id address
          else window.part kind := by
        intro kind
        rw [recordObject, isObject]
        exact part_recordChanged object.key address kind window
      have holds : heap.Holds object.key address := ⟨object, isObject, rfl⟩
      refine ⟨fun kind => ?_, fun filed kind => ?_, fun kind entry member => ?_,
        fun kind apart => ?_, fun kind id place known => ?_,
        fun kind id place member placeHolds stays => ?_⟩
      · rw [parts kind]
        split
        · exact WindowPart.removed_recordChanged _ _ _
        · rfl
      · rw [parts kind]
        split
        · rename_i isKind
          subst isKind
          exact (filed _).recordChanged holds
        · exact filed kind
      · rw [parts kind] at member
        split at member
        · rename_i isKind
          subst isKind
          refine (WindowPart.mem_recordChanged member).imp id fun isEntry => ?_
          rw [isEntry]
          exact ⟨List.mem_singleton_self _, holds⟩
        · exact Or.inl member
      · rw [parts kind]
        split
        · exact apart.recordChanged _ _
        · exact apart
      · rw [parts kind]
        split
        · exact WindowPart.get?_recordChanged known
        · exact known
      · rw [List.mem_singleton.mp member] at placeHolds
        have isKey := placeHolds.key_unique holds
        rw [parts kind, if_pos (congrArg ObjectKey.kind isKey), ← isKey]
        exact WindowPart.contains_recordChanged_self stays

/-- Recording a list of objects notes all of them. -/
theorem notes_foldl (heap : Heap) (addresses : List Address) (window : Window) :
    Notes heap addresses window
      (addresses.foldl (fun current address => current.recordObject heap address) window) := by
  induction addresses generalizing window with
  | nil => exact notes_nil heap window
  | cons first rest inductionHypothesis =>
      have step := notes_recordObject heap first window
      have later := inductionHypothesis (window.recordObject heap first)
      refine ⟨fun kind => (later.removed kind).trans (step.removed kind),
        fun filed => later.filed (step.filed filed), fun kind entry member => ?_,
        fun kind apart => later.apart kind (step.apart kind apart),
        fun kind id place known => later.still kind id place (step.still kind id place known),
        fun kind id place member holds stays => ?_⟩
      · rcases later.origin kind entry member with before | ⟨isRest, holds⟩
        · rcases step.origin kind entry before with old | ⟨isFirst, holds⟩
          · exact Or.inl old
          · exact Or.inr ⟨List.mem_cons.mpr (Or.inl (List.mem_singleton.mp isFirst)), holds⟩
        · exact Or.inr ⟨List.mem_cons_of_mem _ isRest, holds⟩
      · rcases List.mem_cons.mp member with isFirst | isRest
        · exact later.contains
            (step.noted kind id place (List.mem_singleton.mpr isFirst) holds stays)
        · exact later.noted kind id place isRest holds (step.removed kind ▸ stays)

/-- A report notes the object and the gathered locations. -/
theorem notes_recordWith (heap : Heap) (address : Address) (gathered : List Address)
    (window : Window) :
    Notes heap (address :: gathered) window (window.recordWith heap address gathered) :=
  notes_foldl heap (address :: gathered) window

theorem filed_recordRemoved (filed : window.Filed heap) (key : ObjectKey) :
    (window.recordRemoved key).Filed heap := by
  intro kind
  rw [part_recordRemoved]
  split
  · exact (filed kind).recordRemoved key.id
  · exact filed kind

/-! ## The delta of a window -/

private theorem records_foldl_add (mementos : List (ObjectMemento LiveValue))
    (delta : Delta LiveValue) (kind : ObjectKind) :
    (mementos.foldl (fun delta memento => delta.add memento) delta).records kind =
      delta.records kind ++ mementos.filter fun memento => memento.kind = kind := by
  induction mementos generalizing delta with
  | nil => simp
  | cons first rest inductionHypothesis =>
      rw [List.foldl_cons, inductionHypothesis]
      cases first <;> cases kind <;> simp [Delta.add, Delta.records, ObjectMemento.kind]

private theorem removed_foldl_add (mementos : List (ObjectMemento LiveValue))
    (delta : Delta LiveValue) (kind : ObjectKind) :
    (mementos.foldl (fun delta memento => delta.add memento) delta).removed kind =
      delta.removed kind := by
  induction mementos generalizing delta with
  | nil => rfl
  | cons first rest inductionHypothesis =>
      rw [List.foldl_cons, inductionHypothesis]
      cases first <;> rfl

/-- The records of all noted objects that give them. -/
def givenRecords (heap : Heap) (window : Window) : List (ObjectMemento LiveValue) :=
  (recordsOf heap window.locations).1 ++ (recordsOf heap window.entities).1 ++
    (recordsOf heap window.policies).1

theorem records_toDelta (heap : Heap) (window : Window) (kind : ObjectKind) :
    (window.toDelta heap).1.records kind =
      (window.givenRecords heap).filter fun memento => memento.kind = kind := by
  refine (records_foldl_add _ _ kind).trans ?_
  cases kind <;> rfl

theorem removed_toDelta (heap : Heap) (window : Window) (kind : ObjectKind) :
    (window.toDelta heap).1.removed kind = (window.part kind).removed := by
  refine (removed_foldl_add _ _ kind).trans ?_
  cases kind <;> rfl

theorem mem_recordsOf {part : WindowPart} {memento : ObjectMemento LiveValue} :
    memento ∈ (recordsOf heap part).1 ↔
      ∃ address ∈ part.changed.values, heap.memento? address = some (.ok memento) := by
  have isOk : ∀ answer : Outcome (ObjectMemento LiveValue),
      answer.toOption = some memento ↔ answer = .ok memento := by
    intro answer
    cases answer <;> simp [Except.toOption]
  simp [recordsOf, isOk]

theorem mem_givenRecords {memento : ObjectMemento LiveValue} :
    memento ∈ window.givenRecords heap ↔ ∃ kind, ∃ entry ∈ (window.part kind).changed,
      heap.memento? entry.2 = some (.ok memento) := by
  simp only [givenRecords, List.mem_append, mem_recordsOf, Table.values, List.mem_map]
  constructor
  · rintro ((⟨_, ⟨entry, member, rfl⟩, gives⟩ | ⟨_, ⟨entry, member, rfl⟩, gives⟩) |
      ⟨_, ⟨entry, member, rfl⟩, gives⟩)
    · exact ⟨.location, entry, member, gives⟩
    · exact ⟨.entity, entry, member, gives⟩
    · exact ⟨.policy, entry, member, gives⟩
  · rintro ⟨kind, entry, member, gives⟩
    cases kind with
    | entity => exact Or.inl (Or.inr ⟨_, ⟨entry, member, rfl⟩, gives⟩)
    | location => exact Or.inl (Or.inl ⟨_, ⟨entry, member, rfl⟩, gives⟩)
    | policy => exact Or.inr ⟨_, ⟨entry, member, rfl⟩, gives⟩

theorem mem_records_toDelta {kind : ObjectKind} {memento : ObjectMemento LiveValue} :
    memento ∈ (window.toDelta heap).1.records kind ↔ memento.kind = kind ∧
      ∃ kind, ∃ entry ∈ (window.part kind).changed,
        heap.memento? entry.2 = some (.ok memento) := by
  rw [records_toDelta, List.mem_filter, mem_givenRecords, decide_eq_true_iff, and_comm]

theorem mem_entities_toDelta {memento : EntityMemento LiveValue} :
    memento ∈ (window.toDelta heap).1.entities ↔ ∃ kind, ∃ entry ∈ (window.part kind).changed,
      heap.memento? entry.2 = some (.ok (.entity memento)) := by
  have isRecord : memento ∈ (window.toDelta heap).1.entities ↔
      .entity memento ∈ (window.toDelta heap).1.records .entity := by
    simp [Delta.records]
  exact isRecord.trans (mem_records_toDelta.trans (and_iff_right rfl))

theorem mem_locations_toDelta {memento : LocationMemento LiveValue} :
    memento ∈ (window.toDelta heap).1.locations ↔ ∃ kind, ∃ entry ∈ (window.part kind).changed,
      heap.memento? entry.2 = some (.ok (.location memento)) := by
  have isRecord : memento ∈ (window.toDelta heap).1.locations ↔
      .location memento ∈ (window.toDelta heap).1.records .location := by
    simp [Delta.records]
  exact isRecord.trans (mem_records_toDelta.trans (and_iff_right rfl))

end Window

end GraphCheckpoint
