import GraphCheckpoint.Proofs.Watch.Window

/-!
Contract: windows that are made by reports, whatever lives when they come.

Owns:
- `Window.Named`, the windows whose objects stand under the names of their addresses;
- `Window.Carries`, that whatever one window notes is noted in another, or has been removed since;
- `Delta.Separate`, the deltas with one record to an id and none to a removed id;
- that reports keep the first two, and that the deltas of such windows are separate.

Does not own: when objects report, or when a window is written.

Objects come and go between two reports, and their state changes. All that is asked of what lives is
that an address keeps its kind and its id.
-/

namespace GraphCheckpoint

variable {heap : Heap} {naming : Address → ObjectKey} {kind : ObjectKind} {id : String}
variable {address : Address}

/-- Every object has the kind and the id that its address is given. -/
def Heap.NamedBy (naming : Address → ObjectKey) (heap : Heap) : Prop :=
  ∀ address object, heap.object? address = some object → object.key = naming address

/-- A record has the kind and the id of its object. -/
theorem Heap.holds_of_memento? {memento : ObjectMemento LiveValue}
    (gives : heap.memento? address = some (.ok memento)) :
    heap.Holds ⟨memento.kind, memento.id⟩ address := by
  obtain ⟨object, isObject, isMemento⟩ := Option.map_eq_some_iff.mp gives
  have states : LiveObject.stateMemento object.common object.state = memento := by
    unfold LiveObject.memento at isMemento
    split at isMemento
    · exact Except.ok.inj isMemento
    · exact Except.ok.inj isMemento
    · cases isMemento
    · cases isMemento
  refine ⟨object, isObject, ?_⟩
  rw [← states, LiveObject.key, LiveObject.kind]
  cases object.state <;> rfl

theorem Heap.NamedBy.of_memento? (named : heap.NamedBy naming)
    {memento : ObjectMemento LiveValue} (gives : heap.memento? address = some (.ok memento)) :
    (⟨memento.kind, memento.id⟩ : ObjectKey) = naming address := by
  obtain ⟨object, isObject, isKey⟩ := Heap.holds_of_memento? gives
  exact isKey.symm.trans (named address object isObject)

/-- One record to an id, and none to a removed id. -/
def Delta.Separate {V : Type} (delta : Delta V) : Prop :=
  ∀ kind, ((delta.records kind).map ObjectMemento.id).Nodup ∧
    ∀ record ∈ delta.records kind, record.id ∉ delta.removed kind

namespace Window

variable {window before after between : Window} {gathered : List Address}

/-- No removed id has an object. -/
def Apart (window : Window) : Prop := ∀ kind, (window.part kind).Apart

/-- Every object stands under the kind and the id that its address is given. -/
def Named (naming : Address → ObjectKey) (window : Window) : Prop :=
  ∀ kind, ∀ entry ∈ (window.part kind).changed, naming entry.2 = ⟨kind, entry.1⟩

/-- Whatever the one window notes is noted in the other, or has been removed since. -/
structure Carries (before after : Window) : Prop where
  removed : ∀ kind id, id ∈ (before.part kind).removed → id ∈ (after.part kind).removed
  changed : ∀ kind id address, (before.part kind).changed.get? id = some address →
    (after.part kind).changed.get? id = some address ∨ id ∈ (after.part kind).removed

theorem apart_empty : Window.empty.Apart := by
  intro kind
  cases kind <;> exact WindowPart.apart_empty

theorem named_empty : Window.empty.Named naming := by
  intro kind
  cases kind <;> exact nofun

theorem Carries.refl (window : Window) : window.Carries window :=
  ⟨fun _ _ => id, fun _ _ _ => Or.inl⟩

theorem Carries.trans (first : before.Carries between) (second : between.Carries after) :
    before.Carries after where
  removed := fun kind id isRemoved => second.removed kind id (first.removed kind id isRemoved)
  changed := by
    intro kind id address noted
    rcases first.changed kind id address noted with still | isRemoved
    · exact second.changed kind id address still
    · exact Or.inr (second.removed kind id isRemoved)

/-- A window that carries something is not empty. -/
theorem Carries.isEmpty (carries : before.Carries after) (noted : before.isEmpty = false) :
    after.isEmpty = false := by
  cases isEmpty : after.isEmpty with
  | false => rfl
  | true =>
      have nothing : ∀ kind, after.part kind = .empty := by
        rw [eq_empty isEmpty]
        intro kind
        cases kind <;> rfl
      obtain ⟨kind, id, isNoted⟩ := exists_noted noted
      have inAfter : (∃ address, (after.part kind).changed.get? id = some address) ∨
          id ∈ (after.part kind).removed := by
        rcases isNoted with ⟨address, changed⟩ | removed
        · exact (carries.changed kind id address changed).imp_left fun still => ⟨address, still⟩
        · exact Or.inr (carries.removed kind id removed)
      rw [nothing kind] at inAfter
      rcases inAfter with ⟨_, found⟩ | found <;> cases found

/-! ## Reports -/

/-- A report notes some objects, or removes a name. -/
theorem apply_cases (heap : Heap) (address : Address) (gathered : List Address) (report : Report)
    (window : Window) :
    (∃ addresses ⊆ address :: gathered,
      Notes heap addresses window (report.apply heap address gathered window)) ∨
    ∃ key, heap.Holds key address ∧
      report.apply heap address gathered window = window.recordRemoved key := by
  cases report with
  | managed =>
      exact Or.inl ⟨_, List.Subset.refl _, notes_recordWith heap address gathered window⟩
  | changed =>
      exact Or.inl ⟨_, List.Subset.refl _, notes_recordWith heap address gathered window⟩
  | unmanaged =>
      cases isObject : heap.object? address with
      | none =>
          have same : Report.unmanaged.apply heap address gathered window = window := by
            simp only [Report.apply, isObject]
          rw [same]
          exact Or.inl ⟨[], List.nil_subset _, notes_nil heap window⟩
      | some object =>
          refine Or.inr ⟨object.key, ⟨object, isObject, rfl⟩, ?_⟩
          simp only [Report.apply, isObject]

theorem Apart.recordRemoved (apart : window.Apart) (key : ObjectKey) :
    (window.recordRemoved key).Apart := by
  intro kind
  rw [part_recordRemoved]
  split
  · exact (apart kind).recordRemoved key.id
  · exact apart kind

theorem Apart.apply (apart : window.Apart) (report : Report) :
    (report.apply heap address gathered window).Apart := by
  rcases apply_cases heap address gathered report window with ⟨_, -, notes⟩ | ⟨key, -, removes⟩
  · exact fun kind => notes.apart kind (apart kind)
  · rw [removes]
    exact apart.recordRemoved key

theorem Named.apply (isNamed : window.Named naming) (named : heap.NamedBy naming)
    (report : Report) : (report.apply heap address gathered window).Named naming := by
  rcases apply_cases heap address gathered report window with ⟨_, -, notes⟩ | ⟨key, -, removes⟩
  · intro kind entry member
    rcases notes.origin kind entry member with old | ⟨-, object, isObject, isKey⟩
    · exact isNamed kind entry old
    · exact (named entry.2 object isObject).symm.trans isKey
  · intro kind entry member
    rw [removes] at member
    exact isNamed kind entry (mem_of_mem_recordRemoved member)

/-- A removal takes the place of a change, and all else stays. -/
theorem carries_recordRemoved (apart : window.Apart) (key : ObjectKey) :
    window.Carries (window.recordRemoved key) where
  removed := fun kind id isRemoved => mem_removed_recordRemoved.mpr (Or.inr isRemoved)
  changed := by
    intro kind id address noted
    by_cases isKey : ⟨kind, id⟩ = key
    · exact Or.inr (mem_removed_recordRemoved.mpr (Or.inl isKey))
    · exact Or.inl ((get?_recordRemoved (apart kind).ordered).mpr ⟨isKey, noted⟩)

theorem carries_apply (apart : window.Apart) (report : Report) :
    window.Carries (report.apply heap address gathered window) := by
  rcases apply_cases heap address gathered report window with ⟨_, -, notes⟩ | ⟨key, -, removes⟩
  · refine ⟨fun kind id isRemoved => ?_, fun kind id place noted => ?_⟩
    · rw [notes.removed kind]
      exact isRemoved
    · exact Or.inl (notes.still kind id place noted)
  · rw [removes]
    exact carries_recordRemoved apart key

/-- Nothing is noted under the key. -/
structure Lacks (key : ObjectKey) (window : Window) : Prop where
  unchanged : ∀ entry ∈ (window.part key.kind).changed, entry.1 ≠ key.id
  unremoved : key.id ∉ (window.part key.kind).removed

theorem lacks_empty (key : ObjectKey) : Window.empty.Lacks key := by
  obtain ⟨kind, id⟩ := key
  cases kind <;> exact ⟨nofun, nofun⟩

/-- A report notes the objects that it is about, and no others. -/
theorem Lacks.apply {key : ObjectKey} (lacks : window.Lacks key) (named : heap.NamedBy naming)
    (others : ∀ place ∈ address :: gathered, naming place ≠ key) (report : Report) :
    (report.apply heap address gathered window).Lacks key := by
  rcases apply_cases heap address gathered report window with
    ⟨addresses, within, notes⟩ | ⟨gone, ⟨object, isObject, isGone⟩, removes⟩
  · refine ⟨fun entry member isId => ?_, notes.removed key.kind ▸ lacks.unremoved⟩
    rcases notes.origin key.kind entry member with old | ⟨isNoted, object, isObject, isKey⟩
    · exact lacks.unchanged entry old isId
    · apply others entry.2 (within isNoted)
      rw [← named entry.2 object isObject, isKey, isId]
  · have differs : gone ≠ key := by
      intro isKey
      apply others address List.mem_cons_self
      rw [← named address object isObject, isGone, isKey]
    rw [removes]
    refine ⟨fun entry member => lacks.unchanged entry (mem_of_mem_recordRemoved member),
      fun isRemoved => ?_⟩
    rcases mem_removed_recordRemoved.mp isRemoved with isGone | old
    · exact differs isGone.symm
    · exact lacks.unremoved old

/-! ## Deltas -/

private theorem sublist_ids {entries : Table Address}
    (isNamed : ∀ entry ∈ entries, naming entry.2 = ⟨kind, entry.1⟩) (named : heap.NamedBy naming) :
    ((entries.values.filterMap heap.memento?).filterMap Except.toOption |>.map
      ObjectMemento.id).Sublist entries.keys := by
  induction entries with
  | nil => exact .slnil
  | cons entry rest inductionHypothesis =>
      have others := inductionHypothesis fun other member =>
        isNamed other (List.mem_cons_of_mem _ member)
      show (((entry.2 :: Table.values rest).filterMap heap.memento?).filterMap Except.toOption |>.map
        ObjectMemento.id).Sublist (entry.1 :: Table.keys rest)
      cases gives : heap.memento? entry.2 with
      | none =>
          rw [List.filterMap_cons_none gives]
          exact others.cons _
      | some answer =>
          rw [List.filterMap_cons_some gives]
          cases answer with
          | error failure => exact others.cons _
          | ok memento =>
              have isName := (named.of_memento? gives).trans (isNamed entry (List.mem_cons_self))
              have isId : memento.id = entry.1 := congrArg ObjectKey.id isName
              rw [← isId]
              exact others.cons_cons _

/-- A kind's records are those of the objects noted in its own part. -/
theorem records_toDelta_of_named (isNamed : window.Named naming) (named : heap.NamedBy naming)
    (kind : ObjectKind) :
    (window.toDelta heap).1.records kind = (recordsOf heap (window.part kind)).1 := by
  have ofKind : ∀ other, (recordsOf heap (window.part other)).1.filter
      (fun memento => memento.kind = kind) =
        if other = kind then (recordsOf heap (window.part other)).1 else [] := by
    intro other
    have isKind : ∀ memento ∈ (recordsOf heap (window.part other)).1, memento.kind = other := by
      intro memento member
      obtain ⟨place, isNoted, gives⟩ := mem_recordsOf.mp member
      obtain ⟨entry, isEntry, rfl⟩ := List.mem_map.mp isNoted
      exact congrArg ObjectKey.kind ((named.of_memento? gives).trans (isNamed other entry isEntry))
    split
    · rename_i isOther
      apply List.filter_eq_self.mpr
      intro memento member
      simpa [isOther] using isKind memento member
    · rename_i differs
      apply List.filter_eq_nil_iff.mpr
      intro memento member
      simpa [isKind memento member] using differs
  rw [records_toDelta, givenRecords, List.filter_append, List.filter_append]
  have entities := ofKind .entity
  have locations := ofKind .location
  have policies := ofKind .policy
  simp only [part] at entities locations policies
  rw [entities, locations, policies]
  cases kind <;> simp [part]

/-- The delta of a window touches only what is noted. -/
theorem Lacks.not_touches {key : ObjectKey} (lacks : window.Lacks key)
    (isNamed : window.Named naming) (named : heap.NamedBy naming) :
    ¬ (window.toDelta heap).1.Touches key.kind key.id := by
  rintro (⟨record, isWritten, isId⟩ | isRemoved)
  · obtain ⟨isKind, kind, entry, isNoted, gives⟩ := mem_records_toDelta.mp isWritten
    have sameName := (named.of_memento? gives).trans (isNamed kind entry isNoted)
    have sameKind : key.kind = kind := isKind.symm.trans (congrArg ObjectKey.kind sameName)
    have sameId : entry.1 = key.id := (congrArg ObjectKey.id sameName).symm.trans isId
    exact lacks.unchanged entry (sameKind ▸ isNoted) sameId
  · rw [removed_toDelta] at isRemoved
    exact lacks.unremoved isRemoved

/-- The delta of a window has one record to an id, and none to a removed id. -/
theorem separate_toDelta (apart : window.Apart) (isNamed : window.Named naming)
    (named : heap.NamedBy naming) : (window.toDelta heap).1.Separate := by
  intro kind
  rw [records_toDelta_of_named isNamed named, removed_toDelta]
  have within := sublist_ids (isNamed kind) named
  constructor
  · apply List.Nodup.sublist within
    exact (apart kind).ordered.nodup_keys
  · intro record member
    have isKey : record.id ∈ (window.part kind).changed.keys :=
      within.subset (List.mem_map_of_mem member)
    obtain ⟨entry, isEntry, isId⟩ := List.mem_map.mp isKey
    rw [← isId]
    exact (apart kind).apart entry isEntry

end Window

end GraphCheckpoint
