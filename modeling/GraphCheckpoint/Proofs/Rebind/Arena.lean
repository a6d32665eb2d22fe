import GraphCheckpoint.Proofs.Table
import GraphCheckpoint.Rebind.Arena

/-!
Contract: what the arena of a rebind keeps while ids are met and records are registered.

Owns:
- `Apart`, that every id has a slot of its own;
- `Arena.Pristine`, that no slot is bound yet and no object has been made;
- `Arena.Tracks`, which ids have been met besides, and which of them have records;
- what a look-up, a registration and the final check do to such an arena.

Does not own: in which order records come, or the binding of slots.
-/

namespace GraphCheckpoint

variable {kind : ObjectKind} {id : String} {heap : Heap} {arena : Arena}
  {names registered : ObjectKind → String → Prop}

/-- Every id has a slot of its own, and its reference carries the id. -/
structure Apart (entries : Table ArenaEntry) : Prop where
  ordered : entries.Ordered
  named : ∀ id entry, entries.get? id = some entry → entry.handle.id = id
  distinct : ∀ id other entry otherEntry, entries.get? id = some entry →
    entries.get? other = some otherEntry → entry.handle.slot = otherEntry.handle.slot → id = other

namespace Arena

/-- The id has been met, as one of the kind. -/
def Knows (arena : Arena) (kind : ObjectKind) (id : String) (handle : Handle) : Prop :=
  ∃ recorded, arena.entries.get? id = some ⟨kind, handle, recorded⟩

/-- All that has been met stays met, with its kind and its reference. -/
def Grown (before after : Arena) : Prop :=
  ∀ kind id handle, before.Knows kind id handle → after.Knows kind id handle

theorem Grown.refl (arena : Arena) : arena.Grown arena := fun _ _ _ known => known

theorem Grown.trans {first second third : Arena} (early : first.Grown second)
    (late : second.Grown third) : first.Grown third :=
  fun kind id handle known => late kind id handle (early kind id handle known)

theorem knows_of_get? {entry : ArenaEntry} (found : arena.entries.get? id = some entry) :
    arena.Knows entry.kind id entry.handle := ⟨entry.hasRecord, found⟩

/-! ## Ids met, over a heap that is otherwise untouched -/

/-- Every id met has a slot of its own; no slot is bound yet, and no object has been made or
changed. -/
structure Pristine (heap : Heap) (arena : Arena) : Prop where
  apart : Apart arena.entries
  inRange : ∀ id entry, arena.entries.get? id = some entry →
    entry.handle.slot < arena.heap.slots.bindings.size
  unbound : ∀ id entry, arena.entries.get? id = some entry →
    arena.heap.target? entry.handle = none
  objects : arena.heap.objects = heap.objects

/-- Moreover, only named ids have been met, and the registered ones, and no others, have records. -/
structure Tracks (names registered : ObjectKind → String → Prop) (heap : Heap) (arena : Arena) : Prop
    extends Pristine heap arena where
  within : ∀ kind id handle, arena.Knows kind id handle → names kind id
  recorded : ∀ id entry, arena.entries.get? id = some entry →
    (entry.hasRecord = true ↔ registered entry.kind id)
  present : ∀ kind id, registered kind id → ∃ handle, arena.Knows kind id handle

theorem Tracks.named {handle : Handle} (tracks : arena.Tracks names registered heap)
    (known : arena.Knows kind id handle) : handle.id = id := by
  obtain ⟨recorded, found⟩ := known
  exact tracks.apart.named id _ found

theorem tracks_start : (Arena.start heap).Tracks names (fun _ _ => False) heap where
  apart := ⟨List.Pairwise.nil, nofun, nofun⟩
  inRange := nofun
  unbound := nofun
  objects := rfl
  within := by
    rintro kind id handle ⟨recorded, found⟩
    cases found
  recorded := nofun
  present := nofun

/-! ## A new id -/

theorem get?_add (declared : Option String) (recorded : Bool) (other : String) :
    (arena.add kind id declared recorded).2.entries.get? other =
      if other = id then some ⟨kind, (arena.add kind id declared recorded).1, recorded⟩
      else arena.entries.get? other :=
  Table.get?_insert id other _ arena.entries

theorem target?_push (handle : Handle) (target : Option Address) (slots : Slots) :
    Slots.target? ⟨slots.bindings.push target⟩ handle =
      if handle.slot = slots.bindings.size then target else slots.target? handle := by
  rw [Slots.target?, Slots.target?, Array.getElem?_push]
  split <;> rfl

theorem knows_add (declared : Option String) (recorded : Bool) :
    (arena.add kind id declared recorded).2.Knows kind id
      (arena.add kind id declared recorded).1 := by
  refine ⟨recorded, ?_⟩
  rw [get?_add, if_pos rfl]

theorem grown_add (declared : Option String) (recorded : Bool)
    (isNew : arena.entries.get? id = none) :
    arena.Grown (arena.add kind id declared recorded).2 := by
  rintro other key handle ⟨wasRecorded, found⟩
  refine ⟨wasRecorded, ?_⟩
  rw [get?_add, if_neg, found]
  rintro rfl
  rw [isNew] at found
  cases found

theorem get?_add_cases {declared : Option String} {recorded : Bool} {other : String}
    {entry : ArenaEntry}
    (found : (arena.add kind id declared recorded).2.entries.get? other = some entry) :
    (other = id ∧ entry = ⟨kind, ⟨arena.heap.slots.bindings.size, id, declared⟩, recorded⟩) ∨
      (other ≠ id ∧ arena.entries.get? other = some entry) := by
  rw [get?_add] at found
  split at found
  · rename_i same
    cases found
    exact Or.inl ⟨same, rfl⟩
  · rename_i differs
    exact Or.inr ⟨differs, found⟩

theorem inRange_add (inRange : ∀ id entry, arena.entries.get? id = some entry →
      entry.handle.slot < arena.heap.slots.bindings.size) (kind : ObjectKind) (id : String)
    (declared : Option String) (recorded : Bool) (other : String) (entry : ArenaEntry)
    (found : (arena.add kind id declared recorded).2.entries.get? other = some entry) :
    entry.handle.slot <
      (arena.add kind id declared recorded).2.heap.slots.bindings.size := by
  change entry.handle.slot < (arena.heap.slots.bindings.push none).size
  rw [Array.size_push]
  rcases get?_add_cases found with ⟨rfl, rfl⟩ | ⟨-, old⟩
  · exact Nat.lt_succ_self _
  · exact Nat.lt_succ_of_lt (inRange other entry old)

/-- The slot of a placeholder is the only new one. -/
theorem apart_add (apart : Apart arena.entries) (inRange : ∀ id entry,
      arena.entries.get? id = some entry → entry.handle.slot < arena.heap.slots.bindings.size)
    (kind : ObjectKind) (id : String) (declared : Option String) (recorded : Bool) :
    Apart (arena.add kind id declared recorded).2.entries where
  ordered := apart.ordered.insert id _
  named := by
    intro other entry found
    rcases get?_add_cases found with ⟨rfl, rfl⟩ | ⟨-, old⟩
    · rfl
    · exact apart.named other entry old
  distinct := by
    intro one other entry otherEntry found otherFound sameSlot
    rcases get?_add_cases found with ⟨rfl, rfl⟩ | ⟨-, old⟩ <;>
      rcases get?_add_cases otherFound with ⟨rfl, rfl⟩ | ⟨-, otherOld⟩
    · rfl
    · exact absurd sameSlot.symm (Nat.ne_of_lt (inRange other otherEntry otherOld))
    · exact absurd sameSlot (Nat.ne_of_lt (inRange one entry old))
    · exact apart.distinct one other entry otherEntry old otherOld sameSlot

/-- A placeholder is added for an id that has not been met. -/
theorem Pristine.add (pristine : arena.Pristine heap) (kind : ObjectKind) (id : String)
    (declared : Option String) (recorded : Bool) :
    (arena.add kind id declared recorded).2.Pristine heap where
  apart := apart_add pristine.apart pristine.inRange kind id declared recorded
  inRange := inRange_add pristine.inRange kind id declared recorded
  unbound := by
    intro other entry found
    change Slots.target? ⟨arena.heap.slots.bindings.push none⟩ entry.handle = none
    rw [target?_push]
    rcases get?_add_cases found with ⟨rfl, rfl⟩ | ⟨-, old⟩
    · rw [if_pos rfl]
    · rw [if_neg (Nat.ne_of_lt (pristine.inRange other entry old))]
      exact pristine.unbound other entry old
  objects := pristine.objects

/-- The id of the placeholder is tracked from then on. -/
theorem Tracks.add {further : ObjectKind → String → Prop} (tracks : arena.Tracks names registered heap)
    (isNew : arena.entries.get? id = none) (isNamed : names kind id) (declared : Option String)
    (recorded : Bool) (goesOn : ∀ other key, further other key ↔
      registered other key ∨ (recorded = true ∧ other = kind ∧ key = id)) :
    (arena.add kind id declared recorded).2.Tracks names further heap := by
  have unmet : ∀ other, ¬ registered other id := by
    intro other isRegistered
    obtain ⟨handle, wasRecorded, found⟩ := tracks.present other id isRegistered
    rw [isNew] at found
    cases found
  refine {
    toPristine := tracks.toPristine.add kind id declared recorded
    within := fun other key handle known => ?_
    recorded := fun other entry found => ?_
    present := fun other key isRegistered => ?_ }
  · obtain ⟨wasRecorded, found⟩ := known
    rcases get?_add_cases found with ⟨rfl, isEntry⟩ | ⟨-, old⟩
    · cases isEntry
      exact isNamed
    · exact tracks.within other key handle ⟨wasRecorded, old⟩
  · rw [goesOn]
    rcases get?_add_cases found with ⟨rfl, rfl⟩ | ⟨differs, old⟩
    · exact ⟨fun isRecorded => Or.inr ⟨isRecorded, rfl, rfl⟩,
        fun known => known.elim (fun earlier => absurd earlier (unmet kind)) And.left⟩
    · rw [tracks.recorded other entry old]
      exact ⟨Or.inl, fun known => known.resolve_right fun isNewId => differs isNewId.2.2⟩
  · rcases (goesOn other key).mp isRegistered with earlier | ⟨-, rfl, rfl⟩
    · obtain ⟨handle, known⟩ := tracks.present other key earlier
      exact ⟨handle, grown_add declared recorded isNew other key handle known⟩
    · exact ⟨_, knows_add declared recorded⟩

/-! ## Look-ups -/

/-- How a look-up can end. -/
inductive Resolves (arena : Arena) (kind : ObjectKind) (id : String) (expected : Option String) :
    Outcome (Handle × Arena) → Prop
  | new (isNew : arena.entries.get? id = none) :
      Resolves arena kind id expected (.ok (arena.add kind id expected false))
  | met {handle : Handle} {hasRecord : Bool}
      (isMet : arena.entries.get? id = some ⟨kind, handle, hasRecord⟩)
      (agrees : checkDeclaredType kind expected handle = .ok ()) :
      Resolves arena kind id expected (.ok (handle, arena))
  | differs {handle : Handle} {hasRecord : Bool} {failure : Failure}
      (isMet : arena.entries.get? id = some ⟨kind, handle, hasRecord⟩)
      (differs : checkDeclaredType kind expected handle = .error failure) :
      Resolves arena kind id expected (.error failure)
  | clash {other : ObjectKind} {handle : Handle} {hasRecord : Bool}
      (isMet : arena.entries.get? id = some ⟨other, handle, hasRecord⟩) (differs : other ≠ kind) :
      Resolves arena kind id expected (.error (.kindClash id other kind))

theorem resolves (arena : Arena) (kind : ObjectKind) (id : String) (expected : Option String) :
    arena.Resolves kind id expected ((Arena.resolver kind id expected).run arena) := by
  rw [Arena.resolver, StateT.run_bind, StateT.run_get, pure_bind]
  rcases isMet : arena.entries.get? id with - | ⟨other, handle, hasRecord⟩
  · exact .new isMet
  · by_cases sameKind : other = kind
    · subst sameKind
      simp only [if_true]
      cases checked : checkDeclaredType other expected handle with
      | ok agreed => exact .met isMet checked
      | error failure => exact .differs isMet checked
    · simp only [if_neg sameKind]
      exact .clash isMet sameKind

/-- A look-up of a named id fails, or gives the reference that the arena has for it from then on. -/
theorem Tracks.resolver (tracks : arena.Tracks names registered heap) (isNamed : names kind id)
    (expected : Option String) :
    (∃ failure, (Arena.resolver kind id expected).run arena = .error failure) ∨
    ∃ handle after, (Arena.resolver kind id expected).run arena = .ok (handle, after) ∧
      after.Tracks names registered heap ∧ arena.Grown after ∧ after.Knows kind id handle := by
  have resolved := arena.resolves kind id expected
  generalize (Arena.resolver kind id expected).run arena = result at resolved ⊢
  cases resolved with
  | new isNew =>
      exact Or.inr ⟨_, _, rfl, tracks.add isNew isNamed expected false (by simp),
        grown_add expected false isNew, knows_add expected false⟩
  | met isMet => exact Or.inr ⟨_, _, rfl, tracks, Grown.refl arena, knows_of_get? isMet⟩
  | differs => exact Or.inl ⟨_, rfl⟩
  | clash => exact Or.inl ⟨_, rfl⟩

/-! ## Registration -/

/-- The arena once a record has come for an id met before. -/
def recordFor (id : String) (entry : ArenaEntry) (arena : Arena) : Arena :=
  { arena with entries := arena.entries.insert id { entry with hasRecord := true } }

theorem get?_recordFor (entry : ArenaEntry) (other : String) :
    (arena.recordFor id entry).entries.get? other =
      if other = id then some { entry with hasRecord := true } else arena.entries.get? other :=
  Table.get?_insert id other _ arena.entries

theorem get?_recordFor_self (entry : ArenaEntry) :
    (arena.recordFor id entry).entries.get? id = some { entry with hasRecord := true } :=
  (get?_recordFor entry id).trans (if_pos rfl)

theorem grown_recordFor {entry : ArenaEntry} (isFound : arena.entries.get? id = some entry) :
    arena.Grown (arena.recordFor id entry) := by
  rintro other key handle ⟨recorded, wasFound⟩
  by_cases same : key = id
  · subst same
    rw [isFound] at wasFound
    cases wasFound
    exact ⟨true, get?_recordFor_self _⟩
  · exact ⟨recorded, (get?_recordFor _ _).trans ((if_neg same).trans wasFound)⟩

theorem get?_recordFor_cases {entry found : ArenaEntry} {other : String}
    (isFound : arena.entries.get? id = some entry)
    (isEntry : (arena.recordFor id entry).entries.get? other = some found) :
    ∃ old, arena.entries.get? other = some old ∧ old.kind = found.kind ∧ old.handle = found.handle := by
  rw [get?_recordFor] at isEntry
  split at isEntry
  · rename_i same
    subst same
    cases isEntry
    exact ⟨entry, isFound, rfl, rfl⟩
  · exact ⟨found, isEntry, rfl, rfl⟩

theorem apart_recordFor {entry : ArenaEntry} (apart : Apart arena.entries)
    (isFound : arena.entries.get? id = some entry) :
    Apart (arena.recordFor id entry).entries where
  ordered := apart.ordered.insert id _
  named := by
    intro other found isEntry
    obtain ⟨old, wasFound, -, sameHandle⟩ := get?_recordFor_cases isFound isEntry
    exact sameHandle ▸ apart.named other old wasFound
  distinct := by
    intro one other found otherFound isEntry isOther sameSlot
    obtain ⟨old, wasFound, -, sameHandle⟩ := get?_recordFor_cases isFound isEntry
    obtain ⟨otherOld, wasOther, -, sameOther⟩ := get?_recordFor_cases isFound isOther
    rw [← sameHandle, ← sameOther] at sameSlot
    exact apart.distinct one other old otherOld wasFound wasOther sameSlot

/-- No slot changes for an id met before. -/
theorem Pristine.recordFor {entry : ArenaEntry} (pristine : arena.Pristine heap)
    (isFound : arena.entries.get? id = some entry) :
    (arena.recordFor id entry).Pristine heap where
  apart := apart_recordFor pristine.apart isFound
  inRange := by
    intro other found isEntry
    obtain ⟨old, wasFound, -, sameHandle⟩ := get?_recordFor_cases isFound isEntry
    exact sameHandle ▸ pristine.inRange other old wasFound
  unbound := by
    intro other found isEntry
    obtain ⟨old, wasFound, -, sameHandle⟩ := get?_recordFor_cases isFound isEntry
    exact sameHandle ▸ pristine.unbound other old wasFound
  objects := pristine.objects

/-- How the registration of a record can end. -/
inductive Registers (arena : Arena) (kind : ObjectKind) (id typeName : String) : Outcome Arena → Prop
  | new (isNew : arena.entries.get? id = none) :
      Registers arena kind id typeName (.ok (arena.add kind id (some typeName) true).2)
  | met {handle : Handle} (isMet : arena.entries.get? id = some ⟨kind, handle, false⟩) :
      Registers arena kind id typeName (.ok (arena.recordFor id ⟨kind, handle, false⟩))
  | twice {handle : Handle} (isMet : arena.entries.get? id = some ⟨kind, handle, true⟩) :
      Registers arena kind id typeName
        (.error (.invalidState (kind.name ++ " '" ++ id ++ "' was loaded twice")))
  | clash {other : ObjectKind} {handle : Handle} {hasRecord : Bool}
      (isMet : arena.entries.get? id = some ⟨other, handle, hasRecord⟩) (differs : other ≠ kind) :
      Registers arena kind id typeName (.error (.kindClash id other kind))

theorem registers (arena : Arena) (kind : ObjectKind) (id typeName : String) :
    arena.Registers kind id typeName (arena.register kind id typeName) := by
  rw [Arena.register]
  rcases isMet : arena.entries.get? id with - | ⟨other, handle, hasRecord⟩
  · exact .new isMet
  · by_cases sameKind : other = kind
    · subst sameKind
      simp only [ne_eq, not_true, if_false]
      cases hasRecord with
      | true => exact .twice isMet
      | false => exact .met isMet
    · simp only [ne_eq, sameKind, not_false_iff, if_true]
      exact .clash isMet sameKind

/-- No slot changes by a registration. -/
theorem Pristine.register (pristine : arena.Pristine heap) {typeName : String} {after : Arena}
    (ran : arena.register kind id typeName = .ok after) : after.Pristine heap := by
  have registered := arena.registers kind id typeName
  rw [ran] at registered
  cases registered with
  | new isNew => exact pristine.add kind id (some typeName) true
  | met isMet => exact pristine.recordFor isMet

/-- What has been met stays so through a registration. -/
theorem grown_register {typeName : String} {after : Arena}
    (ran : arena.register kind id typeName = .ok after) : arena.Grown after := by
  have registered := arena.registers kind id typeName
  rw [ran] at registered
  cases registered with
  | new isNew => exact grown_add (some typeName) true isNew
  | met isMet => exact grown_recordFor isMet

/-- Only what is known of records changes. -/
theorem Tracks.recordFor {further : ObjectKind → String → Prop} {entry : ArenaEntry}
    (tracks : arena.Tracks names registered heap)
    (isFound : arena.entries.get? id = some entry)
    (goesOn : ∀ other key, further other key ↔
      registered other key ∨ (other = entry.kind ∧ key = id)) :
    (arena.recordFor id entry).Tracks names further heap := by
  refine {
    toPristine := tracks.toPristine.recordFor isFound
    within := fun other key handle isKnown => ?_
    recorded := fun other found isEntry => ?_
    present := fun other key isRegistered => ?_ }
  · obtain ⟨recorded, isEntry⟩ := isKnown
    obtain ⟨old, wasFound, sameKind, -⟩ := get?_recordFor_cases isFound isEntry
    cases sameKind
    exact tracks.within _ key _ (knows_of_get? wasFound)
  · rw [goesOn]
    rw [get?_recordFor] at isEntry
    split at isEntry
    · rename_i same
      cases isEntry
      exact ⟨fun _ => Or.inr ⟨rfl, same⟩, fun _ => rfl⟩
    · rename_i differs
      rw [tracks.recorded other found isEntry]
      exact ⟨Or.inl, fun later => later.resolve_right fun isNewId => differs isNewId.2⟩
  · rcases (goesOn other key).mp isRegistered with earlier | ⟨rfl, rfl⟩
    · obtain ⟨handle, wasKnown⟩ := tracks.present other key earlier
      exact ⟨handle, grown_recordFor isFound other key handle wasKnown⟩
    · exact ⟨entry.handle, grown_recordFor isFound _ _ _ (knows_of_get? isFound)⟩

/-- A record comes for a named id that has none yet. -/
theorem Tracks.register (tracks : arena.Tracks names registered heap)
    (further : ObjectKind → String → Prop) (typeName : String)
    (oneKind : ∀ one other key, names one key → names other key → one = other)
    (isNamed : names kind id) (isNew : ¬ registered kind id)
    (goesOn : ∀ other key, further other key ↔
      registered other key ∨ (other = kind ∧ key = id)) :
    ∃ after, arena.register kind id typeName = .ok after ∧ after.Tracks names further heap ∧
      arena.Grown after := by
  have registered := arena.registers kind id typeName
  generalize arena.register kind id typeName = result at registered ⊢
  cases registered with
  | new isFirst =>
      exact ⟨_, rfl, tracks.add isFirst isNamed (some typeName) true (by simpa using goesOn),
        grown_add (some typeName) true isFirst⟩
  | met isMet => exact ⟨_, rfl, tracks.recordFor isMet goesOn, grown_recordFor isMet⟩
  | twice isMet => exact absurd ((tracks.recorded id _ isMet).mp rfl) isNew
  | clash isMet differs =>
      exact absurd (oneKind _ _ _ (tracks.within _ _ _ (knows_of_get? isMet)) isNamed) differs

/-! ## References to registered ids -/

/-- There is a reference to an id if a record of the kind has come for it. -/
theorem reference_cases (arena : Arena) (kind : ObjectKind) (id : String) :
    (arena.reference kind id = .error (.noSuchObject kind id) ∧
      ∀ handle, arena.entries.get? id ≠ some ⟨kind, handle, true⟩) ∨
    ∃ handle, arena.reference kind id = .ok handle ∧
      arena.entries.get? id = some ⟨kind, handle, true⟩ := by
  rw [reference]
  rcases arena.entries.get? id with - | ⟨other, found, hasRecord⟩
  · exact Or.inl ⟨rfl, nofun⟩
  · by_cases isRecord : hasRecord = true ∧ other = kind
    · obtain ⟨rfl, rfl⟩ := isRecord
      exact Or.inr ⟨found, if_pos ⟨rfl, rfl⟩, rfl⟩
    · refine Or.inl ⟨if_neg isRecord, fun handle same => ?_⟩
      cases same
      exact isRecord ⟨rfl, rfl⟩

theorem reference_eq_ok_iff {handle : Handle} :
    arena.reference kind id = .ok handle ↔
      arena.entries.get? id = some ⟨kind, handle, true⟩ := by
  rcases arena.reference_cases kind id with ⟨fails, none⟩ | ⟨found, isReference, isMet⟩
  · rw [fails]
    exact ⟨nofun, fun isMet => absurd isMet (none handle)⟩
  · rw [isReference, isMet]
    simp

/-! ## When all records have come -/

/-- Once all named ids have records, no id is without one. -/
theorem Tracks.checkReferences (tracks : arena.Tracks names names heap) :
    arena.checkReferences = .ok () := by
  have recorded : ∀ entry ∈ arena.entries, entry.2.hasRecord = true := by
    intro entry member
    have found := Table.get?_of_mem tracks.apart.ordered member
    exact (tracks.recorded _ _ found).mpr (tracks.within _ _ _ (knows_of_get? found))
  have nothing : arena.missing = [] := by
    rw [missing, List.filterMap_eq_nil_iff]
    intro entry member
    simp only [recorded entry member, reduceIte]
  rw [Arena.checkReferences, nothing]
  rfl

end Arena

end GraphCheckpoint
