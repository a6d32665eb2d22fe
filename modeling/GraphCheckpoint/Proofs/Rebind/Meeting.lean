import GraphCheckpoint.Proofs.Rebind.Loading

/-!
Contract: the ids that are met on the way to a rebind, whether or not there are records of them.

Owns:
- `Arena.Meets`, an arena that has met what was asked for, and has records of what was registered;
- what look-ups, registration and the check of all references do to such an arena, however they end;
- that loading leaves an arena that has met what the stored values refer to.

Does not own: what happens once all ids that were met have records.
-/

namespace GraphCheckpoint

open GraphCheckpoint.Encoding

namespace Arena

variable {kind : ObjectKind} {id : String} {arena : Arena}
  {asked recorded : ObjectKind → String → Prop}

/-- What has been asked for has been met, and what has been registered has a record; nothing else has
been met. -/
structure Meets (asked recorded : ObjectKind → String → Prop) (arena : Arena) : Prop where
  ordered : arena.entries.Ordered
  known : ∀ kind id, asked kind id → ∃ handle, arena.Knows kind id handle
  present : ∀ kind id, recorded kind id →
    ∃ handle, arena.entries.get? id = some ⟨kind, handle, true⟩
  onlyRecorded : ∀ id entry, arena.entries.get? id = some entry → entry.hasRecord = true →
    recorded entry.kind id
  onlyAsked : ∀ id entry, arena.entries.get? id = some entry → entry.hasRecord = false →
    asked entry.kind id

theorem Meets.congr {otherAsked otherRecorded : ObjectKind → String → Prop}
    (meets : arena.Meets asked recorded) (sameAsked : ∀ kind id, otherAsked kind id ↔ asked kind id)
    (sameRecorded : ∀ kind id, otherRecorded kind id ↔ recorded kind id) :
    arena.Meets otherAsked otherRecorded where
  ordered := meets.ordered
  known := fun kind id isAsked => meets.known kind id ((sameAsked kind id).mp isAsked)
  present := fun kind id isRecorded => meets.present kind id ((sameRecorded kind id).mp isRecorded)
  onlyRecorded := fun id entry found has =>
    (sameRecorded _ _).mpr (meets.onlyRecorded id entry found has)
  onlyAsked := fun id entry found has => (sameAsked _ _).mpr (meets.onlyAsked id entry found has)

/-- Only the entries matter. -/
theorem Meets.of_entries {other : Arena} (meets : arena.Meets asked recorded)
    (sameEntries : other.entries = arena.entries) : other.Meets asked recorded := by
  obtain ⟨entries, _⟩ := other
  cases sameEntries
  exact ⟨meets.ordered, meets.known, meets.present, meets.onlyRecorded, meets.onlyAsked⟩

/-- An id is met as one of a kind only. -/
theorem Meets.oneKind (meets : arena.Meets asked recorded) {other : ObjectKind}
    (isAsked : asked kind id) (isRecorded : recorded other id) : other = kind := by
  obtain ⟨_, _, isMet⟩ := meets.known kind id isAsked
  obtain ⟨_, isToo⟩ := meets.present other id isRecorded
  rw [isMet] at isToo
  cases isToo
  rfl

/-! ## Look-ups -/

/-- An id that has not been met is looked up. -/
theorem Meets.meet (meets : arena.Meets asked recorded) (isNew : arena.entries.get? id = none)
    (kind : ObjectKind) (expected : Option String) :
    (arena.add kind id expected false).2.Meets
      (fun other key => asked other key ∨ (other = kind ∧ key = id)) recorded where
  ordered := meets.ordered.insert id _
  known := by
    rintro other key (isAsked | ⟨rfl, rfl⟩)
    · exact (meets.known other key isAsked).imp fun handle known =>
        grown_add expected false isNew other key handle known
    · exact ⟨_, knows_add expected false⟩
  present := by
    intro other key isRecorded
    obtain ⟨handle, found⟩ := meets.present other key isRecorded
    refine ⟨handle, (get?_add expected false key).trans ((if_neg ?_).trans found)⟩
    rintro rfl
    rw [isNew] at found
    cases found
  onlyRecorded := by
    intro key entry found has
    rcases get?_add_cases found with ⟨rfl, rfl⟩ | ⟨-, old⟩
    · cases has
    · exact meets.onlyRecorded key entry old has
  onlyAsked := by
    intro key entry found has
    rcases get?_add_cases found with ⟨rfl, rfl⟩ | ⟨-, old⟩
    · exact Or.inr ⟨rfl, rfl⟩
    · exact Or.inl (meets.onlyAsked key entry old has)

/-- An id that has been met is looked up. -/
theorem Meets.again (meets : arena.Meets asked recorded) {handle : Handle}
    (isMet : arena.Knows kind id handle) :
    arena.Meets (fun other key => asked other key ∨ (other = kind ∧ key = id)) recorded where
  ordered := meets.ordered
  known := by
    rintro other key (isAsked | ⟨rfl, rfl⟩)
    · exact meets.known other key isAsked
    · exact ⟨handle, isMet⟩
  present := meets.present
  onlyRecorded := meets.onlyRecorded
  onlyAsked := fun key entry found has => Or.inl (meets.onlyAsked key entry found has)

/-! ## Registration -/

/-- A record comes for an id that has not been met. -/
theorem Meets.add (meets : arena.Meets asked recorded) (isNew : arena.entries.get? id = none)
    (kind : ObjectKind) (declared : Option String) :
    (arena.add kind id declared true).2.Meets asked
      (fun other key => recorded other key ∨ (other = kind ∧ key = id)) where
  ordered := meets.ordered.insert id _
  known := fun other key isAsked => (meets.known other key isAsked).imp fun handle known =>
    grown_add declared true isNew other key handle known
  present := by
    rintro other key (isRecorded | ⟨rfl, rfl⟩)
    · obtain ⟨handle, found⟩ := meets.present other key isRecorded
      refine ⟨handle, (get?_add declared true key).trans ((if_neg ?_).trans found)⟩
      rintro rfl
      rw [isNew] at found
      cases found
    · exact ⟨_, (get?_add declared true key).trans (if_pos rfl)⟩
  onlyRecorded := by
    intro key entry found has
    rcases get?_add_cases found with ⟨rfl, rfl⟩ | ⟨-, old⟩
    · exact Or.inr ⟨rfl, rfl⟩
    · exact Or.inl (meets.onlyRecorded key entry old has)
  onlyAsked := by
    intro key entry found has
    rcases get?_add_cases found with ⟨rfl, rfl⟩ | ⟨-, old⟩
    · cases has
    · exact meets.onlyAsked key entry old has

/-- A record comes for an id that was met before. -/
theorem Meets.recordFor {entry : ArenaEntry} (meets : arena.Meets asked recorded)
    (isFound : arena.entries.get? id = some entry) (isFirst : ¬ entry.hasRecord = true) :
    (arena.recordFor id entry).Meets asked
      (fun other key => recorded other key ∨ (other = entry.kind ∧ key = id)) where
  ordered := meets.ordered.insert id _
  known := fun other key isAsked => (meets.known other key isAsked).imp fun handle known =>
    grown_recordFor isFound other key handle known
  present := by
    rintro other key (earlier | ⟨rfl, rfl⟩)
    · obtain ⟨handle, found⟩ := meets.present other key earlier
      refine ⟨handle, (get?_recordFor entry key).trans ((if_neg ?_).trans found)⟩
      rintro rfl
      rw [isFound] at found
      cases found
      exact isFirst rfl
    · exact ⟨entry.handle, get?_recordFor_self entry⟩
  onlyRecorded := by
    intro key other found has
    rw [get?_recordFor] at found
    split at found
    · rename_i same
      cases found
      exact Or.inr ⟨rfl, same⟩
    · exact Or.inl (meets.onlyRecorded key other found has)
  onlyAsked := by
    intro key other found has
    rw [get?_recordFor] at found
    split at found
    · cases found
      cases has
    · exact meets.onlyAsked key other found has

/-- A record is registered for an id, or the registration fails for another reason than a missing
object. -/
theorem Meets.register (meets : arena.Meets asked recorded) (kind : ObjectKind)
    (id typeName : String) :
    (∃ failure, arena.register kind id typeName = .error failure ∧ failure.isNoSuchObject = false) ∨
    ∃ after, arena.register kind id typeName = .ok after ∧
      after.Meets asked (fun other key => recorded other key ∨ (other = kind ∧ key = id)) := by
  have registered := arena.registers kind id typeName
  generalize arena.register kind id typeName = result at registered ⊢
  cases registered with
  | new isNew => exact Or.inr ⟨_, rfl, meets.add isNew kind (some typeName)⟩
  | met isMet => exact Or.inr ⟨_, rfl, meets.recordFor isMet Bool.false_ne_true⟩
  | twice => exact Or.inl ⟨_, rfl, rfl⟩
  | clash => exact Or.inl ⟨_, rfl, rfl⟩

/-! ## The check of all references -/

theorem leastKey_cases (keys : List ObjectKey) :
    (leastKey keys = none ∧ keys = []) ∨ ∃ key ∈ keys, leastKey keys = some key := by
  induction keys with
  | nil => exact Or.inl ⟨rfl, rfl⟩
  | cons key rest inductionHypothesis =>
      rw [leastKey]
      rcases inductionHypothesis with ⟨nothing, -⟩ | ⟨other, isOther, isLeast⟩
      · rw [nothing]
        exact Or.inr ⟨key, List.mem_cons_self, rfl⟩
      · rw [isLeast]
        by_cases before : other.before key = true
        · exact Or.inr ⟨other, List.mem_cons_of_mem _ isOther, if_pos before⟩
        · exact Or.inr ⟨key, List.mem_cons_self, if_neg before⟩

/-- What is missing has been asked for and has no record. -/
theorem Meets.mem_missing_iff (meets : arena.Meets asked recorded) {key : ObjectKey} :
    key ∈ arena.missing ↔ asked key.kind key.id ∧ ¬ recorded key.kind key.id := by
  rw [missing, List.mem_filterMap]
  constructor
  · rintro ⟨⟨id, entry⟩, isEntry, isKey⟩
    have found := Table.get?_of_mem meets.ordered isEntry
    simp only [Option.ite_none_left_eq_some, Bool.not_eq_true, Option.some.injEq] at isKey
    obtain ⟨unrecorded, rfl⟩ := isKey
    refine ⟨meets.onlyAsked id entry found unrecorded, fun isRecorded => ?_⟩
    obtain ⟨handle, isPresent⟩ := meets.present _ _ isRecorded
    rw [found, Option.some.injEq] at isPresent
    rw [isPresent] at unrecorded
    cases unrecorded
  · rintro ⟨isAsked, notRecorded⟩
    obtain ⟨handle, hasRecord, found⟩ := meets.known _ _ isAsked
    cases hasRecord with
    | true => exact absurd (meets.onlyRecorded _ _ found rfl) notRecorded
    | false => exact ⟨_, Table.mem_of_get? found, rfl⟩

/-- The check passes where all that was asked for has a record, and else names what has none. -/
theorem Meets.checkReferences (meets : arena.Meets asked recorded) :
    (∃ key : ObjectKey, arena.checkReferences = .error (.noSuchObject key.kind key.id) ∧
      asked key.kind key.id ∧ ¬ recorded key.kind key.id) ∨
    (arena.checkReferences = .ok () ∧ ∀ kind id, asked kind id → recorded kind id) := by
  rcases leastKey_cases arena.missing with ⟨isNone, nothing⟩ | ⟨key, isMissing, isLeast⟩
  · refine Or.inr ⟨by rw [Arena.checkReferences, isNone], fun kind id isAsked => ?_⟩
    refine Classical.byContradiction fun notRecorded => ?_
    have isMissing : (⟨kind, id⟩ : ObjectKey) ∈ arena.missing :=
      meets.mem_missing_iff.mpr ⟨isAsked, notRecorded⟩
    rw [nothing] at isMissing
    cases isMissing
  · exact Or.inl ⟨key, by rw [Arena.checkReferences, isLeast], meets.mem_missing_iff.mp isMissing⟩

end Arena

/-! ## Loading -/

/-- Records that have been loaded leave an arena that has met what their values refer to. -/
theorem Retrieved.meets {settings : Settings} {stored : Delta Datum} {heap : Heap}
    {graph : Graph LiveValue} {arena : Arena}
    (retrieved : Retrieved settings stored heap graph arena) :
    arena.Meets (fun kind id => ∃ reference ∈ stored.valueReferences Value.referencesOfEntries,
      reference.1 = kind ∧ reference.2.id = id) (fun _ _ => False) where
  ordered := retrieved.tracks.apart.ordered
  known := by
    rintro kind id ⟨reference, member, rfl, rfl⟩
    exact retrieved.knows_of_mem member
  present := fun _ _ impossible => impossible.elim
  onlyRecorded := fun id entry found has => (retrieved.tracks.recorded id entry found).mp has
  onlyAsked := fun _ _ found _ => retrieved.mem_of_knows (Arena.knows_of_get? found)

end GraphCheckpoint
