import GraphCheckpoint.Proofs.Dangling
import GraphCheckpoint.Proofs.Rebind.Calls
import GraphCheckpoint.Proofs.Rebind.Meeting

/-!
Contract: the arena of a rebind under any calls, in any order.

Owns:
- `Arena.Advances`, what no call takes back;
- `Arena.Follows`, what an arena has of the calls that were made on it, and that each call keeps this;
- `CallHistory`, calls that are made one after another, whatever they return;
- `CallHistory.Lawful`, what is seen of an arena after them: which references share a slot, which ids
  have one, which of the ids that were looked up are missing, and which of these is named.

Does not own: the calls that a rebind makes.

An id takes its kind, its declared type and its slot from the first call that succeeds for it.
-/

namespace GraphCheckpoint

/-! ## What no call takes back -/

namespace Arena

variable {arena before after : Arena} {call : ArenaCall} {result : Outcome (Option Handle)}
  {kind : ObjectKind} {id : String}

/-- What has been met keeps its kind and its reference, what has a record keeps it, and what is bound
stays bound to the same object. -/
structure Advances (before after : Arena) : Prop where
  grown : before.Grown after
  recorded : ∀ kind id handle, before.entries.get? id = some ⟨kind, handle, true⟩ →
    after.entries.get? id = some ⟨kind, handle, true⟩
  bound : ∀ handle address, before.heap.target? handle = some address →
    after.heap.target? handle = some address

theorem Advances.refl (arena : Arena) : arena.Advances arena :=
  ⟨.refl arena, fun _ _ _ found => found, fun _ _ found => found⟩

theorem Advances.trans {first second third : Arena} (early : first.Advances second)
    (late : second.Advances third) : first.Advances third where
  grown := early.grown.trans late.grown
  recorded := fun kind id handle found =>
    late.recorded kind id handle (early.recorded kind id handle found)
  bound := fun handle address found => late.bound handle address (early.bound handle address found)

theorem Advances.of_entries (sameEntries : after.entries = before.entries)
    (bound : ∀ handle address, before.heap.target? handle = some address →
      after.heap.target? handle = some address) : before.Advances after where
  grown := by
    rintro kind id handle ⟨hasRecord, found⟩
    exact ⟨hasRecord, sameEntries ▸ found⟩
  recorded := fun kind id handle found => sameEntries ▸ found
  bound := bound

/-- A placeholder leads nowhere, as its slot did before there was one. -/
theorem target?_add (declared : Option String) (hasRecord : Bool) (handle : Handle) :
    (arena.add kind id declared hasRecord).2.heap.target? handle = arena.heap.target? handle := by
  change Slots.target? ⟨arena.heap.slots.bindings.push none⟩ handle = _
  rw [target?_push]
  split
  · rename_i isNew
    rw [Heap.target?, Slots.target?, isNew, Array.getElem?_eq_none (Nat.le_refl _)]
    rfl
  · rfl

theorem advances_add (isNew : arena.entries.get? id = none) (declared : Option String)
    (hasRecord : Bool) : arena.Advances (arena.add kind id declared hasRecord).2 where
  grown := grown_add declared hasRecord isNew
  recorded := by
    intro other key handle found
    refine (get?_add declared hasRecord key).trans ((if_neg ?_).trans found)
    rintro rfl
    rw [isNew] at found
    cases found
  bound := fun handle address found => (target?_add declared hasRecord handle).trans found

theorem advances_recordFor {handle : Handle}
    (isMet : arena.entries.get? id = some ⟨kind, handle, false⟩) :
    arena.Advances (arena.recordFor id ⟨kind, handle, false⟩) where
  grown := grown_recordFor isMet
  recorded := by
    intro other key found isFound
    refine (get?_recordFor _ key).trans ((if_neg ?_).trans isFound)
    rintro rfl
    rw [isMet] at isFound
    cases isFound
  bound := fun _ _ found => found

theorem Steps.advances (steps : before.Steps call result after) : before.Advances after := by
  cases steps with
  | meets isNew => exact advances_add isNew _ false
  | finds => exact .refl before
  | adds isNew => exact advances_add isNew _ true
  | records isMet => exact advances_recordFor isMet
  | refers => exact .refl before
  | @binds kind id _ own address _ isMet isUnbound sameEntries slots =>
      refine .of_entries sameEntries fun handle other found => ?_
      have differs : own.slot ≠ handle.slot := by
        intro same
        rw [Heap.target?, Slots.target?, same] at isUnbound
        rw [Heap.target?, Slots.target?, isUnbound] at found
        cases found
      rw [Heap.target?, Slots.target?, slots, Array.getElem?_setIfInBounds_ne differs]
      exact found
  | refuses _ sameEntries sameSlots =>
      refine .of_entries sameEntries fun handle address found => ?_
      rw [Heap.target?, sameSlots]
      exact found

/-! ## The slots of ids -/

/-- The id has been met as one of the kind, and its slot is bound. -/
def IsBound (arena : Arena) (kind : ObjectKind) (id : String) : Prop :=
  ∃ handle address, arena.Knows kind id handle ∧ arena.heap.target? handle = some address

theorem Advances.isBound (advances : before.Advances after) (isBound : before.IsBound kind id) :
    after.IsBound kind id := by
  obtain ⟨handle, address, known, found⟩ := isBound
  exact ⟨handle, address, advances.grown _ _ _ known, advances.bound _ _ found⟩

/-- No slot is bound by a placeholder. -/
theorem isBound_of_add {other : ObjectKind} {key : String} {declared : Option String}
    {hasRecord : Bool} (isBound : (arena.add kind id declared hasRecord).2.IsBound other key) :
    arena.IsBound other key := by
  obtain ⟨handle, address, ⟨wasRecorded, found⟩, isTarget⟩ := isBound
  rw [target?_add] at isTarget
  rcases get?_add_cases found with ⟨rfl, isEntry⟩ | ⟨-, old⟩
  · cases isEntry
    rw [Heap.target?, Slots.target?, Array.getElem?_eq_none (Nat.le_refl _)] at isTarget
    cases isTarget
  · exact ⟨handle, address, ⟨wasRecorded, old⟩, isTarget⟩

/-- Every id has a slot of its own among those that there are. -/
structure Housed (arena : Arena) : Prop where
  apart : Apart arena.entries
  inRange : ∀ id entry, arena.entries.get? id = some entry →
    entry.handle.slot < arena.heap.slots.bindings.size

end Arena

/-! ## Calls that have been made -/

/-- A call that was made, with what it returned. -/
abbrev ArenaEvent := ArenaCall × Outcome (Option Handle)

namespace ArenaEvent

/-- The id that was looked up, if a reference was found. -/
def lookedUp? : ArenaEvent → Option ObjectKey
  | (.lookUp kind id _, .ok _) => some ⟨kind, id⟩
  | _ => none

/-- The id for which a record has come, if it was not refused. -/
def registered? : ArenaEvent → Option ObjectKey
  | (.register kind id _, .ok _) => some ⟨kind, id⟩
  | _ => none

/-- The id of which an object has been built. -/
def built? : ArenaEvent → Option ObjectKey
  | (.build kind id _, .ok _) => some ⟨kind, id⟩
  | _ => none

@[simp] theorem lookedUp?_error (call : ArenaCall) (failure : Failure) :
    lookedUp? (call, .error failure) = none := by cases call <;> rfl

@[simp] theorem registered?_error (call : ArenaCall) (failure : Failure) :
    registered? (call, .error failure) = none := by cases call <;> rfl

@[simp] theorem built?_error (call : ArenaCall) (failure : Failure) :
    built? (call, .error failure) = none := by cases call <;> rfl

private theorem mem_filterMap_concat {select : ArenaEvent → Option ObjectKey}
    {events : List ArenaEvent} {event : ArenaEvent} {key : ObjectKey} :
    key ∈ (events ++ [event]).filterMap select ↔
      key ∈ events.filterMap select ∨ select event = some key := by
  simp [List.filterMap_append, List.mem_filterMap]

end ArenaEvent

namespace Arena

open ArenaEvent

variable {arena before after : Arena} {call : ArenaCall} {result : Outcome (Option Handle)}
  {events : List ArenaEvent} {kind : ObjectKind} {id : String}
  {asked recorded : ObjectKind → String → Prop}

theorem Steps.housed (steps : before.Steps call result after) (housed : before.Housed) :
    after.Housed := by
  cases steps with
  | meets => exact ⟨apart_add housed.apart housed.inRange _ _ _ _, inRange_add housed.inRange _ _ _ _⟩
  | finds => exact housed
  | adds => exact ⟨apart_add housed.apart housed.inRange _ _ _ _, inRange_add housed.inRange _ _ _ _⟩
  | records isMet =>
      refine ⟨apart_recordFor housed.apart isMet, fun other found isEntry => ?_⟩
      obtain ⟨old, wasFound, -, sameHandle⟩ := get?_recordFor_cases isMet isEntry
      exact sameHandle ▸ housed.inRange other old wasFound
  | refers => exact housed
  | binds isMet isUnbound sameEntries slots =>
      refine ⟨sameEntries ▸ housed.apart, fun other found isEntry => ?_⟩
      rw [slots, Array.size_setIfInBounds]
      exact housed.inRange other found (sameEntries ▸ isEntry)
  | refuses _ sameEntries sameSlots =>
      refine ⟨sameEntries ▸ housed.apart, fun other found isEntry => ?_⟩
      rw [sameSlots]
      exact housed.inRange other found (sameEntries ▸ isEntry)

/-- A slot is bound by the building of an object of its id, and by nothing else. -/
theorem Steps.isBound_iff (steps : before.Steps call result after) (housed : before.Housed) :
    after.IsBound kind id ↔
      before.IsBound kind id ∨ built? (call, result) = some ⟨kind, id⟩ := by
  constructor
  · intro isBound
    cases steps with
    | meets => exact Or.inl (isBound_of_add isBound)
    | finds => exact Or.inl isBound
    | adds => exact Or.inl (isBound_of_add isBound)
    | records isMet =>
        obtain ⟨handle, address, ⟨_, found⟩, isTarget⟩ := isBound
        obtain ⟨⟨_, _, wasRecorded⟩, wasFound, rfl, rfl⟩ := get?_recordFor_cases isMet found
        exact Or.inl ⟨_, address, ⟨wasRecorded, wasFound⟩, isTarget⟩
    | refers => exact Or.inl isBound
    | binds isMet isUnbound sameEntries slots =>
        obtain ⟨handle, address, ⟨hasRecord, found⟩, isTarget⟩ := isBound
        rw [sameEntries] at found
        rw [Heap.target?, slots,
          target?_setIfInBounds _ _ _ _ (housed.inRange _ _ isMet)] at isTarget
        split at isTarget
        · rename_i sameSlot
          obtain rfl := housed.apart.distinct _ _ _ _ found isMet sameSlot
          rw [isMet] at found
          cases found
          exact Or.inr rfl
        · exact Or.inl ⟨handle, address, ⟨hasRecord, found⟩, isTarget⟩
    | refuses _ sameEntries sameSlots =>
        obtain ⟨handle, address, ⟨hasRecord, found⟩, isTarget⟩ := isBound
        rw [sameEntries] at found
        rw [Heap.target?, sameSlots] at isTarget
        exact Or.inl ⟨handle, address, ⟨hasRecord, found⟩, isTarget⟩
  · rintro (wasBound | isBuilt)
    · exact steps.advances.isBound wasBound
    · cases steps with
      | @binds other key _ own address _ isMet isUnbound sameEntries slots =>
          cases isBuilt
          refine ⟨own, address, ⟨true, sameEntries ▸ isMet⟩, ?_⟩
          rw [Heap.target?, slots, target?_setIfInBounds _ _ _ _ (housed.inRange _ _ isMet),
            if_pos rfl]
      | refuses =>
          rw [built?_error] at isBuilt
          cases isBuilt
      | _ => cases isBuilt

private theorem key_eq_iff {other : ObjectKind} {key : String} :
    some (⟨kind, id⟩ : ObjectKey) = some ⟨other, key⟩ ↔ other = kind ∧ key = id := by
  rw [Option.some.injEq, ObjectKey.mk.injEq, eq_comm, @eq_comm _ id]

/-- What has been looked up and what has been registered is told by the calls that succeeded. -/
theorem Steps.meets_after (steps : before.Steps call result after)
    (meets : before.Meets asked recorded) :
    after.Meets
      (fun kind id => asked kind id ∨ lookedUp? (call, result) = some ⟨kind, id⟩)
      (fun kind id => recorded kind id ∨ registered? (call, result) = some ⟨kind, id⟩) := by
  cases steps with
  | meets isNew =>
      exact (meets.meet isNew _ _).congr (fun _ _ => or_congr_right key_eq_iff)
        fun _ _ => by simp [registered?]
  | finds isMet =>
      exact (meets.again ⟨_, isMet⟩).congr (fun _ _ => or_congr_right key_eq_iff)
        fun _ _ => by simp [registered?]
  | adds isNew =>
      exact (meets.add isNew _ _).congr (fun _ _ => by simp [lookedUp?])
        fun _ _ => or_congr_right key_eq_iff
  | records isMet =>
      exact (meets.recordFor isMet Bool.false_ne_true).congr (fun _ _ => by simp [lookedUp?])
        fun _ _ => or_congr_right key_eq_iff
  | refers => exact meets.congr (fun _ _ => by simp [lookedUp?]) fun _ _ => by simp [registered?]
  | binds _ _ sameEntries =>
      exact (meets.of_entries sameEntries).congr (fun _ _ => by simp [lookedUp?])
        fun _ _ => by simp [registered?]
  | refuses _ sameEntries =>
      exact (meets.of_entries sameEntries).congr (fun _ _ => by simp) fun _ _ => by simp

/-- A reference that is returned is the one that the arena has for the id. -/
theorem Steps.knows_returned {handle : Handle}
    (steps : before.Steps call (.ok (some handle)) after) : after.Knows call.kind call.id handle := by
  cases steps with
  | meets => exact knows_add _ false
  | finds isMet => exact ⟨_, isMet⟩
  | refers isMet => exact ⟨_, isMet⟩

/-- An id that is looked up has an entry from then on, whether or not the look-up succeeds. -/
theorem Steps.exists_entry {expected : Option String}
    (steps : before.Steps (.lookUp kind id expected) result after) :
    ∃ entry, after.entries.get? id = some entry := by
  cases steps with
  | meets => exact ⟨_, (get?_add _ false id).trans (if_pos rfl)⟩
  | finds isMet => exact ⟨_, isMet⟩
  | refuses isMet sameEntries => exact sameEntries ▸ isMet kind id expected rfl

/-- What an arena has of the calls that were made on it. -/
structure Follows (events : List ArenaEvent) (arena : Arena) : Prop extends arena.Housed where
  meets : arena.Meets (fun kind id => ⟨kind, id⟩ ∈ events.filterMap lookedUp?)
    (fun kind id => ⟨kind, id⟩ ∈ events.filterMap registered?)
  bound : ∀ kind id, ⟨kind, id⟩ ∈ events.filterMap built? ↔ arena.IsBound kind id
  returned : ∀ call handle, (call, .ok (some handle)) ∈ events → arena.Knows call.kind call.id handle
  asked : ∀ kind id expected result, (.lookUp kind id expected, result) ∈ events →
    ∃ entry, arena.entries.get? id = some entry

theorem follows_start (heap : Heap) : (start heap).Follows [] where
  apart := ⟨List.Pairwise.nil, nofun, nofun⟩
  inRange := nofun
  meets := ⟨List.Pairwise.nil, nofun, nofun, nofun, nofun⟩
  bound := by
    refine fun kind id => ⟨nofun, ?_⟩
    rintro ⟨_, _, ⟨_, found⟩, -⟩
    cases found
  returned := nofun
  asked := nofun

theorem Follows.step (follows : before.Follows events) (steps : before.Steps call result after) :
    after.Follows (events ++ [(call, result)]) where
  toHoused := steps.housed follows.toHoused
  meets := (steps.meets_after follows.meets).congr (fun _ _ => mem_filterMap_concat)
    fun _ _ => mem_filterMap_concat
  bound := by
    intro kind id
    rw [mem_filterMap_concat, follows.bound, steps.isBound_iff follows.toHoused]
  returned := by
    intro other handle member
    rcases List.mem_append.mp member with old | isLast
    · exact steps.advances.grown _ _ _ (follows.returned other handle old)
    · cases List.mem_singleton.mp isLast
      exact steps.knows_returned
  asked := by
    intro kind id expected outcome member
    rcases List.mem_append.mp member with old | isLast
    · obtain ⟨entry, found⟩ := follows.asked kind id expected outcome old
      obtain ⟨_, known⟩ := steps.advances.grown _ _ _ (knows_of_get? found)
      exact ⟨_, known⟩
    · cases List.mem_singleton.mp isLast
      exact steps.exists_entry

/-! ## The check of all references -/

/-- The least key is before all others. -/
theorem before_of_leastKey {keys : List ObjectKey} {key : ObjectKey}
    (isLeast : leastKey keys = some key) :
    ∀ other ∈ keys, other = key ∨ key.before other = true := by
  induction keys generalizing key with
  | nil => cases isLeast
  | cons first rest inductionHypothesis =>
      rw [leastKey] at isLeast
      cases ofRest : leastKey rest with
      | none =>
          rw [ofRest] at isLeast
          cases isLeast
          obtain ⟨-, rfl⟩ | ⟨_, -, isSome⟩ := leastKey_cases rest
          · exact fun other member => Or.inl (List.mem_singleton.mp member)
          · rw [ofRest] at isSome
            cases isSome
      | some least =>
          rw [ofRest] at isLeast
          have others := inductionHypothesis ofRest
          by_cases early : least.before first = true
          · obtain rfl : least = key := Option.some.inj ((if_pos early).symm.trans isLeast)
            exact List.forall_mem_cons.mpr ⟨Or.inr early, others⟩
          · obtain rfl : first = key := Option.some.inj ((if_neg early).symm.trans isLeast)
            refine List.forall_mem_cons.mpr ⟨Or.inl rfl, fun other member => ?_⟩
            have notLater : first = least ∨ first.before least = true :=
              or_iff_not_imp_left.mpr fun differs =>
                ObjectKey.before_of_not_before (Ne.symm differs) (Bool.eq_false_iff.mpr early)
            rcases notLater with rfl | late
            · exact others other member
            · rcases others other member with rfl | later
              · exact Or.inr late
              · exact Or.inr (ObjectKey.before_trans late later)

/-- The check passes where nothing is missing, and else names the first that is. -/
theorem checkReferences_cases (arena : Arena) :
    (arena.missing = [] ∧ arena.checkReferences = .ok ()) ∨
    ∃ key ∈ arena.missing, arena.checkReferences = .error (.noSuchObject key.kind key.id) ∧
      ∀ other ∈ arena.missing, other = key ∨ key.before other = true := by
  rw [checkReferences]
  rcases leastKey_cases arena.missing with ⟨isNone, nothing⟩ | ⟨key, isMissing, isLeast⟩
  · rw [isNone]
    exact Or.inl ⟨nothing, rfl⟩
  · rw [isLeast]
    exact Or.inr ⟨key, isMissing, rfl, before_of_leastKey isLeast⟩

end Arena

/-! ## Runs -/

/-- The calls that have been made on a pass, and where they have left it. -/
structure CallHistory where
  events : List ArenaEvent
  state : PassState

namespace CallHistory

open ArenaEvent

variable {registry : Registry} {heap : Heap} {history : CallHistory} {kind : ObjectKind} {id : String}

def start (heap : Heap) : CallHistory := ⟨[], Pass.start heap⟩

/-- One more call is made. -/
def extend (registry : Registry) (history : CallHistory) (call : ArenaCall) : CallHistory :=
  let ran := (Pass.perform registry call).run.run history.state
  ⟨history.events ++ [(call, ran.1)], ran.2⟩

/-- Calls are made one after another, whatever they return. -/
def extendAll (registry : Registry) (calls : List ArenaCall) (history : CallHistory) : CallHistory :=
  calls.foldl (extend registry) history

/-- The id has been found by a look-up, and no record of it has come. -/
def Lacks (history : CallHistory) (key : ObjectKey) : Prop :=
  key ∈ history.events.filterMap lookedUp? ∧
    ∀ kind, ⟨kind, key.id⟩ ∉ history.events.filterMap registered?

theorem extend_steps (registry : Registry) (history : CallHistory) (call : ArenaCall) :
    ∃ result, (history.extend registry call).events = history.events ++ [(call, result)] ∧
      history.state.arena.Steps call result (history.extend registry call).state.arena := by
  obtain ⟨result, next, ran, steps⟩ := Pass.perform_steps registry call history.state
  have isNext : history.extend registry call = ⟨history.events ++ [(call, result)], next⟩ :=
    congrArg (fun ended : Outcome (Option Handle) × PassState =>
      (⟨history.events ++ [(call, ended.1)], ended.2⟩ : CallHistory)) ran
  rw [isNext]
  exact ⟨result, rfl, steps⟩

/-- By induction on the calls: each of them is a step. -/
theorem advances_extendAll (registry : Registry) (calls : List ArenaCall) (history : CallHistory) :
    history.state.arena.Advances (history.extendAll registry calls).state.arena := by
  induction calls generalizing history with
  | nil => exact .refl _
  | cons call rest inductionHypothesis =>
      obtain ⟨result, -, steps⟩ := history.extend_steps registry call
      exact steps.advances.trans (inductionHypothesis (history.extend registry call))

/-- By induction on the calls, with what was made of the ones before. -/
theorem follows_extendAll (calls : List ArenaCall) (history : CallHistory)
    (follows : history.state.arena.Follows history.events) :
    (history.extendAll registry calls).state.arena.Follows
      (history.extendAll registry calls).events := by
  induction calls generalizing history with
  | nil => exact follows
  | cons call rest inductionHypothesis =>
      obtain ⟨result, isNext, steps⟩ := history.extend_steps registry call
      refine inductionHypothesis (history.extend registry call) ?_
      rw [isNext]
      exact follows.step steps

/-- What is missing in the arena is what the calls have left without a record. -/
theorem mem_missing_iff (follows : history.state.arena.Follows history.events) {key : ObjectKey} :
    key ∈ history.state.arena.missing ↔ history.Lacks key := by
  rw [follows.meets.mem_missing_iff]
  refine and_congr_right fun isAsked => ⟨fun notRecorded kind isRecorded => ?_, fun none => none _⟩
  obtain rfl := follows.meets.oneKind isAsked isRecorded
  exact notRecorded isRecorded

/-- A kind and an id are referred to where a record of them has come. -/
theorem exists_reference_iff (registry : Registry)
    (follows : history.state.arena.Follows history.events) (kind : ObjectKind) (id : String) :
    (∃ handle after,
      Pass.perform registry (.reference kind id) history.state = (.ok (some handle), after)) ↔
        ⟨kind, id⟩ ∈ history.events.filterMap registered? := by
  have asks := Pass.perform_reference registry kind id history.state
  constructor
  · rintro ⟨handle, after, ran⟩
    cases found : history.state.arena.reference kind id with
    | error failure =>
        rw [found] at asks
        cases asks.symm.trans ran
    | ok reference =>
        exact follows.meets.onlyRecorded id _ (Arena.reference_eq_ok_iff.mp found) rfl
  · intro isRegistered
    obtain ⟨handle, isMet⟩ := follows.meets.present kind id isRegistered
    rw [Arena.reference_eq_ok_iff.mpr isMet] at asks
    exact ⟨handle, _, asks⟩

theorem exists_failure_iff (follows : history.state.arena.Follows history.events) :
    (∃ failure, history.state.arena.checkReferences = .error failure) ↔ ∃ key, history.Lacks key := by
  rcases history.state.arena.checkReferences_cases with
    ⟨nothing, passes⟩ | ⟨key, isMissing, fails, -⟩
  · refine iff_of_false ?_ ?_
    · rintro ⟨failure, fails⟩
      exact nomatch passes.symm.trans fails
    · rintro ⟨key, isLacking⟩
      have isMissing := (mem_missing_iff follows).mpr isLacking
      rw [nothing] at isMissing
      cases isMissing
  · exact iff_of_true ⟨_, fails⟩ ⟨key, (mem_missing_iff follows).mp isMissing⟩

/-- A look-up that was refused asked for an id that is known, under whatever kind. So its id is lacking
too, if no record of it has come. -/
theorem exists_lacks_iff (follows : history.state.arena.Follows history.events) :
    (∃ key, history.Lacks key) ↔
      ∃ kind id expected result, (.lookUp kind id expected, result) ∈ history.events ∧
        ∀ other, ⟨other, id⟩ ∉ history.events.filterMap registered? := by
  constructor
  · rintro ⟨key, isLookedUp, noRecord⟩
    obtain ⟨⟨call, result⟩, isEvent, isKey⟩ := List.mem_filterMap.mp isLookedUp
    cases call with
    | lookUp kind id expected =>
        cases result with
        | ok found =>
            cases isKey
            exact ⟨kind, id, expected, .ok found, isEvent, noRecord⟩
        | error failure => cases isKey
    | _ => cases isKey
  · rintro ⟨kind, id, expected, result, isEvent, noRecord⟩
    obtain ⟨entry, found⟩ := follows.asked kind id expected result isEvent
    have notRecorded : entry.hasRecord = false := Bool.eq_false_iff.mpr fun hasRecord =>
      noRecord _ (follows.meets.onlyRecorded id entry found hasRecord)
    exact ⟨⟨entry.kind, id⟩, follows.meets.onlyAsked id entry found notRecorded, noRecord⟩

variable (registry) in
/-- What is seen of an arena on which calls have been made. -/
structure Lawful (history : CallHistory) : Prop where
  /-- References that were returned share their slot exactly if they are to the same id. -/
  shared : ∀ call handle other otherHandle, (call, .ok (some handle)) ∈ history.events →
    (other, .ok (some otherHandle)) ∈ history.events →
    (handle.sharesSlot otherHandle = true ↔ call.id = other.id)
  /-- A reference that was returned is to the slot of an id of the kind that was asked for. -/
  returned : ∀ call handle, (call, .ok (some handle)) ∈ history.events →
    history.state.arena.Knows call.kind call.id handle
  /-- Whatever calls come next, kinds and references stay, and so do records and bindings. -/
  advances : ∀ calls,
    history.state.arena.Advances (history.extendAll registry calls).state.arena
  /-- A call that fails leaves all slots as they are, and what is known of their ids. -/
  unchanged : ∀ call failure after,
    Pass.perform registry call history.state = (.error failure, after) →
      after.arena.entries = history.state.arena.entries ∧
      after.arena.heap.slots = history.state.arena.heap.slots
  /-- There is a reference to exactly what has been registered under the kind. -/
  refers : ∀ kind id, (∃ handle after,
      Pass.perform registry (.reference kind id) history.state = (.ok (some handle), after)) ↔
    ⟨kind, id⟩ ∈ history.events.filterMap registered?
  /-- The slot of an id is bound exactly if an object of it has been built. -/
  bound : ∀ kind id, history.state.arena.IsBound kind id ↔
    ⟨kind, id⟩ ∈ history.events.filterMap built?
  /-- The check fails exactly if an id has been looked up, with success or not, and no record of it has
  come. -/
  fails : (∃ failure, history.state.arena.checkReferences = .error failure) ↔
    ∃ kind id expected result, (.lookUp kind id expected, result) ∈ history.events ∧
      ∀ other, ⟨other, id⟩ ∉ history.events.filterMap registered?
  /-- It names the first of them. -/
  named : ∀ failure, history.state.arena.checkReferences = .error failure →
    ∃ key, failure = .noSuchObject key.kind key.id ∧ history.Lacks key ∧
      ∀ other, history.Lacks other → other = key ∨ key.before other = true

theorem lawful_of_follows (follows : history.state.arena.Follows history.events) :
    history.Lawful registry where
  shared := by
    intro call handle other otherHandle isFirst isSecond
    obtain ⟨_, found⟩ := follows.returned call handle isFirst
    obtain ⟨_, otherFound⟩ := follows.returned other otherHandle isSecond
    rw [Handle.sharesSlot, beq_iff_eq]
    constructor
    · exact follows.apart.distinct _ _ _ _ found otherFound
    · intro same
      rw [same, otherFound] at found
      exact congrArg Handle.slot (ArenaEntry.mk.inj (Option.some.inj found)).2.1.symm
  returned := follows.returned
  advances := fun calls => advances_extendAll registry calls history
  unchanged := by
    intro call failure after ran
    obtain ⟨_, _, isRun, steps⟩ := Pass.perform_steps registry call history.state
    cases ran.symm.trans isRun
    cases steps with
    | refuses _ sameEntries sameSlots => exact ⟨sameEntries, sameSlots⟩
  refers := exists_reference_iff registry follows
  bound := fun kind id => (follows.bound kind id).symm
  fails := (exists_failure_iff follows).trans (exists_lacks_iff follows)
  named := by
    intro failure fails
    rcases history.state.arena.checkReferences_cases with
      ⟨-, passes⟩ | ⟨key, isMissing, isFailure, isFirst⟩
    · exact nomatch passes.symm.trans fails
    · refine ⟨key, Except.error.inj (fails.symm.trans isFailure),
        (mem_missing_iff follows).mp isMissing, fun other isLacking => ?_⟩
      exact isFirst other ((mem_missing_iff follows).mpr isLacking)

/-- Whatever calls are made on a pass that begins, in whatever order, and whichever of them fail. -/
theorem lawful_extendAll (registry : Registry) (heap : Heap) (calls : List ArenaCall) :
    ((start heap).extendAll registry calls).Lawful registry :=
  lawful_of_follows (follows_extendAll calls (start heap) (Arena.follows_start heap))

section Sample

private def oneType : Registry := Registry.empty.register .entity "App" .basic

/-- An entity is referred to, loaded and built, and looked up as a location in between. Two more ids are
looked up. -/
private def mixedCalls : List ArenaCall :=
  [.lookUp .entity "a" (some "App"), .reference .entity "a", .register .entity "a" "App",
    .lookUp .location "gone" none, .lookUp .location "a" none, .lookUp .entity "lost" none,
    .build .entity "a" "App", .build .entity "a" "App", .reference .entity "a"]

/-- The entity is bound, and of the two ids without records that of an entity comes first. -/
theorem lawful_extendAll_mixed :
    ((start default).extendAll oneType mixedCalls).state.arena.IsBound .entity "a" ∧
    ((start default).extendAll oneType mixedCalls).state.arena.checkReferences =
      .error (.noSuchObject .entity "lost") ∧
    ((start default).extendAll oneType mixedCalls).Lacks ⟨.entity, "lost"⟩ := by
  have lawful := lawful_extendAll oneType default mixedCalls
  have fails : ((start default).extendAll oneType mixedCalls).state.arena.checkReferences =
      .error (.noSuchObject .entity "lost") := by rfl
  refine ⟨(lawful.bound .entity "a").mpr (by decide +kernel), fails, ?_⟩
  obtain ⟨⟨kind, id⟩, isNamed, lacks, -⟩ := lawful.named _ fails
  cases isNamed
  exact lacks

end Sample

end CallHistory

end GraphCheckpoint
