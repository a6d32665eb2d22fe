import GraphCheckpoint.Proofs.Rebind.Building

/-!
Contract: single calls on the arena of a rebind.

Owns:
- the calls, with any ids, kinds and types, and how each is made on a pass;
- that a look-up which is checked once its id has an entry is the one that loading makes;
- `Arena.Steps`, what a call does to the arena, by what it returns.

Does not own: what calls come to, one after another.

A call that fails may have done its work in part. It has touched no entry and no slot by then.
-/

namespace GraphCheckpoint

/-- A call on the arena of a pass. -/
inductive ArenaCall where
  /-- The reference to an id, as loading asks for it. -/
  | lookUp (kind : ObjectKind) (id : String) (expected : Option String)
  /-- A record of the id has been loaded. -/
  | register (kind : ObjectKind) (id typeName : String)
  /-- The reference to an object whose record has been loaded. -/
  | reference (kind : ObjectKind) (id : String)
  /-- The object of an id is built. -/
  | build (kind : ObjectKind) (id typeName : String)
deriving DecidableEq, Repr

namespace ArenaCall

def kind : ArenaCall → ObjectKind
  | .lookUp kind _ _ | .register kind _ _ | .reference kind _ | .build kind _ _ => kind

def id : ArenaCall → String
  | .lookUp _ id _ | .register _ id _ | .reference _ id | .build _ id _ => id

end ArenaCall

/-! ## Calls on a pass -/

namespace Pass

/-- The entry of an id. An id that is met for the first time gets one at once. -/
def entry (kind : ObjectKind) (id : String) (expected : Option String) : Pass ArenaEntry := do
  let arena ← arena
  match arena.entries.get? id with
  | some entry => return entry
  | none =>
      let added := arena.add kind id expected false
      setArena added.2
      return ⟨kind, added.1, false⟩

/-- Looks an id up. The checks come when it has its entry, which a failure does not take back. -/
def lookUp (kind : ObjectKind) (id : String) (expected : Option String) : Pass Handle := do
  let entry ← entry kind id expected
  if entry.kind = kind then
    checkDeclaredType kind expected entry.handle
    return entry.handle
  else throw (Failure.kindClash id entry.kind kind)

/-- Makes a call, and gives the reference that it returns if it returns one. -/
def perform (registry : Registry) : ArenaCall → Pass (Option Handle)
  | .lookUp kind id expected => do return some (← lookUp kind id expected)
  | .register kind id typeName => do
      setArena (← (← arena).register kind id typeName)
      return none
  | .reference kind id => do return some (← reference kind id)
  | .build kind id typeName => do
      let _ ← build registry kind id typeName
      return none

variable {state : PassState} {kind : ObjectKind} {id : String} {expected : Option String}

theorem entry_run_new (isNew : state.arena.entries.get? id = none) :
    entry kind id expected state =
      (.ok ⟨kind, (state.arena.add kind id expected false).1, false⟩,
        { state with arena := (state.arena.add kind id expected false).2 }) := by
  rw [entry]
  refine (bind_ok (rfl : Pass.arena state = (.ok state.arena, state))).trans ?_
  simp only [isNew]
  exact bind_ok rfl

theorem entry_run_met {found : ArenaEntry} (isMet : state.arena.entries.get? id = some found) :
    entry kind id expected state = (.ok found, state) := by
  rw [entry]
  refine (bind_ok (rfl : Pass.arena state = (.ok state.arena, state))).trans ?_
  simp only [isMet]
  rfl

/-- No failure comes after an entry has been made, so a look-up is that of loading, and leaves the pass
alone where it fails. -/
theorem lookUp_run (kind : ObjectKind) (id : String) (expected : Option String)
    (state : PassState) : lookUp kind id expected state =
      match (Arena.resolver kind id expected).run state.arena with
      | .ok (handle, arena) => (.ok handle, { state with arena := arena })
      | .error failure => (.error failure, state) := by
  have resolved := state.arena.resolves kind id expected
  generalize (Arena.resolver kind id expected).run state.arena = result at resolved ⊢
  rw [lookUp]
  cases resolved with
  | new isNew =>
      have agrees : checkDeclaredType kind expected (state.arena.add kind id expected false).1 =
          .ok () := by
        cases expected with
        | none => rfl
        | some declared => exact if_pos rfl
      have passes : ∀ next : PassState, (checkDeclaredType kind expected
          (state.arena.add kind id expected false).1 : Pass Unit) next = (.ok (), next) :=
        fun next => (lift_run _).trans (by rw [agrees])
      refine (bind_ok (entry_run_new isNew)).trans ?_
      rw [if_pos rfl]
      exact (bind_ok (passes _)).trans rfl
  | met isMet agrees =>
      refine (bind_ok (entry_run_met isMet)).trans ?_
      rw [if_pos rfl]
      exact (bind_ok ((lift_run _).trans (by rw [agrees]))).trans rfl
  | differs isMet differs =>
      refine (bind_ok (entry_run_met isMet)).trans ?_
      rw [if_pos rfl]
      exact bind_error ((lift_run _).trans (by rw [differs]))
  | clash isMet differs =>
      refine (bind_ok (entry_run_met isMet)).trans ?_
      rw [if_neg differs]
      rfl

end Pass

/-! ## What a call comes to -/

namespace Arena

/-- What a call does to an arena, by what it returns. -/
inductive Steps (before : Arena) : ArenaCall → Outcome (Option Handle) → Arena → Prop
  /-- An id is looked up for the first time. -/
  | meets {kind : ObjectKind} {id : String} {expected : Option String}
      (isNew : before.entries.get? id = none) :
      Steps before (.lookUp kind id expected) (.ok (some (before.add kind id expected false).1))
        (before.add kind id expected false).2
  /-- It is looked up again. -/
  | finds {kind : ObjectKind} {id : String} {expected : Option String} {handle : Handle}
      {hasRecord : Bool} (isMet : before.entries.get? id = some ⟨kind, handle, hasRecord⟩) :
      Steps before (.lookUp kind id expected) (.ok (some handle)) before
  /-- A record comes for an id that has not been looked up. -/
  | adds {kind : ObjectKind} {id typeName : String} (isNew : before.entries.get? id = none) :
      Steps before (.register kind id typeName) (.ok none)
        (before.add kind id (some typeName) true).2
  /-- A record comes for one that has. -/
  | records {kind : ObjectKind} {id typeName : String} {handle : Handle}
      (isMet : before.entries.get? id = some ⟨kind, handle, false⟩) :
      Steps before (.register kind id typeName) (.ok none)
        (before.recordFor id ⟨kind, handle, false⟩)
  /-- The reference to an id with a record is given. -/
  | refers {kind : ObjectKind} {id : String} {handle : Handle}
      (isMet : before.entries.get? id = some ⟨kind, handle, true⟩) :
      Steps before (.reference kind id) (.ok (some handle)) before
  /-- An object is built, and the slot of its id is bound to it. -/
  | binds {kind : ObjectKind} {id typeName : String} {handle : Handle} {address : Address}
      {after : Arena} (isMet : before.entries.get? id = some ⟨kind, handle, true⟩)
      (isUnbound : before.heap.target? handle = none)
      (sameEntries : after.entries = before.entries)
      (slots : after.heap.slots =
        ⟨before.heap.slots.bindings.setIfInBounds handle.slot (some address)⟩) :
      Steps before (.build kind id typeName) (.ok none) after
  /-- The call fails, and no entry and no slot is another. An id whose look-up fails was met before. -/
  | refuses {call : ArenaCall} {failure : Failure} {after : Arena}
      (isMet : ∀ kind id expected, call = .lookUp kind id expected →
        ∃ entry, before.entries.get? id = some entry)
      (sameEntries : after.entries = before.entries)
      (sameSlots : after.heap.slots = before.heap.slots) :
      Steps before call (.error failure) after

variable {arena after : Arena} {kind : ObjectKind} {id typeName : String} {expected : Option String}
  {handle : Handle} {failure : Failure}

theorem Resolves.steps (resolved : arena.Resolves kind id expected (.ok (handle, after))) :
    arena.Steps (.lookUp kind id expected) (.ok (some handle)) after := by
  cases resolved with
  | new isNew => exact .meets isNew
  | met isMet => exact .finds isMet

theorem Resolves.steps_error (resolved : arena.Resolves kind id expected (.error failure)) :
    arena.Steps (.lookUp kind id expected) (.error failure) arena := by
  have isMet : ∃ entry, arena.entries.get? id = some entry := by
    cases resolved with
    | differs isMet => exact ⟨_, isMet⟩
    | clash isMet => exact ⟨_, isMet⟩
  refine .refuses (fun _ _ _ same => ?_) rfl rfl
  cases same
  exact isMet

theorem Registers.steps (registered : arena.Registers kind id typeName (.ok after)) :
    arena.Steps (.register kind id typeName) (.ok none) after := by
  cases registered with
  | new isNew => exact .adds isNew
  | met isMet => exact .records isMet

end Arena

namespace Pass

/-- What is left to do once an object has been made for an id: its own id is checked, and the slot is
bound to it. -/
def bindMade (kind : ObjectKind) (id : String) (object : LiveObject) (address : Address) :
    Pass Address := do
  Registry.checkId kind id object
  setArena (← (← Pass.arena).bind kind id address)
  return address

variable {registry : Registry} {factory : Factory} {state : PassState} {kind : ObjectKind}
  {id typeName : String} {object : LiveObject}

/-- The object is in the heap, and may be remembered, by the time at which anything else can fail. -/
theorem build_of_factory (isFactory : registry.factory kind typeName = .ok factory)
    (id : String) (state : PassState) :
    ∃ made, build registry kind id typeName state =
        bindMade kind id (factory.make kind typeName id) ⟨state.arena.heap.objects.size⟩ made ∧
      made.arena.entries = state.arena.entries ∧
      made.arena.heap.slots = state.arena.heap.slots := by
  let created : Arena :=
    { state.arena with heap := (state.arena.heap.create (factory.make kind typeName id)).2 }
  let remembered := if factory.remembers then
    state.remembered ++ [(⟨kind, id⟩, ⟨state.arena.heap.objects.size⟩)] else state.remembered
  refine ⟨{ state with arena := created, remembered := remembered }, ?_, rfl, rfl⟩
  rw [build]
  refine (bind_ok ((lift_run _).trans (by rw [isFactory]))).trans ?_
  refine (bind_ok (rfl : Pass.arena state = (.ok state.arena, state))).trans ?_
  refine (bind_ok (rfl : setArena created state = (.ok (), _))).trans ?_
  simp only [remembered]
  cases factory.remembers with
  | true => exact bind_ok rfl
  | false => rfl

theorem bindMade_run (hasId : object.id = id) (address : Address) :
    bindMade kind id object address state = (do
      setArena (← state.arena.bind kind id address)
      return address : Pass Address) state :=
  (bind_ok ((lift_run _).trans (by rw [Registry.checkId, if_pos hasId]))).trans (bind_ok rfl)

/-- An object that has been made gets the slot of a registered id, if the slot is free, and nothing
happens else. -/
private theorem bindMade_cases (kind : ObjectKind) (id : String) (object : LiveObject)
    (address : Address) (state : PassState) :
    (∃ failure, bindMade kind id object address state = (.error failure, state)) ∨
    ∃ handle, state.arena.entries.get? id = some ⟨kind, handle, true⟩ ∧
      state.arena.heap.target? handle = none ∧
      bindMade kind id object address state = (.ok address, { state with
        arena := { state.arena with
          heap := { state.arena.heap with
            slots := ⟨state.arena.heap.slots.bindings.setIfInBounds handle.slot
              (some address)⟩ } } }) := by
  by_cases hasId : object.id = id
  · rw [bindMade_run hasId]
    rcases state.arena.bind_cases kind id address with fails | ⟨_, fails⟩ |
      ⟨handle, isMet, isUnbound, binds⟩
    · exact Or.inl ⟨_, bind_error ((lift_run _).trans (by rw [fails]))⟩
    · exact Or.inl ⟨_, bind_error ((lift_run _).trans (by rw [fails]))⟩
    · refine Or.inr ⟨handle, isMet, isUnbound, ?_⟩
      exact (bind_ok ((lift_run _).trans (by rw [binds]))).trans rfl
  · exact Or.inl ⟨_, bind_error ((lift_run _).trans (by rw [Registry.checkId, if_neg hasId]))⟩

/-- Whatever a factory makes, building binds one free slot of a registered id, or it fails and leaves
all slots as they were. -/
theorem build_cases (registry : Registry) (kind : ObjectKind) (id typeName : String)
    (state : PassState) :
    (∃ failure next, build registry kind id typeName state = (.error failure, next) ∧
      next.arena.entries = state.arena.entries ∧
      next.arena.heap.slots = state.arena.heap.slots) ∨
    ∃ address handle next, build registry kind id typeName state = (.ok address, next) ∧
      state.arena.entries.get? id = some ⟨kind, handle, true⟩ ∧
      state.arena.heap.target? handle = none ∧
      next.arena.entries = state.arena.entries ∧
      next.arena.heap.slots =
        ⟨state.arena.heap.slots.bindings.setIfInBounds handle.slot (some address)⟩ := by
  cases isFactory : registry.factory kind typeName with
  | error failure =>
      refine Or.inl ⟨failure, state, ?_, rfl, rfl⟩
      exact bind_error ((lift_run _).trans (by rw [isFactory]))
  | ok factory =>
      obtain ⟨made, ran, sameEntries, sameSlots⟩ := build_of_factory isFactory id state
      simp only [ran, ← sameEntries, Heap.target?, ← sameSlots]
      rcases bindMade_cases kind id (factory.make kind typeName id)
          ⟨state.arena.heap.objects.size⟩ made with ⟨failure, ended⟩ |
        ⟨handle, isMet, isUnbound, ended⟩
      · exact Or.inl ⟨failure, made, ended, rfl, rfl⟩
      · exact Or.inr ⟨_, handle, _, ended, isMet, isUnbound, rfl, rfl⟩

theorem perform_reference (registry : Registry) (kind : ObjectKind) (id : String)
    (state : PassState) : perform registry (.reference kind id) state =
      ((state.arena.reference kind id).map some, state) := by
  have ran := reference_eq kind id state
  cases isReference : state.arena.reference kind id with
  | error failure =>
      rw [isReference] at ran
      exact bind_error ran
  | ok handle =>
      rw [isReference] at ran
      exact (bind_ok ran).trans rfl

/-- Every call is a step of the arena. -/
theorem perform_steps (registry : Registry) (call : ArenaCall) (state : PassState) :
    ∃ result next, perform registry call state = (result, next) ∧
      state.arena.Steps call result next.arena := by
  cases call with
  | lookUp kind id expected =>
      have ran := lookUp_run kind id expected state
      have resolved := state.arena.resolves kind id expected
      cases isResolved : (Arena.resolver kind id expected).run state.arena with
      | error failure =>
          rw [isResolved] at ran resolved
          exact ⟨_, _, bind_error ran, resolved.steps_error⟩
      | ok found =>
          rw [isResolved] at ran resolved
          exact ⟨_, _, (bind_ok ran).trans rfl, resolved.steps⟩
  | register kind id typeName =>
      have registered := state.arena.registers kind id typeName
      have ran : perform registry (.register kind id typeName) state = (do
          setArena (← state.arena.register kind id typeName)
          return none : Pass (Option Handle)) state := bind_ok rfl
      rw [ran]
      cases isRegistered : state.arena.register kind id typeName with
      | error failure => exact ⟨_, _, bind_error (lift_run _), .refuses nofun rfl rfl⟩
      | ok after =>
          rw [isRegistered] at registered
          exact ⟨_, _, (bind_ok (lift_run _)).trans rfl, registered.steps⟩
  | reference kind id =>
      have ran := perform_reference registry kind id state
      cases isReference : state.arena.reference kind id with
      | error failure =>
          rw [isReference] at ran
          exact ⟨_, _, ran, .refuses nofun rfl rfl⟩
      | ok handle =>
          rw [isReference] at ran
          exact ⟨_, _, ran, .refers (Arena.reference_eq_ok_iff.mp isReference)⟩
  | build kind id typeName =>
      rcases build_cases registry kind id typeName state with
        ⟨failure, next, ran, sameEntries, sameSlots⟩ |
          ⟨address, handle, next, ran, isMet, isUnbound, sameEntries, slots⟩
      · exact ⟨_, _, bind_error ran, .refuses nofun sameEntries sameSlots⟩
      · exact ⟨_, _, (bind_ok ran).trans rfl, .binds isMet isUnbound sameEntries slots⟩

end Pass

end GraphCheckpoint
