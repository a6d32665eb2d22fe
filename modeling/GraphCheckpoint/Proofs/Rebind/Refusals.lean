import GraphCheckpoint.Proofs.Rebind.Log

/-!
Contract: which calls of a pass are refused, and for what reasons.

Owns:
- `Arena.Lent`, what can become of an arena while a store loads, whatever the store is;
- `Registry.KeepsIds`, factories that make objects under the ids that they are asked for;
- `ArenaEvent.Expected`, what a registration or a building returns in a pass;
- that all calls of a pass return what is expected, whatever graph has been loaded, and how a pass ends
  whose graph has an id of two kinds.

Does not own: what a manager makes of a pass.

That a record comes twice, that a slot is bound already and that an id has no reference when its object
has been made are checked for in vain: the keys of a graph are distinct, what is registered under two
kinds is refused, and nothing is built before all is registered.
-/

namespace GraphCheckpoint

open ArenaEvent

variable {registry : Registry} {strictness : TypeResolution} {graph : Graph LiveValue}
  {kind : ObjectKind} {id typeName : String} {events looked : List ArenaEvent}

/-! ## Loading -/

/-- What was bound is bound as it was, and what was not bound is not. -/
def Slots.PersistIn (before after : Slots) : Prop :=
  ∀ slot, slot < before.bindings.size → after.bindings[slot]? = before.bindings[slot]?

/-- What can become of the arena of a rebind while a store loads: ids are looked up, in any order, and
what goes on elsewhere in the heap leaves the slots alone that there are. A look-up that fails leaves
the arena as it was. -/
inductive Arena.Lent : Arena → Prop
  | start (heap : Heap) : Lent (.start heap)
  | lookUp {arena after : Arena} {kind : ObjectKind} {id : String} {expected : Option String}
      {handle : Handle} (lent : Lent arena)
      (ran : (Arena.resolver kind id expected).run arena = .ok (handle, after)) : Lent after
  | elsewhere {arena : Arena} {heap : Heap} (lent : Lent arena)
      (persist : arena.heap.slots.PersistIn heap.slots) : Lent { arena with heap := heap }

namespace Arena

variable {arena after : Arena}

theorem Follows.with_heap (follows : arena.Follows events) {heap : Heap}
    (persist : arena.heap.slots.PersistIn heap.slots) :
    Follows events { arena with heap := heap } := by
  have sameTarget : ∀ kind id handle, arena.Knows kind id handle →
      heap.target? handle = arena.heap.target? handle := by
    rintro kind id handle ⟨hasRecord, found⟩
    rw [Heap.target?, Slots.target?, persist _ (follows.inRange id _ found)]
    rfl
  refine {
    apart := follows.apart
    inRange := fun id entry found => ?_
    meets := follows.meets.of_entries rfl
    bound := fun kind id => (follows.bound kind id).trans (exists_congr fun handle =>
      exists_congr fun address => and_congr_right fun known => ?_)
    returned := follows.returned
    asked := follows.asked }
  · have isThere := follows.inRange id entry found
    have persists := persist _ isThere
    rw [Array.getElem?_eq_getElem isThere] at persists
    exact (Array.getElem?_eq_some_iff.mp persists).1
  · rw [← sameTarget kind id handle known]

/-- Nothing has been registered or built in an arena that a store has had. -/
theorem Lent.follows (lent : arena.Lent) : ∃ looked : List ArenaEvent,
    looked.filterMap registered? = [] ∧ looked.filterMap built? = [] ∧ arena.Follows looked := by
  induction lent with
  | start heap => exact ⟨[], rfl, rfl, follows_start heap⟩
  | @lookUp arena after kind id expected handle _ ran inductionHypothesis =>
      obtain ⟨looked, noRecord, noObject, follows⟩ := inductionHypothesis
      have resolved := arena.resolves kind id expected
      rw [ran] at resolved
      refine ⟨_, ?_, ?_, follows.step resolved.steps⟩
      · rw [List.filterMap_append, noRecord]
        rfl
      · rw [List.filterMap_append, noObject]
        rfl
  | elsewhere _ persist inductionHypothesis =>
      obtain ⟨looked, noRecord, noObject, follows⟩ := inductionHypothesis
      exact ⟨looked, noRecord, noObject, follows.with_heap persist⟩

end Arena

/-! ## What calls return -/

/-- Objects come under the ids that are asked for. -/
def Registry.KeepsIds (registry : Registry) : Prop :=
  ∀ kind typeName factory, (registry.factories kind).get? typeName = some factory →
    ∀ id, (factory.make kind typeName id).id = id

/-- It is enough to look at the factories that there are. -/
theorem Registry.keepsIds_of_entries
    (each : ∀ kind ∈ ObjectKind.all, ∀ entry ∈ registry.factories kind, entry.2.fixedId = none) :
    registry.KeepsIds := by
  intro kind typeName factory found id
  have isFree := each kind kind.mem_all _ (Table.mem_of_get? found)
  change factory.fixedId.getD id = id
  rw [isFree]
  rfl

/-- What a registration or a building returns in a pass. A registration is refused only for an id that
is of another kind, and a building only for a type that is not registered. -/
inductive ArenaEvent.Expected (registry : Registry) : ArenaEvent → Prop
  | registered {kind : ObjectKind} {id typeName : String} :
      Expected registry (.register kind id typeName, .ok none)
  | clashes {kind other : ObjectKind} {id typeName : String} (differs : other ≠ kind) :
      Expected registry (.register kind id typeName, .error (.kindClash id other kind))
  | built {kind : ObjectKind} {id typeName : String} :
      Expected registry (.build kind id typeName, .ok none)
  | unknown {kind : ObjectKind} {id typeName : String}
      (isUnknown : registry.contains kind typeName = false) :
      Expected registry (.build kind id typeName, .error (.typeNotFound typeName))

/-- The log tells of these calls, which have returned what is expected. -/
structure Tells (registry : Registry) (calls : List ArenaCall) (events : List ArenaEvent) : Prop where
  calls : events.map Prod.fst = calls
  expected : ∀ event ∈ events, event.Expected registry

theorem Tells.concat {calls : List ArenaCall} {call : ArenaCall} {result : Outcome (Option Handle)}
    (tells : Tells registry calls events) (expected : Expected registry (call, result)) :
    Tells registry (calls ++ [call]) (events ++ [(call, result)]) where
  calls := by rw [List.map_append, tells.calls, List.map_singleton]
  expected := by
    intro event member
    rcases List.mem_append.mp member with old | isLast
    · exact tells.expected event old
    · rw [List.mem_singleton.mp isLast]
      exact expected

namespace ArenaEvent

/-- Only a registration has registered anything. -/
theorem key_of_registered? {event : ArenaEvent} {key : ObjectKey}
    (isRegistered : event.registered? = some key) :
    ∃ typeName, event.1 = .register key.kind key.id typeName := by
  obtain ⟨call, result⟩ := event
  cases result with
  | error failure => simp at isRegistered
  | ok found =>
      cases call with
      | register kind id typeName =>
          cases isRegistered
          exact ⟨typeName, rfl⟩
      | _ => cases isRegistered

/-- Only a building has built anything. -/
theorem key_of_built? {event : ArenaEvent} {key : ObjectKey} (isBuilt : event.built? = some key) :
    ∃ typeName, event.1 = .build key.kind key.id typeName := by
  obtain ⟨call, result⟩ := event
  cases result with
  | error failure => simp at isBuilt
  | ok found =>
      cases call with
      | build kind id typeName =>
          cases isBuilt
          exact ⟨typeName, rfl⟩
      | _ => cases isBuilt

/-- What has been registered or built is what one of the calls was for. -/
theorem exists_call {select : ArenaEvent → Option ObjectKey}
    {make : ObjectKind → String → String → ArenaCall}
    (isMade : ∀ {event key}, select event = some key →
      ∃ typeName, event.1 = make key.kind key.id typeName)
    {key : ObjectKey} (isSelected : key ∈ events.filterMap select) :
    ∃ typeName, make key.kind key.id typeName ∈ events.map Prod.fst := by
  obtain ⟨event, isEvent, isKey⟩ := List.mem_filterMap.mp isSelected
  obtain ⟨typeName, isCall⟩ := isMade isKey
  exact ⟨typeName, isCall ▸ List.mem_map_of_mem isEvent⟩

end ArenaEvent

namespace Pass

variable {state : PassState}

/-- A record that has not come before is registered, unless its id is of another kind. -/
theorem register_expected (follows : state.arena.Follows events)
    (isFirst : ⟨kind, id⟩ ∉ events.filterMap registered?) (typeName : String) :
    (∃ other, other ≠ kind ∧
      state.arena.register kind id typeName = .error (.kindClash id other kind)) ∨
    ∃ after, state.arena.register kind id typeName = .ok after ∧
      state.arena.Steps (.register kind id typeName) (.ok none) after ∧
      after.heap.objects = state.arena.heap.objects := by
  have registered := state.arena.registers kind id typeName
  generalize state.arena.register kind id typeName = result at registered ⊢
  cases registered with
  | new isNew => exact Or.inr ⟨_, rfl, .adds isNew, rfl⟩
  | met isMet => exact Or.inr ⟨_, rfl, .records isMet, rfl⟩
  | twice isMet => exact absurd (follows.meets.onlyRecorded id _ isMet rfl) isFirst
  | clash isMet differs => exact Or.inl ⟨_, differs, rfl⟩

/-- An object that is built for a record for the first time gets the slot of its id, unless its type is
not registered. -/
theorem build_expected (keeps : registry.KeepsIds) (follows : state.arena.Follows events)
    (isRegistered : ⟨kind, id⟩ ∈ events.filterMap registered?)
    (isFirst : ⟨kind, id⟩ ∉ events.filterMap built?) (typeName : String) :
    (registry.contains kind typeName = false ∧
      build registry kind id typeName state = (.error (.typeNotFound typeName), state)) ∨
    ∃ address after, build registry kind id typeName state = (.ok address, after) ∧
      state.arena.Steps (.build kind id typeName) (.ok none) after.arena := by
  cases isType : registry.contains kind typeName with
  | false => exact Or.inl ⟨rfl, build_unknown isType⟩
  | true =>
      obtain ⟨factory, isFactory⟩ := Option.isSome_iff_exists.mp isType
      have foundFactory : registry.factory kind typeName = .ok factory := by
        rw [Registry.factory, isFactory]
      obtain ⟨handle, isMet⟩ := follows.meets.present kind id isRegistered
      -- A slot that is bound belongs to an object that has been built before.
      have isUnbound : state.arena.heap.target? handle = none := by
        refine Option.eq_none_iff_forall_ne_some.mpr fun address isTarget => isFirst ?_
        exact (follows.bound kind id).mpr ⟨handle, address, ⟨true, isMet⟩, isTarget⟩
      obtain ⟨made, ran, sameEntries, sameSlots⟩ := build_of_factory foundFactory id state
      have isFree : made.arena.heap.target? handle = none := by
        rw [Heap.target?, sameSlots]
        exact isUnbound
      have binds := Arena.bind_free (Arena.reference_eq_ok_iff.mpr (sameEntries ▸ isMet)) isFree
        ⟨state.arena.heap.objects.size⟩
      have slots := congrArg (fun slots : Slots => (⟨slots.bindings.setIfInBounds handle.slot
        (some ⟨state.arena.heap.objects.size⟩)⟩ : Slots)) sameSlots
      rw [ran, bindMade_run (keeps kind typeName factory isFactory id)]
      exact Or.inr ⟨_, _, (bind_ok ((lift_run _).trans (congrArg (·, made) binds))).trans rfl,
        .binds isMet isUnbound sameEntries slots⟩

end Pass

/-! ## Stages of a pass -/

/-- The log tells of the calls that a pass makes first, as many as it has made. -/
def TellsOf (registry : Registry) (graph : Graph LiveValue) (history : CallHistory) : Prop :=
  ∃ done, done <+: graph.plan ∧ Tells registry done history.events

namespace LoggedPass

variable {α : Type} {history : CallHistory} {objects : Array (Option LiveObject)}
  {done rest : List ArenaCall}

/-- The records of these calls have been registered, one after another, and nothing has been built. -/
structure Registering (looked : List ArenaEvent) (objects : Array (Option LiveObject))
    (done : List ArenaCall) (history : CallHistory) : Prop where
  events : history.events = done.map fun call => (call, .ok none)
  follows : history.state.arena.Follows (looked ++ history.events)
  unbuilt : history.state.arena.heap.objects = objects

/-- A registration has been refused, as an id is of another kind, and nothing has been built. -/
structure Clashed (registry : Registry) (graph : Graph LiveValue) (objects : Array (Option LiveObject))
    (failure : Failure) (history : CallHistory) : Prop where
  clashes : ∃ id existing wanted, existing ≠ wanted ∧ failure = .kindClash id existing wanted
  tells : ∃ done, done <+: graph.calls .register ∧ Tells registry done history.events
  unbuilt : history.state.arena.heap.objects = objects

/-- All records have been registered, and the objects of these calls have been built, except for those
of unknown types. -/
structure Building (registry : Registry) (graph : Graph LiveValue) (looked : List ArenaEvent)
    (done : List ArenaCall) (history : CallHistory) : Prop where
  tells : Tells registry (graph.calls .register ++ done) history.events
  registered : ∀ kind id, graph.Names kind id → ⟨kind, id⟩ ∈ history.events.filterMap registered?
  follows : history.state.arena.Follows (looked ++ history.events)

/-! ## Registration -/

theorem Registering.calls (registering : Registering looked objects done history) :
    history.events.map Prod.fst = done := by
  rw [registering.events, List.map_map]
  exact List.map_id done

theorem Registering.tells (registering : Registering looked objects done history)
    (isPart : done <+: graph.calls .register) : Tells registry done history.events where
  calls := registering.calls
  expected := by
    rw [registering.events]
    intro event isEvent
    obtain ⟨call, isDone, rfl⟩ := List.mem_map.mp isEvent
    obtain ⟨kind, entry, -, rfl⟩ := Graph.mem_calls.mp (isPart.subset isDone)
    exact .registered

/-- What has a record is registered in the end. -/
theorem Registering.registered
    (registering : Registering looked objects (graph.calls .register) history)
    (isNamed : graph.Names kind id) : ⟨kind, id⟩ ∈ history.events.filterMap registered? := by
  obtain ⟨record, found⟩ := Graph.names_iff.mp isNamed
  have isCall : .register kind id record.typeName ∈ graph.calls .register :=
    Graph.mem_calls.mpr ⟨kind, (id, record), Table.mem_of_get? found, rfl⟩
  rw [registering.events]
  exact List.mem_filterMap.mpr ⟨_, List.mem_map_of_mem isCall, rfl⟩

/-- No id of two kinds is registered as both. -/
theorem Registering.oneKind
    (registering : Registering looked objects (graph.calls .register) history) : graph.OneKind := by
  intro one other id isOne isOther
  have entryOf : ∀ kind, graph.Names kind id →
      ∃ handle, history.state.arena.entries.get? id = some ⟨kind, handle, true⟩ := by
    intro kind isNamed
    refine registering.follows.meets.present kind id ?_
    rw [List.filterMap_append]
    exact List.mem_append_right _ (registering.registered isNamed)
  obtain ⟨handle, isMet⟩ := entryOf one isOne
  obtain ⟨again, isMetAgain⟩ := entryOf other isOther
  exact congrArg ArenaEntry.kind (Option.some.inj (isMet.symm.trans isMetAgain))

theorem logging_run {call : ArenaCall} {part : Pass α} {outcome : Outcome α} {after : PassState}
    (ran : part history.state = (outcome, after)) : logging call part history =
      (outcome, ⟨history.events ++ [(call, outcome.map fun _ => none)], after⟩) := by
  have runs : part.run.run history.state = (outcome, after) := ran
  simp only [logging, runs]

theorem silently_run {part : Pass α} {outcome : Outcome α} {after : PassState}
    (ran : part history.state = (outcome, after)) :
    silently part history = (outcome, ⟨history.events, after⟩) := by
  have runs : part.run.run history.state = (outcome, after) := ran
  simp only [silently, runs]

theorem register_run_error {failure : Failure}
    (fails : history.state.arena.register kind id typeName = .error failure) :
    register kind id typeName history = (.error failure,
      ⟨history.events ++ [(.register kind id typeName, .error failure)], history.state⟩) := by
  have refused : (liftM (history.state.arena.register kind id typeName) : Pass Arena) history.state =
      (.error failure, history.state) := (lift_run _).trans (congrArg (·, history.state) fails)
  exact logging_run ((bind_ok rfl).trans (bind_error refused))

theorem register_run_ok {after : Arena}
    (ran : history.state.arena.register kind id typeName = .ok after) :
    register kind id typeName history = (.ok (),
      ⟨history.events ++ [(.register kind id typeName, .ok none)],
        { history.state with arena := after }⟩) := by
  have registered : (liftM (history.state.arena.register kind id typeName) : Pass Arena)
      history.state = (.ok after, history.state) :=
    (lift_run _).trans (congrArg (·, history.state) ran)
  exact logging_run ((bind_ok rfl).trans ((bind_ok registered).trans rfl))

section Loaded

variable (ordered : graph.Ordered) (noRecord : looked.filterMap registered? = [])

include ordered noRecord

/-- The record that is registered next has not been registered. -/
theorem Registering.isFirst
    (isWhole : graph.calls .register = done ++ .register kind id typeName :: rest)
    (registering : Registering looked objects done history) :
    ⟨kind, id⟩ ∉ (looked ++ history.events).filterMap registered? := by
  rw [List.filterMap_append, noRecord]
  intro isRegistered
  obtain ⟨_, isDone⟩ := exists_call key_of_registered? isRegistered
  rw [registering.calls] at isDone
  exact ordered.key_not_mem (fun _ _ _ => rfl) isWhole (List.mem_map.mpr ⟨_, isDone, rfl⟩)

theorem leaves_register
    (isWhole : graph.calls .register = done ++ .register kind id typeName :: rest)
    (registering : Registering looked objects done history) :
    Leaves (register kind id typeName) history (Clashed registry graph objects)
      fun _ after => Registering looked objects (done ++ [.register kind id typeName]) after := by
  have tells : Tells registry done history.events := registering.tells ⟨_, isWhole.symm⟩
  have isFirst := registering.isFirst ordered noRecord isWhole
  rcases Pass.register_expected registering.follows isFirst typeName with
    ⟨other, differs, fails⟩ | ⟨after, ran, steps, sameObjects⟩
  · refine .of_error (register_run_error fails) {
      clashes := ⟨id, other, kind, differs, rfl⟩
      tells := ⟨done ++ [.register kind id typeName], ⟨rest, ?_⟩, tells.concat (.clashes differs)⟩
      unbuilt := registering.unbuilt }
    rw [isWhole, List.append_assoc, List.singleton_append]
  · refine .of_ok (register_run_ok ran) {
      events := ?_
      follows := ?_
      unbuilt := sameObjects.trans registering.unbuilt }
    · rw [registering.events, List.map_append]
      rfl
    · rw [← List.append_assoc]
      exact registering.follows.step steps

/-- By induction on the kinds, and for each of them on its records. -/
theorem leaves_registerAll (atFirst : Registering looked objects [] history) :
    Leaves (registerAll graph) history (Clashed registry graph objects)
      fun _ after => Registering looked objects (graph.calls .register) after := by
  refine leaves_forM ObjectKind.rebindOrder
    (fun kinds => Registering looked objects (kinds.flatMap (graph.callsOf .register)))
    (fun kinds kind others state isKinds held => ?_) atFirst
  refine Leaves.imp (leaves_forM (graph.records kind)
    (fun gone => Registering looked objects (kinds.flatMap (graph.callsOf .register) ++
      gone.map fun entry => .register kind entry.1 entry.2.typeName))
    (fun gone entry left later isRecords laterHeld => ?_) (by simpa using held))
    (fun _ _ clashed => clashed) fun _ after afterHeld => ?_
  · obtain ⟨rest, isWhole⟩ := Graph.calls_of_record .register isKinds isRecords
    rw [List.map_append, ← List.append_assoc]
    exact leaves_register ordered noRecord isWhole laterHeld
  · rw [List.flatMap_append, List.flatMap_singleton]
    exact afterHeld

end Loaded

/-! ## Building -/

theorem Building.start
    (registering : Registering looked objects (graph.calls .register) history) :
    Building registry graph looked [] history where
  tells := by
    rw [List.append_nil]
    exact registering.tells List.prefix_rfl
  registered := fun _ _ => registering.registered
  follows := registering.follows

/-- The log of what has been built is the beginning of that of the whole pass. -/
theorem Building.tellsOf (building : Building registry graph looked done history)
    (isPart : done <+: graph.calls .build) : TellsOf registry graph history :=
  ⟨_, List.prefix_append_right_inj _ |>.mpr isPart, building.tells⟩

/-- One more building has returned what is expected. -/
theorem Building.concat (building : Building registry graph looked done history) {call : ArenaCall}
    {result : Outcome (Option Handle)} (expected : Expected registry (call, result))
    {after : PassState} (steps : history.state.arena.Steps call result after.arena) :
    Building registry graph looked (done ++ [call])
      ⟨history.events ++ [(call, result)], after⟩ where
  tells := by
    rw [← List.append_assoc]
    exact building.tells.concat expected
  registered := by
    intro kind id isNamed
    rw [List.filterMap_append]
    exact List.mem_append_left _ (building.registered kind id isNamed)
  follows := by
    rw [← List.append_assoc]
    exact building.follows.step steps

/-- A failure is passed on, or it is skipped, and the arena is left alone. -/
theorem skip_run (strictness : TypeResolution) (record : ObjectMemento LiveValue) (failure : Failure)
    (state : PassState) : skip strictness record failure state = (.error failure, state) ∨
      ∃ after, skip strictness record failure state = (.ok none, after) ∧
        after.arena = state.arena := by
  rw [skip]
  split
  · exact Or.inr ⟨_, rfl, rfl⟩
  · exact Or.inl rfl

section Loaded

variable (keeps : registry.KeepsIds) (ordered : graph.Ordered)
  (noObject : looked.filterMap built? = [])

include ordered noObject

/-- The object that is built next has not been built. -/
theorem Building.isFirst
    (isWhole : graph.calls .build = done ++ .build kind id typeName :: rest)
    (building : Building registry graph looked done history) :
    ⟨kind, id⟩ ∉ (looked ++ history.events).filterMap built? := by
  rw [List.filterMap_append, noObject]
  intro isBuilt
  obtain ⟨_, isCall⟩ := exists_call key_of_built? isBuilt
  rw [building.tells.calls] at isCall
  rcases List.mem_append.mp isCall with isRegistration | isDone
  · obtain ⟨_, _, _, same⟩ := Graph.mem_calls.mp isRegistration
    cases same
  · exact ordered.key_not_mem (fun _ _ _ => rfl) isWhole (List.mem_map.mpr ⟨_, isDone, rfl⟩)

include keeps

theorem leaves_buildOrSkip {key : String} {record : ObjectMemento LiveValue}
    (isNamed : graph.Names record.kind key)
    (isWhole : graph.calls .build = done ++ .build record.kind key record.typeName :: rest)
    (building : Building registry graph looked done history) :
    Leaves (buildOrSkip registry strictness key record) history
      (fun _ after => TellsOf registry graph after)
      fun _ after => Building registry graph looked
        (done ++ [.build record.kind key record.typeName]) after := by
  have isPart : done ++ [.build record.kind key record.typeName] <+: graph.calls .build :=
    ⟨rest, by rw [isWhole, List.append_assoc, List.singleton_append]⟩
  have isRegistered : ⟨record.kind, key⟩ ∈ (looked ++ history.events).filterMap registered? := by
    rw [List.filterMap_append]
    exact List.mem_append_right _ (building.registered _ _ isNamed)
  have isFirst := building.isFirst ordered noObject isWhole
  rcases Pass.build_expected keeps building.follows isRegistered isFirst record.typeName with
    ⟨isUnknown, fails⟩ | ⟨address, after, ran, steps⟩
  · -- The failure is in the log, whether it ends the pass or becomes a problem.
    have noted : ∀ after : PassState, after.arena = history.state.arena →
        Building registry graph looked (done ++ [.build record.kind key record.typeName])
          ⟨history.events ++ [(.build record.kind key record.typeName,
            .error (.typeNotFound record.typeName))], after⟩ := fun after sameArena =>
      building.concat (.unknown isUnknown) (.refuses nofun (by rw [sameArena]) (by rw [sameArena]))
    have handled : buildOrSkip registry strictness key record history = _ :=
      tryCatch_error (bind_error (logging_run fails))
    rcases skip_run strictness record (.typeNotFound record.typeName) history.state with
      stops | ⟨after, goesOn, sameArena⟩
    · exact .of_error (handled.trans (silently_run stops)) ((noted _ rfl).tellsOf isPart)
    · exact .of_ok (handled.trans (silently_run goesOn)) (noted after sameArena)
  · refine .of_ok (tryCatch_ok ((bind_ok (logging_run ran)).trans rfl)) ?_
    exact building.concat .built steps

/-- By induction on the records of the kind. -/
theorem leaves_buildKind (kinds : List ObjectKind) {others : List ObjectKind}
    (isKinds : ObjectKind.rebindOrder = kinds ++ kind :: others)
    (building : Building registry graph looked (kinds.flatMap (graph.callsOf .build)) history) :
    Leaves (buildKind registry strictness graph kind) history
      (fun _ after => TellsOf registry graph after)
      fun _ after => Building registry graph looked
        ((kinds ++ [kind]).flatMap (graph.callsOf .build)) after := by
  refine Leaves.bind (leaves_mapM (graph.records kind)
    (fun gone _ => Building registry graph looked (kinds.flatMap (graph.callsOf .build) ++
      gone.map fun entry => .build kind entry.1 entry.2.typeName))
    (fun gone _ entry left later isRecords laterHeld => ?_) (by simpa using building))
    fun _ after afterHeld => .of_ok rfl ?_
  · have isRecord : entry ∈ graph.records kind := isRecords ▸ List.mem_append_cons_self
    obtain rfl := Graph.kind_of_mem_records isRecord
    obtain ⟨rest, isWhole⟩ := Graph.calls_of_record .build isKinds isRecords
    have isNamed : graph.Names entry.2.kind entry.1 :=
      Graph.names_iff_mem_keys.mpr (List.mem_map_of_mem isRecord)
    refine (leaves_buildOrSkip keeps ordered noObject isNamed isWhole laterHeld).bind
      fun _ next nextHeld => .of_ok rfl ?_
    rw [List.map_append, ← List.append_assoc]
    exact nextHeld
  · rw [List.flatMap_append, List.flatMap_singleton]
    exact afterHeld

theorem leaves_buildAll (building : Building registry graph looked [] history) :
    Leaves (buildAll registry strictness graph) history
      (fun _ after => TellsOf registry graph after)
      fun _ after => Building registry graph looked (graph.calls .build) after := by
  refine (leaves_buildKind keeps ordered noObject [] rfl building).bind fun _ _ locations => ?_
  refine (leaves_buildKind keeps ordered noObject [.location] rfl locations).bind fun _ _ entities => ?_
  refine (leaves_buildKind keeps ordered noObject [.location, .entity] rfl entities).bind
    fun _ _ policies => ?_
  exact .of_ok rfl policies

/-- Nothing is called before the building begins and after it has ended. -/
theorem leaves_hydrate (building : Building registry graph looked [] history) :
    Leaves (hydrate registry strictness graph) history (fun _ after => TellsOf registry graph after)
      fun _ after => Tells registry graph.plan after.events := by
  have check : Leaves (silently do (← Pass.arena).checkReferences) history
      (fun _ after => TellsOf registry graph after)
      fun _ after => Building registry graph looked [] after := by
    have looks : (do (← Pass.arena).checkReferences : Pass Unit) history.state =
        (history.state.arena.checkReferences, history.state) := (bind_ok rfl).trans (lift_run _)
    rcases checked : history.state.arena.checkReferences with failure | _ <;> rw [checked] at looks
    · exact .of_error (silently_run looks) (building.tellsOf List.nil_prefix)
    · exact .of_ok (silently_run looks) building
  refine check.bind fun _ _ atFirst => ?_
  refine (leaves_buildAll keeps ordered noObject atFirst).bind fun built after whole => ?_
  rcases ran : reconstructAll registry graph built after.state with ⟨failure | outcome, last⟩
  · exact .of_error (silently_run ran) (whole.tellsOf List.prefix_rfl)
  · exact .of_ok (silently_run ran) whole.tells

end Loaded

/-! ## Passes -/

section Passes

variable {pass : PassState} (lent : pass.arena.Lent) (ordered : graph.Ordered)

include lent ordered

/-- Where registration does not fail, no id is of two kinds. -/
theorem registerAll_clashes (registry : Registry) :
    Leaves (registerAll graph) ⟨[], pass⟩ (Clashed registry graph pass.arena.heap.objects)
      fun _ _ => graph.OneKind := by
  obtain ⟨looked, noRecord, -, follows⟩ := lent.follows
  refine Leaves.imp (leaves_registerAll ordered noRecord ⟨rfl, ?_, rfl⟩) (fun _ _ clashed => clashed)
    fun _ _ registering => registering.oneKind
  rw [List.append_nil]
  exact follows

/-- Whatever has been loaded, the calls of a pass return what is expected. -/
theorem rebuild_tells (keeps : registry.KeepsIds) (strictness : TypeResolution) :
    Leaves (rebuild registry strictness graph) ⟨[], pass⟩
      (fun _ after => TellsOf registry graph after)
      fun _ after => Tells registry graph.plan after.events := by
  obtain ⟨looked, noRecord, noObject, follows⟩ := lent.follows
  have atFirst : Registering looked pass.arena.heap.objects [] ⟨[], pass⟩ :=
    ⟨rfl, by rw [List.append_nil]; exact follows, rfl⟩
  refine Leaves.bind (Leaves.imp (leaves_registerAll ordered noRecord atFirst)
    (fun failure after (clashed : Clashed registry graph _ failure after) => ?_)
    fun _ _ registering => Building.start registering) fun _ _ building =>
      leaves_hydrate keeps ordered noObject building
  obtain ⟨done, isPart, tells⟩ := clashed.tells
  exact ⟨done, isPart.trans (List.prefix_append _ _), tells⟩

end Passes

end LoggedPass

end GraphCheckpoint
