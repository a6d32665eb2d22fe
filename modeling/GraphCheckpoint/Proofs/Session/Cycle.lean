import GraphCheckpoint.Proofs.Session.Steps

/-!
Contract: a cycle that a session runs while no other is under way.

Owns:
- `Session.takenDelta?`, the delta that the next cycle hands to the store;
- what a write leaves alone in a session, and what stores that record have of it;
- that a cycle of an active manager that succeeds has handed over that delta and leaves nothing
  noted, and that one of an inactive manager leaves everything as it is.

Does not own: what other stores do with a delta.
-/

namespace GraphCheckpoint

namespace Session

open GraphCheckpoint.Store

variable {session after : Session} {index : Nat} {names : Table Address} {heap : Heap}
variable {window : Window} {manager : Manager} {service : Service}

/-- The delta that the next cycle of the manager in use hands to its store. -/
def takenDelta? (session : Session) : Option (Delta LiveValue) := do
  let manager ← session.managers[← session.manager]?
  match (manager.persister.beginCycle session.heap).1 with
  | .write _ delta => some delta
  | _ => none

/-! ## Writes -/

/-- The deltas that a store has recorded, oldest first. -/
def recorded (store : RecordingStore) : List (Delta LiveValue) :=
  store.deltas.map RecordedDelta.delta

/-- Every store that records has taken the deltas that were handed to it, and reacts as before. -/
def Took (store : Option StoreRef) (deltas : List (Delta LiveValue))
    (before after : Array AnyStore) : Prop :=
  ∀ (index : Nat) recording, after[index]? = some (.recording recording) →
    ∃ old, before[index]? = some (.recording old) ∧ recording.reactions = old.reactions ∧
      recorded recording = recorded old ++ if store = some ⟨index⟩ then deltas else []

theorem took_nothing (store : Option StoreRef) (stores : Array AnyStore) :
    Took store [] stores stores := by
  intro index recording isRecording
  refine ⟨recording, isRecording, rfl, ?_⟩
  rw [ite_self, List.append_nil]

theorem Took.quiet {store : Option StoreRef} {deltas : List (Delta LiveValue)}
    {before after : Array AnyStore} (took : Took store deltas before after)
    (quiet : Quiet before) : Quiet after := by
  intro index recording isRecording
  obtain ⟨old, isOld, sameReactions, -⟩ := took index recording isRecording
  exact sameReactions.trans (quiet index old isOld)

/-- What a write leaves alone, and what it leaves of the stores. -/
structure Wrote (which : StoreRef) (delta : Delta LiveValue) (result : Outcome Unit)
    (before after : Session) : Prop where
  others : after = { before with stores := after.stores, disk := after.disk }
  took : result = .ok () → Took (some which) [delta] before.stores after.stores

/-- Another store in the place of one has taken a delta if, where it records, it has the delta. -/
theorem took_setStore {which : StoreRef} {delta : Delta LiveValue} {stores : Array AnyStore}
    {store : AnyStore}
    (takes : ∀ recording, store = .recording recording →
      ∃ old, stores[which.index]? = some (.recording old) ∧ recording.reactions = old.reactions ∧
        recorded recording = recorded old ++ [delta]) :
    Took (some which) [delta] stores (stores.setIfInBounds which.index store) := by
  intro index recording isRecording
  rw [Array.getElem?_setIfInBounds] at isRecording
  split at isRecording
  · rename_i isIndex
    subst isIndex
    split at isRecording
    · obtain ⟨old, isOld, sameReactions, more⟩ := takes recording (Option.some.inj isRecording)
      refine ⟨old, isOld, sameReactions, ?_⟩
      rw [if_pos rfl]
      exact more
    · cases isRecording
  · rename_i differs
    refine ⟨recording, isRecording, rfl, ?_⟩
    rw [if_neg fun same => differs (congrArg StoreRef.index (Option.some.inj same)),
      List.append_nil]

theorem deltaStore_run {which : StoreRef} {store : AnyStore} (delta : Delta LiveValue)
    (isStore : session.stores[which.index]? = some store) :
    deltaStore which delta session =
      (match store with
        | .memory store => keepStore which .memory (store.delta session.heap.cells delta)
        | .file store => onFile which store (FileStore.delta session.heap.cells stamp delta)
        | .recording store => do
            react store.reactions
            keepStore which .recording (store.delta (← heapOf) delta)) session :=
  (bind_ok heapOf_run).trans (bind_ok (storeAt_run isStore))

private theorem wrote_keepStore {S : Type} {which : StoreRef} {delta : Delta LiveValue}
    {wrap : S → AnyStore} {outcome : Outcome S} {written : Outcome Unit}
    (takes : ∀ store recording, outcome = .ok store → wrap store = .recording recording →
      ∃ old, session.stores[which.index]? = some (.recording old) ∧
        recording.reactions = old.reactions ∧ recorded recording = recorded old ++ [delta])
    (ran : keepStore which wrap outcome session = (.ok written, after)) :
    Wrote which delta written session after := by
  cases outcome with
  | ok store =>
      cases ran
      exact ⟨rfl, fun _ => took_setStore fun recording => takes store recording rfl⟩
  | error failure =>
      cases ran
      exact ⟨rfl, nofun⟩

/-- A store that does not react leaves everything but the stores and the disk alone, and has the
delta if it records. -/
theorem wrote_deltaStore {which : StoreRef} {delta : Delta LiveValue} {written : Outcome Unit}
    (quiet : Quiet session.stores)
    (ran : deltaStore which delta session = (.ok written, after)) :
    Wrote which delta written session after := by
  cases isStore : session.stores[which.index]? with
  | none =>
      have gone : storeAt which session = (.error (.misuse "a store that is gone"), session) := by
        refine (bind_ok get_run).trans ?_
        rw [isStore]
        rfl
      have refused : deltaStore which delta session = (.error (.misuse "a store that is gone"), session) :=
        (bind_ok heapOf_run).trans (bind_error gone)
      rw [refused] at ran
      cases ran
  | some store =>
      have started := deltaStore_run delta isStore
      rw [ran] at started
      cases store with
      | memory store =>
          have kept : keepStore which .memory (store.delta session.heap.cells delta) session =
              (.ok written, after) := started.symm
          exact wrote_keepStore (fun _ _ _ isRecording => by cases isRecording) kept
      | file store =>
          cases started
          exact ⟨rfl, fun _ => took_setStore nofun⟩
      | recording store =>
          have noReaction := quiet which.index store isStore
          have kept : keepStore which .recording (store.delta session.heap delta) session =
              (.ok written, after) := by
            refine Eq.trans ?_ started.symm
            change _ = (react store.reactions >>= _) session
            rw [noReaction]
            rfl
          refine wrote_keepStore (fun stored recording isStored isRecording => ?_) kept
          cases isRecording
          rw [RecordingStore.delta, noReaction] at isStored
          cases isStored
          exact ⟨store, isStore, noReaction.symm, List.map_append⟩

/-! ## Cycles -/

theorem mapSchedule_run {session : Session} (inUse : session.manager = some index)
    (change : Heap → Schedule → Schedule) :
    mapSchedule change session =
      (.ok (), session.modifyManager index (Manager.mapSchedule (change session.heap))) :=
  (bind_ok heapOf_run).trans (mapManager_run inUse _)

/-- The manager runs and has a store. -/
def Service.isActive (service : Service) : Bool := service.running && service.store.isSome

section Attending

variable (attending : Attending service window manager)

include attending

theorem Attending.isActive_eq : manager.persister.isActive = service.isActive := by
  rw [Persister.isActive, attending.running, attending.listener, attending.store, Service.isActive]
  simp

/-- An active manager whose turn is free. -/
theorem Attending.free (isActive : service.isActive = true) :
    ∃ which, service.store = some which ∧ manager.schedule.Free which window := by
  obtain ⟨isRunning, hasStore⟩ := Bool.and_eq_true_iff.mp isActive
  obtain ⟨which, isStore⟩ := Option.isSome_iff_exists.mp hasStore
  exact ⟨which, isStore, ⟨attending.running.trans isRunning, attending.listener,
    attending.store.trans isStore⟩, attending.idle, attending.alone⟩

end Attending

/-- A manager that is active with its turn free takes reports. -/
theorem attending_of_free {which : StoreRef} (enabled : manager.config.persistenceEnabled = true)
    (isActive : service.isActive = true) (isStore : service.store = some which)
    (free : manager.schedule.Free which window) : Attending service window manager where
  enabled := enabled
  running := free.takes.running.trans (Bool.and_eq_true_iff.mp isActive).1.symm
  store := free.takes.store.trans isStore.symm
  listener := free.takes.listener
  idle := free.idle
  alone := free.alone

theorem Standing.takenDelta?_eq (standing : session.Standing index service names heap window) :
    takenDelta? session =
      if service.isActive && !window.isEmpty then some (window.toDelta heap).1 else none := by
  obtain rfl := standing.heap
  obtain ⟨manager, isManager, attending⟩ := standing.manager
  have found : takenDelta? session =
      match (manager.persister.beginCycle session.heap).1 with
      | .write _ delta => some delta
      | _ => none := by
    rw [takenDelta?, standing.inUse]
    change (session.managers[index]? >>= _) = _
    rw [isManager]
    rfl
  rw [found]
  cases isActive : service.isActive with
  | false =>
      rw [Persister.beginCycle_of_inactive (attending.isActive_eq.trans isActive)]
      rfl
  | true =>
      obtain ⟨which, -, free⟩ := attending.free isActive
      cases nothing : window.isEmpty with
      | true =>
          have isEmpty := Window.eq_empty nothing
          subst isEmpty
          rw [Manager.persister, free.takes.beginCycle_of_empty]
          rfl
      | false =>
          obtain ⟨taken, begins, -⟩ := free.takes.beginCycle_of_noted nothing session.heap
          rw [Manager.persister, begins]
          rfl

/-- The end of the write that has been begun: the turn is free again, and the cycle has the result of
the write. -/
theorem finishWrite_run {which : StoreRef} {pending : PendingWrite} (written : Outcome Unit)
    (inUse : session.manager = some index)
    (isManager : session.managers[index]? = some manager)
    (takes : Schedule.Takes which window manager.schedule.persister)
    (isWriting : manager.schedule.writing = some pending)
    (alone : manager.schedule.waiting = [])
    (unknown : manager.schedule.resultOf? pending.cycle = none) :
    ∃ middle schedule, (do
        mapSchedule fun _ => Schedule.finish written
        mapSchedule Schedule.grantAll
        carryOut 0 : Step Unit) session = (.ok (), middle) ∧
      middle = { session with managers := middle.managers } ∧
      middle.managers[index]? = some { manager with schedule := schedule } ∧
      schedule.Free which window ∧ schedule.resultOf? pending.cycle = some written := by
  obtain ⟨free, result⟩ := Schedule.finish_of_takes takes isWriting alone unknown written
  let finished := session.modifyManager index (Manager.mapSchedule (Schedule.finish written))
  have isFinished : finished.managers[index]? = _ := getElem?_modifyManager isManager _
  refine ⟨finished.modifyManager index (Manager.mapSchedule (Schedule.grantAll session.heap)),
    manager.schedule.finish written, ?_, rfl, ?_, free, result⟩
  · have stillInUse : finished.manager = some index := inUse
    refine (bind_ok (mapSchedule_run inUse _)).trans ?_
    exact bind_ok (mapSchedule_run stillInUse _)
  · rw [getElem?_modifyManager isFinished]
    exact congrArg (fun schedule => some { manager with schedule := schedule })
      (free.grantAll_eq session.heap)

/-- The manager of which a cycle has been requested, nothing being known of it from before. -/
def asked (heap : Heap) (manager : Manager) : Manager :=
  (manager.mapSchedule (Schedule.forget singleCycle)).mapSchedule (Schedule.request heap singleCycle)

/-- The session in which a cycle has been requested, nothing being known of it from before. -/
def withRequest (index : Nat) (session : Session) : Session :=
  (session.modifyManager index (Manager.mapSchedule (Schedule.forget singleCycle))).modifyManager
    index (Manager.mapSchedule (Schedule.request session.heap singleCycle))

/-- A cycle is requested, then it is carried out, then its result is looked up. -/
theorem persistNow_parts (inUse : session.manager = some index) {result : Outcome Unit}
    (ran : persistNow session = (.ok result, after)) :
    ∃ between, carryOut 1 (session.withRequest index) = (.ok (), between) ∧
      cycleResult singleCycle between = (.ok result, after) := by
  have stillInUse : (session.modifyManager index
      (Manager.mapSchedule (Schedule.forget singleCycle))).manager = some index := inUse
  obtain ⟨_, between, carried, ended⟩ :=
    bind_eq_ok ((bind_ok (mapSchedule_run inUse _)).symm.trans ran)
  exact ⟨between, (bind_ok (mapSchedule_run stillInUse _)).symm.trans carried, ended⟩

theorem getElem?_withRequest (isManager : session.managers[index]? = some manager) :
    (session.withRequest index).managers[index]? = some (asked session.heap manager) :=
  getElem?_modifyManager (getElem?_modifyManager isManager _) _

/-- A cycle that has nothing to write changes nothing but its own result. -/
theorem persistNow_of_idle (inUse : session.manager = some index)
    (isManager : session.managers[index]? = some manager)
    (idle : (asked session.heap manager).schedule.writing = none) {result : Outcome Unit}
    (ran : persistNow session = (.ok result, after)) : after = session.withRequest index := by
  obtain ⟨between, carried, ended⟩ := persistNow_parts inUse ran
  have isAsked := getElem?_withRequest isManager
  have stillInUse : (session.withRequest index).manager = some index := inUse
  replace carried := (bind_ok (currentManager_run stillInUse isAsked)).symm.trans carried
  rw [idle] at carried
  cases carried
  exact (congrArg Prod.snd
    ((bind_ok (currentManager_run stillInUse isAsked)).symm.trans ended)).symm

/-- A manager that is not active, or has nothing noted, stays as it is when a cycle is requested. -/
theorem Attending.asked (attending : Attending service window manager)
    (nothing : (service.isActive && !window.isEmpty) = false) (heap : Heap) :
    Attending service window (asked heap manager) := by
  cases isActive : service.isActive with
  | false =>
      have isInactive : (manager.schedule.forget singleCycle).persister.isActive = false :=
        attending.isActive_eq.trans isActive
      have isSchedule : (Session.asked heap manager).schedule =
          (manager.schedule.forget singleCycle).endWith singleCycle (.ok ()) := by
        show (manager.schedule.forget singleCycle).request heap singleCycle = _
        rw [Schedule.request, isInactive]
        rfl
      refine ⟨attending.enabled, ?_, ?_, ?_, ?_, ?_⟩
      · rw [Manager.persister, isSchedule]
        exact attending.running
      · rw [Manager.persister, isSchedule]
        exact attending.store
      · rw [Manager.persister, isSchedule]
        exact attending.listener
      · rw [isSchedule]
        exact attending.idle
      · rw [isSchedule]
        exact attending.alone
  | true =>
      obtain ⟨which, isStore, free⟩ := attending.free isActive
      rw [isActive, Bool.true_and, Bool.not_eq_false'] at nothing
      obtain rfl := Window.eq_empty nothing
      obtain ⟨freeAfter, -⟩ := (free.forget singleCycle).request_of_empty heap
        (Schedule.resultOf?_forget singleCycle manager.schedule)
      exact attending_of_free attending.enabled isActive isStore freeAfter

/-- A cycle that is requested with something noted writes it, and nothing waits for the turn. -/
theorem asked_of_noted {which : StoreRef} (free : manager.schedule.Free which window)
    (noted : window.isEmpty = false) (heap : Heap) :
    (asked heap manager).schedule.writing =
        some ⟨singleCycle, which, (window.toDelta heap).1⟩ ∧
      Schedule.Takes which .empty (asked heap manager).schedule.persister ∧
      (asked heap manager).schedule.waiting = [] ∧
      (asked heap manager).schedule.resultOf? singleCycle = none := by
  obtain ⟨persister, takes, isRequest⟩ :=
    (free.forget singleCycle).request_of_noted noted heap singleCycle
  have isSchedule : (asked heap manager).schedule = _ := isRequest
  rw [isSchedule]
  exact ⟨rfl, takes, free.alone, Schedule.resultOf?_forget singleCycle manager.schedule⟩

/-- A cycle with something noted hands the delta to the store, and what the store answers is its
result. -/
theorem persistNow_of_noted {which : StoreRef} (inUse : session.manager = some index)
    (isManager : session.managers[index]? = some manager)
    (free : manager.schedule.Free which window) {result : Outcome Unit}
    (noted : window.isEmpty = false) (quiet : Quiet session.stores)
    (released : session.heldBack = none) (ran : persistNow session = (.ok result, after)) :
    ∃ stored ended,
      deltaStore which (window.toDelta session.heap).1 (session.withRequest index) =
        (.ok result, stored) ∧
      Wrote which (window.toDelta session.heap).1 result (session.withRequest index) stored ∧
      after = { stored with managers := after.managers } ∧
      after.managers[index]? = some ended ∧ ended.config = manager.config ∧
      ended.schedule.Free which .empty := by
  obtain ⟨between, carried, ended⟩ := persistNow_parts inUse ran
  have isAsked := getElem?_withRequest isManager
  have stillInUse : (session.withRequest index).manager = some index := inUse
  replace carried := (bind_ok (currentManager_run stillInUse isAsked)).symm.trans carried
  obtain ⟨isWriting, takesNow, alone, unknown⟩ := asked_of_noted free noted session.heap
  rw [isWriting] at carried
  have isCurrent : (get : Step Session) (session.withRequest index) =
    (.ok (session.withRequest index), session.withRequest index) := get_run
  replace carried := (bind_ok isCurrent).symm.trans carried
  have notHeld : (session.withRequest index).heldBack ≠ some which := by
    change session.heldBack ≠ some which
    rw [released]
    exact Option.some_ne_none which ∘ Eq.symm
  rw [if_pos notHeld] at carried
  obtain ⟨written, stored, isStored, finished⟩ := bind_eq_ok carried
  have wrote := @wrote_deltaStore (session.withRequest index) stored which _ written quiet isStored
  have inUseStored : stored.manager = some index :=
    (congrArg Session.manager wrote.others).trans inUse
  have isManagerStored : stored.managers[index]? = some (asked session.heap manager) :=
    (congrArg (fun session => session.managers[index]?) wrote.others).trans isAsked
  obtain ⟨middle, schedule, finishes, others, isManagerAfter, freeAfter, isResult⟩ :=
    finishWrite_run written inUseStored isManagerStored takesNow isWriting alone unknown
  obtain rfl : middle = between := congrArg Prod.snd (finishes.symm.trans finished)
  have inUseAfter : middle.manager = some index :=
    (congrArg Session.manager others).trans inUseStored
  replace ended := (bind_ok (currentManager_run inUseAfter isManagerAfter)).symm.trans ended
  obtain rfl : middle = after := congrArg Prod.snd ended
  have isWritten : (schedule.resultOf? singleCycle).getD (.ok ()) = result :=
    Except.ok.inj (congrArg Prod.fst ended)
  rw [isResult] at isWritten
  exact ⟨stored, _, isWritten ▸ isStored, isWritten ▸ wrote, others, isManagerAfter, rfl, freeAfter⟩

/-- A cycle that has nothing to hand over leaves the window and the stores as they are. -/
theorem Standing.persistNow_idle (standing : session.Standing index service names heap window)
    (nothing : (service.isActive && !window.isEmpty) = false)
    (ran : persistNow session = (.ok (.ok ()), after)) :
    after.Standing index { service with stores := after.stores } names heap window ∧
      after.stores = service.stores := by
  obtain rfl := standing.heap
  obtain ⟨manager, isManager, attending⟩ := standing.manager
  have attendingAfter := attending.asked nothing session.heap
  obtain rfl := persistNow_of_idle standing.inUse isManager attendingAfter.idle ran
  exact ⟨⟨rfl, standing.names, standing.inUse, standing.released, rfl, standing.storeNames,
    standing.stores ▸ standing.quiet, _, getElem?_withRequest isManager, { attendingAfter with }⟩,
    standing.stores⟩

/-- A cycle that succeeds where something is noted has handed it to the store, which has taken it, and
leaves nothing noted. -/
theorem Standing.persistNow_noted (standing : session.Standing index service names heap window)
    (isActive : service.isActive = true) (noted : window.isEmpty = false)
    (ran : persistNow session = (.ok (.ok ()), after)) :
    after.Standing index { service with stores := after.stores } names heap .empty ∧
      Took service.store [(window.toDelta heap).1] service.stores after.stores ∧
      ∃ which before between, before.stores = session.stores ∧ before.disk = session.disk ∧
        deltaStore which (window.toDelta heap).1 before = (.ok (.ok ()), between) ∧
          after.stores = between.stores ∧ after.disk = between.disk := by
  obtain rfl := standing.heap
  obtain ⟨manager, isManager, attending⟩ := standing.manager
  have quietNow : Quiet session.stores := standing.stores ▸ standing.quiet
  obtain ⟨which, isStore, free⟩ := attending.free isActive
  have stillActive : ({ service with stores := after.stores } : Service).isActive = true := isActive
  obtain ⟨stored, ended, isStored, wrote, others, isEnded, sameConfig, freeAfter⟩ :=
    persistNow_of_noted standing.inUse isManager free noted quietNow standing.released ran
  have took : Took (some which) [(window.toDelta session.heap).1] session.stores after.stores := by
    rw [others]
    exact wrote.took rfl
  have kept : after = { session with
      managers := after.managers, stores := after.stores, disk := after.disk } := by
    rw [others, wrote.others]
    rfl
  refine ⟨⟨(congrArg Session.heap kept :), (congrArg Session.objects kept).trans standing.names,
    (congrArg Session.manager kept).trans standing.inUse,
    (congrArg Session.heldBack kept).trans standing.released, rfl,
    (congrArg Session.storeNames kept).trans standing.storeNames,
    took.quiet quietNow, ended, isEnded,
    attending_of_free (sameConfig ▸ attending.enabled) stillActive isStore freeAfter⟩, ?_,
    which, session.withRequest index, stored, rfl, rfl, isStored,
    (congrArg Session.stores others : _), (congrArg Session.disk others : _)⟩
  rw [← standing.stores, isStore]
  exact took

/-- A cycle that succeeds has handed the delta of the window to the store, which has taken it, and
leaves nothing noted. Where the manager is not active, there is no such delta, and the window
stays. -/
theorem Standing.persistNow_run (standing : session.Standing index service names heap window)
    (ran : persistNow session = (.ok (.ok ()), after)) :
    after.Standing index { service with stores := after.stores } names heap
        (if service.isActive then .empty else window) ∧
      Took service.store (takenDelta? session).toList service.stores after.stores ∧
      ∀ delta, takenDelta? session = some delta → ∃ which before between,
        before.stores = session.stores ∧ before.disk = session.disk ∧
          deltaStore which delta before = (.ok (.ok ()), between) ∧
            after.stores = between.stores ∧ after.disk = between.disk := by
  rw [standing.takenDelta?_eq]
  cases takes : service.isActive && !window.isEmpty with
  | false =>
      obtain ⟨standingAfter, sameStores⟩ := standing.persistNow_idle takes ran
      have sameWindow : (if service.isActive then .empty else window) = window := by
        split
        · rename_i isActive
          rw [isActive, Bool.true_and, Bool.not_eq_false'] at takes
          exact (Window.eq_empty takes).symm
        · rfl
      rw [sameWindow]
      refine ⟨standingAfter, ?_, nofun⟩
      rw [sameStores]
      exact took_nothing _ _
  | true =>
      obtain ⟨isActive, isNoted⟩ := Bool.and_eq_true_iff.mp takes
      have noted : window.isEmpty = false := by simpa using isNoted
      obtain ⟨standingAfter, took, wrote⟩ := standing.persistNow_noted isActive noted ran
      rw [if_pos isActive]
      refine ⟨standingAfter, took, fun delta isTaken => ?_⟩
      cases isTaken
      exact wrote

end Session

end GraphCheckpoint
