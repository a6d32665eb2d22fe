import GraphCheckpoint.Proofs.Session.Commands

/-!
Contract: what is stored of entities and policies after any program in which the manager starts, gets
its store and loses it at any time, and is never stopped.

Owns:
- `Account`, a session with the deltas that its manager has handed to the store;
- the run of a program, up to the first step that fails;
- that after a cycle of an active manager exactly the managed entities and policies are stored, each
  as it is then.

Does not own: what is stored of locations.
-/

namespace GraphCheckpoint.Session

open GraphCheckpoint.Store

/-- The object that a name stands for. -/
def objectNamed? (session : Session) (name : String) : Option LiveObject :=
  (session.objects.get? name).bind session.heap.object?

/-- The manager in use runs and has a store. -/
def isActive (session : Session) : Bool :=
  (session.manager.bind fun index => session.managers[index]?).any fun manager =>
    manager.persister.isActive

/-- A session, and the deltas that its manager has handed to the store so far, oldest first. -/
structure Account where
  session : Session
  handed : List (Delta LiveValue)

namespace Account

/-- The fold of all deltas handed over so far. -/
def stored (account : Account) : Graph LiveValue :=
  account.handed.foldl (fun graph delta => graph.apply delta) .empty

def scene (account : Account) : Scene :=
  ⟨account.session.heap, account.session.window, account.stored⟩

/-- The account of a session in which nothing has been handed over. -/
def start (session : Session) : Account := ⟨session, []⟩

/-- The account after a command, if it makes sense and succeeds. -/
def next? (account : Account) (command : Command) : Option Account :=
  if command.typed account.session then
    match Session.perform command.step account.session with
    | (.ok _, session) => some ⟨session, account.handed ++ command.handed account.session⟩
    | _ => none
  else none

/-- The account after a command, with nothing swept away. -/
def unswept? (account : Account) (command : Command) : Option Account :=
  if command.typed account.session then
    match command.step account.session with
    | (.ok _, session) => some ⟨session, account.handed ++ command.handed account.session⟩
    | _ => none
  else none

/-- The account after a program all of whose commands succeed. -/
def run? (commands : List Command) (account : Account) : Option Account := commands.foldlM next? account

variable {account later : Account} {done : List Command} {command : Command} {after : Session}
variable {service : Service} {action : Action}

theorem run?_concat (commands : List Command) (command : Command) (account : Account) :
    account.run? (commands ++ [command]) =
      (account.run? commands).bind fun between => between.next? command := by
  rw [run?, List.foldlM_append]
  congr 1
  funext between
  exact bind_pure _

theorem next?_eq_map (account : Account) (command : Command) :
    account.next? command = (account.unswept? command).map fun later =>
      { later with session := later.session.sweep } := by
  have performed : Session.perform command.step account.session =
      ((command.step account.session).1, (command.step account.session).2.sweep) := rfl
  rw [next?, unswept?, performed]
  split
  · cases command.step account.session with
    | mk outcome after => cases outcome <;> rfl
  · rfl

theorem unswept?_eq_some (isNext : account.unswept? command = some later) :
    command.typed account.session = true ∧ ∃ after,
      command.step account.session = (.ok (), after) ∧
        later = ⟨after, account.handed ++ command.handed account.session⟩ := by
  unfold unswept? at isNext
  split at isNext
  rotate_left
  · cases isNext
  rename_i typed
  split at isNext
  rotate_left
  · cases isNext
  rename_i after ran
  exact ⟨typed, after, ran, (Option.some.inj isNext).symm⟩

/-! ## What every account keeps -/

/-- The only store there is has taken all that has been handed over, as far as it records. -/
structure Backend (service : Service) (handed : List (Delta LiveValue)) : Prop where
  only : ∀ name which, service.storeNames.get? name = some which → which = ⟨0⟩
  first : ∀ which, service.store = some which → which = ⟨0⟩
  taken : ∀ recording, service.stores[0]? = some (.recording recording) →
    recorded recording = handed

/-- Nothing that a managed object has changed is missed. -/
structure Kept (done : List Command) (account : Account) : Prop where
  writes : ∃ service, account.session.Attended 0 service ∧ Backend service account.handed
  sound : account.scene.Sound
  current : account.scene.Current fun _ => False
  roster : Roster done account.session

/-- A new object has a new kind and id, and an object that is managed has not been managed before. -/
structure Fresh (done : List Command) (command : Command) : Prop where
  made : ∀ key, command.made? = some key → key ∉ madeKeys done
  managed : ∀ name, command.managed? = some name → name ∉ everManaged done

theorem fresh_of_nodup (distinct : (madeKeys (done ++ [command])).Nodup)
    (once : (everManaged (done ++ [command])).Nodup) : Fresh done command := by
  rw [madeKeys_concat] at distinct
  rw [everManaged_concat] at once
  constructor
  · intro key isMade known
    rw [isMade] at distinct
    exact (List.nodup_append.mp distinct).2.2 key known key (List.mem_singleton_self key) rfl
  · intro name isManaged known
    rw [isManaged] at once
    exact (List.nodup_append.mp once).2.2 name known name (List.mem_singleton_self name) rfl

theorem fresh_of_plain (plain : command.Plain) : Fresh done command := by
  constructor
  · intro key isMade
    rw [plain.1] at isMade
    cases isMade
  · intro name isManaged
    rw [plain.2.1] at isManaged
    cases isManaged

theorem kept_start (attended : after.Attended 0 service) (backend : Backend service [])
    (isScene : (start after).scene = ⟨.empty, .empty, .empty⟩) (roster : Roster [] after) :
    Kept [] (start after) where
  writes := ⟨service, attended, backend⟩
  sound := isScene ▸ sound_nothing
  current := isScene ▸ Scene.current_empty Heap.object?_empty
  roster := roster

theorem stored_persist (account : Account) (after : Session) :
    stored ⟨after, account.handed ++ (takenDelta? account.session).toList⟩ =
      ((takenDelta? account.session).map account.stored.apply).getD account.stored := by
  rw [stored, List.foldl_append]
  cases takenDelta? account.session <;> rfl

/-- The store has taken what a cycle has handed over. Where there is no store, that is nothing. -/
theorem Backend.persist (backend : Backend service account.handed)
    (attended : account.session.Attended 0 service)
    (took : Took service.store (takenDelta? account.session).toList service.stores after.stores) :
    Backend { service with stores := after.stores }
      (account.handed ++ (takenDelta? account.session).toList) where
  only := backend.only
  first := backend.first
  taken := by
    intro recording isRecording
    obtain ⟨old, isOld, -, more⟩ := took 0 recording isRecording
    rw [more, backend.taken old isOld]
    cases hasStore : service.store with
    | none =>
        have nothing : takenDelta? account.session = none := by
          rw [attended.standing.takenDelta?_eq, Service.isActive, hasStore, Option.isSome_none,
            Bool.and_false]
          rfl
        rw [nothing, if_neg (Option.some_ne_none _ ∘ Eq.symm)]
        rfl
    | some which => rw [backend.first which hasStore, if_pos rfl]

section Kept

variable (kept : Kept done account)

include kept

/-- An object whose name has not been managed is not noted as removed. -/
theorem Kept.not_removed {name : String} {address : Address} {object : LiveObject} {key : ObjectKey}
    (isNew : name ∉ everManaged done) (isNamed : account.session.objects.get? name = some address)
    (isObject : account.session.heap.object? address = some object)
    (notLocation : object.kind ≠ .location) (holds : account.scene.heap.Holds key address) :
    ¬ account.scene.Removed key := by
  intro isRemoved
  obtain ⟨other, wasManaged, y, isOther, holdsToo⟩ := kept.roster.removed isRemoved
  have isKey : key = object.key := holds.key_unique ⟨object, isObject, rfl⟩
  have notLocationKey : key.kind ≠ .location := by
    rw [isKey]
    exact notLocation
  have same := kept.current.distinct notLocationKey holdsToo holds
  subst same
  obtain rfl := kept.roster.apart isOther isNamed
  exact isNew wasManaged

/-- What an action does to the objects keeps current what is noted and stored. -/
theorem Kept.current_effect (fresh : Fresh done (.act action))
    (effect : Effect 0 account.session after action) :
    Scene.Current (fun _ => False) ⟨after.heap, after.window, account.stored⟩ := by
  have current := kept.current
  have sound := kept.sound
  cases effect with
  | @made kind name id typeName isNew objects heap window =>
      rw [heap, window]
      apply current.create sound
      intro notLocation x holds
      exact fresh.made ⟨kind, id⟩ (if_neg notLocation) (kept.roster.made notLocation holds)
  | changed isChange objects same advance spares hears =>
      have grown := current.change same fun {key x} _ _ others => spares x others
      refine (grown.hearAll (sound.advance advance) hears).mono ?_
      rintro x - ⟨never | reports, notReporter⟩
      · exact never
      · exact notReporter reports
  | linked isLinked silent objects same links spares window =>
      rw [window]
      refine current.keep same ?_
      rintro key x notLocation ⟨object, isObject, rfl⟩
      exact (spares x object isObject notLocation).trans isObject.symm
  | @managed name address object isNamed isObject notLocation objects heap window =>
      have unremoved : ∀ key, account.scene.heap.Holds key address → ¬ account.scene.Removed key :=
        fun key => kept.not_removed (fresh.managed name rfl) isNamed isObject notLocation
      have listening := current.listen (.manager 0) unremoved
      have soundListening := sound.advance (Heap.advance_listening address (.manager 0))
      rw [heap] at window ⊢
      rw [window]
      have watched : (account.session.heap.listening address (some (.manager 0))).Watched address := by
        refine ⟨{ object with listener := some (.manager 0) }, ?_, rfl⟩
        rw [Heap.object?_listening, if_pos rfl, isObject]
        rfl
      refine (listening.hear soundListening (.watched watched)).mono ?_
      rintro x - ⟨never | isAddress, differs⟩
      · exact never
      · exact differs isAddress
  | @unmanaged name address object isNamed isObject notLocation objects heap window =>
      rw [heap, window]
      cases watched : object.listener.isSome with
      | true => exact current.unwatch sound notLocation ⟨object, isObject, rfl⟩
      | false =>
          have silent : object.listener = none := by simpa using watched
          exact current.keep (Heap.sameRoles_listening isObject silent) fun _ _ =>
            Heap.object?_listening_of_silent isObject silent

theorem Kept.act (fresh : Fresh done (.act action)) (typed : action.typed account.session = true)
    (noCycle : action ≠ .persist) (ran : action.step account.session = (.ok (), after)) :
    after.sweep = after ∧ Kept (done ++ [.act action]) ⟨after, account.handed⟩ := by
  obtain ⟨service, attended, backend⟩ := kept.writes
  obtain ⟨other, ranToo, attendedAfter, effect⟩ := attended.acts typed noCycle
  rw [ran] at ranToo
  cases ranToo
  exact ⟨attendedAfter.sweep_eq, ⟨service, attendedAfter, backend⟩, effect.sound kept.sound,
    kept.current_effect fresh effect, kept.roster.effect effect⟩

/-- A command that changes nothing but the manager. -/
theorem Kept.unchanged (plain : command.Plain)
    (standing : after.Standing 0 service account.session.objects account.session.heap
      account.session.window)
    (backend : Backend service account.handed) :
    after.sweep = after ∧ Kept (done ++ [command]) ⟨after, account.handed⟩ := by
  obtain ⟨_, attended, -⟩ := kept.writes
  have attendedAfter := attended_of_standing standing attended.heard attended.named
  have isScene : scene ⟨after, account.handed⟩ = account.scene := by
    rw [scene, scene, standing.heap, standing.window_eq]
    rfl
  refine ⟨attendedAfter.sweep_eq, ⟨service, attendedAfter, backend⟩, isScene ▸ kept.sound,
    isScene ▸ kept.current, kept.roster.plain plain standing.names ?_ fun kind id isRemoved => ?_⟩
  · rw [standing.heap]
    exact .refl _
  · rwa [standing.window_eq] at isRemoved

/-- After a cycle that succeeds, what was noted is stored, if the manager was active. -/
theorem Kept.persist (ran : Action.step .persist account.session = (.ok (), after)) :
    after.sweep = after ∧
      Kept (done ++ [.act .persist])
        ⟨after, account.handed ++ (takenDelta? account.session).toList⟩ ∧
      (account.session.isActive = true → after.window = .empty) := by
  obtain ⟨service, attended, backend⟩ := kept.writes
  obtain ⟨attendedAfter, took, objects, written⟩ := attended.persist ran
  let ended : Account := ⟨after, account.handed ++ (takenDelta? account.session).toList⟩
  have isScene : ended.scene = if service.isActive then account.scene.write else account.scene := by
    rw [scene, stored_persist]
    exact written account.stored
  have isActive : account.session.isActive = service.isActive := by
    obtain ⟨manager, isManager, attending⟩ := attended.standing.manager
    rw [Session.isActive, attended.standing.inUse, Option.bind_some, isManager, Option.any_some,
      attending.isActive_eq]
  have heap : after.heap = account.session.heap := by
    have sameHeap := congrArg Scene.heap isScene
    split at sameHeap <;> exact sameHeap
  refine ⟨attendedAfter.sweep_eq, ⟨⟨_, attendedAfter, backend.persist attended took⟩, ?_, ?_, ?_⟩,
    fun active => ?_⟩
  · show ended.scene.Sound
    rw [isScene]
    split
    · exact kept.sound.write
    · exact kept.sound
  · show ended.scene.Current _
    rw [isScene]
    split
    · exact kept.current.write kept.sound
    · exact kept.current
  · apply kept.roster.plain plain_persist objects
    · rw [heap]
      exact .refl _
    · intro kind id isRemoved
      have isWindow := congrArg Scene.window isScene
      split at isWindow
      · have nothing : after.window = .empty := isWindow
        rw [nothing] at isRemoved
        cases kind <;> cases isRemoved
      · have same : after.window = account.session.window := isWindow
        rwa [same] at isRemoved
  · rw [isActive] at active
    rw [active] at isScene
    exact congrArg Scene.window isScene

/-- A command that runs no cycle hands nothing over, and keeps what every account keeps. -/
theorem Kept.noCycle (fresh : Fresh done command) (typed : command.typed account.session = true)
    (noCycle : command ≠ .act .persist) (ran : command.step account.session = (.ok (), after)) :
    after.sweep = after ∧ Kept (done ++ [command]) ⟨after, account.handed⟩ := by
  obtain ⟨service, attended, backend⟩ := kept.writes
  cases command with
  | act action => exact kept.act fresh typed (fun isCycle => noCycle (congrArg _ isCycle)) ran
  | start =>
      obtain ⟨other, ranToo, standing⟩ := attended.standing.start_run
      obtain rfl : other = after := congrArg Prod.snd (ranToo.symm.trans ran)
      exact kept.unchanged plain_start standing ⟨backend.only, backend.first, backend.taken⟩
  | setBackend name =>
      obtain ⟨_, between, isSet, ended⟩ := bind_eq_ok ran
      obtain rfl : between = after := congrArg Prod.snd ended
      obtain ⟨store, standing, -, isKnown⟩ := attended.standing.setBackend_run isSet
      refine kept.unchanged (plain_setBackend name) standing
        ⟨backend.only, fun which isStore => ?_, backend.taken⟩
      obtain ⟨known, isNamed⟩ := isKnown which isStore
      exact backend.only known which isNamed

/-- A command that makes sense and succeeds keeps what every account keeps, and leaves nothing to be
swept away. -/
theorem Kept.unswept (fresh : Fresh done command) (isNext : account.unswept? command = some later) :
    later.session.sweep = later.session ∧ Kept (done ++ [command]) later := by
  obtain ⟨typed, after, ran, rfl⟩ := unswept?_eq_some isNext
  by_cases isCycle : command = .act .persist
  · subst isCycle
    obtain ⟨swept, keptAfter, -⟩ := kept.persist ran
    exact ⟨swept, keptAfter⟩
  · rw [handed_of_noCycle isCycle, List.append_nil]
    exact kept.noCycle fresh typed isCycle ran

theorem Kept.next?_eq (fresh : Fresh done command) :
    account.next? command = account.unswept? command := by
  rw [next?_eq_map]
  cases isNext : account.unswept? command with
  | none => rfl
  | some later =>
      obtain ⟨swept, -⟩ := kept.unswept fresh isNext
      rw [Option.map_some, swept]

end Kept

/-! ## Programs from the beginning -/

variable {storeName : String} {kind : StoreKind} {config : ManagerConfig} {registry : Registry}
variable {session : Session} {commands : List Command} {before final : Account}

theorem kept_prepare (enabled : config.persistenceEnabled = true)
    (prepared : prepare storeName kind config registry Session.empty = (.ok (), session)) :
    Kept [] (start session) := by
  obtain ⟨store, isNew, standing⟩ := standing_prepare enabled prepared
  refine kept_start standing.attended_of_nothing ⟨?_, nofun, ?_⟩ ?_ (roster_of_nothing standing)
  · intro name which isNamed
    rw [Table.get?] at isNamed
    split at isNamed
    · exact (Option.some.inj isNamed).symm
    · cases isNamed
  · intro recording isRecording
    exact isNew.unused recording (Option.some.inj isRecording)
  · rw [scene, start, standing.heap, standing.window_eq]
    rfl

/-- What every account of a program keeps, if what it makes has different kinds and ids, and it
manages nothing twice. -/
theorem kept_run (enabled : config.persistenceEnabled = true)
    (prepared : prepare storeName kind config registry Session.empty = (.ok (), session))
    (distinct : (madeKeys commands).Nodup) (once : (everManaged commands).Nodup)
    (ran : (start session).run? commands = some final) : Kept commands final := by
  induction commands using List.reverseRecOn generalizing final with
  | nil =>
      cases ran
      exact kept_prepare enabled prepared
  | append_singleton done command inductionHypothesis =>
      rw [run?_concat] at ran
      obtain ⟨between, ranBefore, isNext⟩ := Option.bind_eq_some_iff.mp ran
      have fresh := fresh_of_nodup distinct once
      rw [madeKeys_concat] at distinct
      rw [everManaged_concat] at once
      have keptBefore := inductionHypothesis (List.nodup_append.mp distinct).1
        (List.nodup_append.mp once).1 ranBefore
      rw [keptBefore.next?_eq fresh] at isNext
      exact (keptBefore.unswept fresh isNext).2

/-- A program runs as if nothing were ever swept away. -/
theorem run?_eq_unswept (enabled : config.persistenceEnabled = true)
    (prepared : prepare storeName kind config registry Session.empty = (.ok (), session))
    (distinct : (madeKeys commands).Nodup) (once : (everManaged commands).Nodup) :
    (start session).run? commands = commands.foldlM unswept? (start session) := by
  induction commands using List.reverseRecOn with
  | nil => rfl
  | append_singleton done command inductionHypothesis =>
      have fresh := fresh_of_nodup distinct once
      rw [madeKeys_concat] at distinct
      rw [everManaged_concat] at once
      have distinctBefore := (List.nodup_append.mp distinct).1
      have onceBefore := (List.nodup_append.mp once).1
      rw [run?_concat, List.foldlM_append, ← inductionHypothesis distinctBefore onceBefore]
      cases ran : (start session).run? done with
      | none => rfl
      | some between =>
          have kept := kept_run enabled prepared distinctBefore onceBefore ran
          exact (kept.next?_eq fresh).trans (bind_pure _).symm

/-- Take any program that makes entities and policies with different kinds and ids, manages each of
them once at most, and never stops the manager. After every cycle that it runs while the manager is
active, each managed object is stored as it is then, and no other entity or policy is stored. A store
that records has taken exactly the deltas whose fold this is. -/
theorem stored_records_are_current (enabled : config.persistenceEnabled = true)
    (prepared : prepare storeName kind config registry Session.empty = (.ok (), session))
    (distinct : (madeKeys commands).Nodup) (once : (everManaged commands).Nodup)
    (ran : (start session).run? commands = some before)
    (isActive : before.session.isActive = true)
    (persisted : before.next? (.act .persist) = some final) :
    (∀ name ∈ managedAfter commands, ∃ object record,
      final.session.objectNamed? name = some object ∧ object.memento = .ok record ∧
        (final.stored.records object.kind).get? object.id = some record) ∧
    (∀ kind id record, kind ≠ .location → (final.stored.records kind).get? id = some record →
      ∃ name ∈ managedAfter commands, ∃ object,
        final.session.objectNamed? name = some object ∧ object.key = ⟨kind, id⟩) ∧
    ∀ recording, final.session.stores[0]? = some (.recording recording) →
      recorded recording = final.handed := by
  have keptBefore := kept_run enabled prepared distinct once ran
  rw [keptBefore.next?_eq (fresh_of_plain plain_persist)] at persisted
  obtain ⟨-, after, cycled, rfl⟩ := unswept?_eq_some persisted
  obtain ⟨-, kept, writes⟩ := keptBefore.persist cycled
  have written : after.window = .empty := writes isActive
  obtain ⟨service, attended, backend⟩ := kept.writes
  have roster := kept.roster
  have sameManaged : managedAfter (commands ++ [.act .persist]) = managedAfter commands :=
    managedAfter_concat commands (.act .persist)
  refine ⟨fun name isManaged => ?_, fun kind id record notLocation isStored => ?_,
    fun recording isRecording => ?_⟩
  · rw [← sameManaged, roster.managed] at isManaged
    obtain ⟨x, isNamed, watched⟩ := isManaged
    obtain ⟨object, isObject, listens⟩ := id watched
    have holds : after.heap.Holds object.key x := ⟨object, isObject, rfl⟩
    have notLocation : object.key.kind ≠ .location := by
      intro isLocation
      apply notLocation_of_heard attended.heard watched object.id
      rw [← isLocation]
      exact holds
    have gives : after.heap.memento? x = some (.ok _) :=
      Heap.memento?_of_object kept.sound.ordinary isObject
    have isStored := kept.current.stored_of_watched written notLocation holds watched
    obtain ⟨record, isRecord, isGiven⟩ := Option.map_eq_some_iff.mp (isStored.symm.trans gives)
    rw [Heap.memento?, isObject] at gives
    refine ⟨object, record, ?_, (Option.some.inj gives).trans isGiven.symm, isRecord⟩
    rw [objectNamed?, isNamed]
    exact isObject
  · have notLocationKey : (⟨kind, id⟩ : ObjectKey).kind ≠ .location := notLocation
    obtain ⟨x, holds, watched⟩ :=
      kept.current.watched_of_stored written notLocationKey isStored
    obtain ⟨object, isObject, isKey⟩ := holds
    obtain ⟨name, isNamed⟩ := attended.named x object isObject
    refine ⟨name, ?_, object, ?_, isKey⟩
    · rw [← sameManaged, roster.managed]
      exact ⟨x, isNamed, watched⟩
    · rw [objectNamed?, isNamed]
      exact isObject
  · apply backend.taken
    rw [← attended.standing.stores]
    exact isRecording

section Late

private def lateConfig : ManagerConfig := ⟨true, 1000, .lenient, default⟩

private def lateSession : Session := (prepare "store" .recording lateConfig .empty Session.empty).2

/-- The manager is started when two objects have been managed for some time. One of them is unmanaged
after the first cycle, and a third one changes. -/
private def lateCommands : List Command :=
  [.act (.make .entity "app" "app" "App"), .act (.make .policy "scaling" "scaling" "Scaling"),
    .act (.manage "app"), .act (.manage "scaling"), .act .persist, .setBackend (some "store"),
    .start, .act (.make .entity "db" "db" "Database"), .act (.manage "db"),
    .act (.link "app" "db"), .act .persist, .act (.change "db" (.displayName "primary")),
    .act (.unmanage "scaling")]

private theorem run_late :
    (lateCommands.foldlM unswept? (start lateSession)).any (fun before =>
      before.session.isActive && (before.unswept? (.act .persist)).any fun final =>
        decide (final.handed.length = 2) && decide (final.stored.entities.keys = ["app", "db"]) &&
          decide (final.stored.policies.keys = [])) = true := by
  decide +kernel

theorem stored_records_are_current_lateStart : ∃ before final : Account,
    (start lateSession).run? lateCommands = some before ∧ before.session.isActive = true ∧
      before.next? (.act .persist) = some final ∧ final.handed.length = 2 ∧
        final.stored.entities.keys = ["app", "db"] ∧ final.stored.policies.keys = [] ∧
          (∃ object record, final.session.objectNamed? "db" = some object ∧
            object.memento = .ok record ∧
              (final.stored.records object.kind).get? object.id = some record) ∧
            ∀ recording, final.session.stores[0]? = some (.recording recording) →
              recorded recording = final.handed := by
  obtain ⟨before, ran, shape⟩ := (Option.any_eq_true _ _).mp run_late
  obtain ⟨isActive, shape⟩ := Bool.and_eq_true_iff.mp shape
  obtain ⟨final, persisted, shape⟩ := (Option.any_eq_true _ _).mp shape
  simp only [Bool.and_eq_true, decide_eq_true_eq] at shape
  obtain ⟨⟨twice, entities⟩, policies⟩ := shape
  have distinct : (madeKeys lateCommands).Nodup := by decide +kernel
  have once : (everManaged lateCommands).Nodup := by decide +kernel
  have prepared : prepare "store" .recording lateConfig .empty Session.empty =
    (.ok (), lateSession) := rfl
  rw [← run?_eq_unswept rfl prepared distinct once] at ran
  have kept := kept_run rfl prepared distinct once ran
  rw [← kept.next?_eq (fresh_of_plain plain_persist)] at persisted
  obtain ⟨each, -, taken⟩ :=
    @stored_records_are_current "store" .recording lateConfig .empty lateSession lateCommands before
      final rfl prepared distinct once ran isActive persisted
  exact ⟨before, final, ran, isActive, persisted, twice, entities, policies,
    each "db" (by decide +kernel), taken⟩

end Late

end Account

end GraphCheckpoint.Session
