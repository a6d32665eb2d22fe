import GraphCheckpoint.Proofs.Live.Ownership
import GraphCheckpoint.Proofs.Rebind.Loading
import GraphCheckpoint.Proofs.Session.Steps
import GraphCheckpoint.Session.Rebinding

/-!
Contract: a rebind gives back the graph that a store holds.

Owns:
- how a manager ends a rebind whose records have been loaded;
- loading in a session, and how a rebind ends by what it loads;
- that a rebind from a store whose records fit together completes and is faithful.

Does not own: how records come into a store.
-/

namespace GraphCheckpoint

variable {graph : Graph LiveValue} {heap : Heap} {registry : Registry}

/-- A manager that rebuilds a loaded graph ends its rebind in completion, and has been faithful. -/
theorem Manager.rebuild_run {arena : Arena} {manager : Manager} (loaded : Loaded graph heap arena)
    (basic : registry.Basic)
    (accepts : ∀ kind, Pass.Accepts registry manager.config.typeResolution graph kind) :
    ∃ outcome pass, manager.rebuild registry graph ⟨arena, [], [], []⟩ =
        ⟨.ok outcome, pass, manager.completeRebind outcome pass.problems⟩ ∧
      Faithful registry graph outcome pass.problems pass.arena.heap := by
  obtain ⟨registered, registeredRan, tracks, grown⟩ :=
    @Pass.registerAll_run graph heap ⟨arena, [], [], []⟩ loaded.keyed loaded.oneKind loaded.tracks
  obtain ⟨outcome, pass, hydrated, faithful⟩ :=
    @Pass.hydrate_run graph heap registry manager.config.typeResolution ⟨registered, [], [], []⟩
      loaded.keyed loaded.linked tracks
      (fun kind entry member reference inRecord =>
        grown _ _ _ (loaded.values kind entry member reference inRecord))
      loaded.settled basic accepts rfl
  refine ⟨outcome, pass, ?_, faithful⟩
  have registeredRun : (Pass.registerAll graph).run.run ⟨arena, [], [], []⟩ =
      (.ok (), ⟨registered, [], [], []⟩) := registeredRan
  have hydratedRun : (Pass.hydrate registry manager.config.typeResolution graph).run.run
      ⟨registered, [], [], []⟩ = (.ok outcome, pass) := hydrated
  have sameConfig : ((manager.enter .placeholdersBuilt).enter .hydrating).config = manager.config :=
    rfl
  simp only [Manager.rebuild, registeredRun, sameConfig, hydratedRun]
  rfl

/-- A manager ends a rebind in completion once it has registered and rebuilt all records, and else in
failure. -/
theorem Manager.rebuild_ends_of (manager : Manager) {pass : PassState} {fails : Failure → Prop}
    {holds : RebindOutcome → PassState → Prop}
    (ends : Ends (do
      Pass.registerAll graph
      Pass.hydrate registry manager.config.typeResolution graph) pass fails holds) :
    (∃ stage cause, (manager.rebuild registry graph pass).outcome =
        .error (.rebindFailed stage cause) ∧
      (manager.rebuild registry graph pass).manager.state = .failed ∧ fails cause) ∨
    ∃ outcome, (manager.rebuild registry graph pass).outcome = .ok outcome ∧
      (manager.rebuild registry graph pass).manager.state = .complete ∧
      holds outcome (manager.rebuild registry graph pass).pass := by
  have sameConfig : ((manager.enter .placeholdersBuilt).enter .hydrating).config = manager.config :=
    rfl
  rcases registered : Pass.registerAll graph pass with ⟨failure | _, middle⟩
  · have registeredRun : (Pass.registerAll graph).run.run pass = (.error failure, middle) :=
      registered
    rw [Ends, bind_error registered] at ends
    rcases ends with ⟨same, after, failed, isFailure⟩ | ⟨_, _, isOk, -⟩
    · cases failed
      simp only [rebuild, registeredRun]
      exact Or.inl ⟨_, _, rfl, rfl, isFailure⟩
    · cases isOk
  · have registeredRun : (Pass.registerAll graph).run.run pass = (.ok (), middle) := registered
    rw [Ends, bind_ok registered] at ends
    simp only [rebuild, registeredRun, sameConfig]
    rcases ends with ⟨failure, after, failed, isFailure⟩ | ⟨outcome, after, hydrated, held⟩
    · have ran : (Pass.hydrate registry manager.config.typeResolution graph).run.run middle =
          (.error failure, after) := failed
      simp only [ran]
      exact Or.inl ⟨_, _, rfl, rfl, isFailure⟩
    · have ran : (Pass.hydrate registry manager.config.typeResolution graph).run.run middle =
          (.ok outcome, after) := hydrated
      simp only [ran]
      exact Or.inr ⟨outcome, rfl, rfl, held⟩

namespace Session

open GraphCheckpoint.Store GraphCheckpoint.Encoding

variable {session : Session} {index : Nat} {manager : Manager} {which : StoreRef} {store : AnyStore}
  {settings : Settings} {stored : Delta Datum}

/-- Loading in a session resolves the records that the store holds. -/
theorem loadInto_run (rebindFirst : Step (Outcome Nat))
    (isStore : session.stores[which.index]? = some store)
    (holds : store.Holds session.disk settings stored) (heap : Heap) :
    loadInto rebindFirst which (.start heap) session =
      (.ok (some ((settings.resolveRecords Arena.resolver stored).run (.start heap))), session) := by
  cases holds with
  | memory isRunning isStored =>
      rw [← MemoryStore.load_eq isRunning isStored Arena.resolver]
      exact (bind_ok (storeAt_run isStore)).trans rfl
  | file isRunning isStored =>
      rw [← FileStore.load_eq isRunning isStored Arena.resolver]
      exact (bind_ok (storeAt_run isStore)).trans ((bind_ok get_run).trans rfl)

/-- The manager once its rebind has begun. -/
def begun (manager : Manager) : Manager := { manager.enter .loading with rebinding := true }

/-- A rebind ends as its manager ends it with what has been loaded. -/
theorem runRebind_of_load {rebindFirst : Step (Outcome Nat)}
    (inUse : session.manager = some index) (isManager : session.managers[index]? = some manager)
    (isFree : manager.rebinding = false) (hasStore : manager.store = some which)
    {loaded : Outcome (Graph LiveValue × Arena)} {pass : PassState}
    (loads : loadInto rebindFirst which (.start session.heap)
      (session.modifyManager index fun _ => begun manager) =
        (.ok (some loaded), session.modifyManager index fun _ => begun manager))
    (starts : (∃ graph arena, loaded = .ok (graph, arena) ∧ pass = ⟨arena, [], [], []⟩) ∨
      ∃ failure, loaded = .error failure ∧ pass = Pass.start session.heap)
    {result : Manager.RebindResult}
    (ends : (begun manager).finishRebind manager.registry (loaded.map Prod.fst) pass = result) :
    ∃ after, runRebind rebindFirst none session = (.ok (.finished result.outcome), after) ∧
      after.managers[index]? = some result.manager ∧ after.heap = result.pass.arena.heap := by
  let loading := session.modifyManager index fun _ => begun manager
  have isBegun : loading.managers[index]? = some (begun manager) :=
    getElem?_modifyManager isManager _
  have stillInUse : loading.manager = some index := inUse
  have beginRan : manager.beginRebind = (.ok which, begun manager) := by
    rw [Manager.beginRebind, isFree, hasStore]
    rfl
  let after : Session :=
    { loading.modifyManager index fun _ => result.manager with
      heap := result.pass.arena.heap
      remembered := session.remembered ++ result.pass.remembered
      answers := session.answers ++ result.pass.answers }
  have finishes : (do
      mapManager fun _ => result.manager
      keepPass result.pass
      return .finished result.outcome : Step RebindEnd) loading =
        (.ok (.finished result.outcome), after) :=
    (bind_ok (mapManager_run stillInUse _)).trans rfl
  refine ⟨after, ?_, getElem?_modifyManager isBegun _, rfl⟩
  refine Eq.trans ?_ finishes
  refine (bind_ok (currentManager_run inUse isManager)).trans ?_
  rw [beginRan]
  refine (bind_ok (mapManager_run inUse _)).trans ?_
  refine (bind_ok heapOf_run).trans ((bind_ok loads).trans ((bind_ok heapOf_run).trans ?_))
  refine (bind_ok (currentManager_run stillInUse isBegun)).trans ?_
  subst ends
  rcases starts with ⟨graph, arena, rfl, rfl⟩ | ⟨failure, rfl, rfl⟩ <;> rfl

/-- The manager of a session is free to rebind, from a store that holds these records. -/
structure RebindsFrom (session : Session) (index : Nat) (manager : Manager) (settings : Settings)
    (stored : Delta Datum) : Prop where
  inUse : session.manager = some index
  isManager : session.managers[index]? = some manager
  isFree : manager.rebinding = false
  holds : ∃ which store, manager.store = some which ∧
    session.stores[which.index]? = some store ∧ store.Holds session.disk settings stored

/-- How a manager ends a rebind that has loaded over a heap. -/
def endOfLoad (manager : Manager) (heap : Heap) :
    Outcome (Graph LiveValue × Arena) → Manager.RebindResult
  | .error failure => (begun manager).failed .loading failure (Pass.start heap)
  | .ok (graph, arena) => (begun manager).rebuild manager.registry graph ⟨arena, [], [], []⟩

/-- A rebind ends as its manager ends it with the records of the store. -/
theorem RebindsFrom.runRebind_loads (rebinds : session.RebindsFrom index manager settings stored)
    (rebindFirst : Step (Outcome Nat)) {result : Manager.RebindResult}
    (ends : endOfLoad manager session.heap
      ((settings.resolveRecords Arena.resolver stored).run (.start session.heap)) = result) :
    ∃ after, runRebind rebindFirst none session = (.ok (.finished result.outcome), after) ∧
      after.managers[index]? = some result.manager ∧ after.heap = result.pass.arena.heap := by
  obtain ⟨which, store, hasStore, isStore, holds⟩ := rebinds.holds
  have loads := @loadInto_run (session.modifyManager index fun _ => begun manager) which store
    settings stored rebindFirst isStore holds session.heap
  rcases loaded : (settings.resolveRecords Arena.resolver stored).run (.start session.heap) with
    failure | ⟨graph, arena⟩ <;> rw [loaded] at loads ends
  · exact runRebind_of_load rebinds.inUse rebinds.isManager rebinds.isFree hasStore loads
      (Or.inr ⟨failure, rfl, rfl⟩) ends
  · exact runRebind_of_load rebinds.inUse rebinds.isManager rebinds.isFree hasStore loads
      (Or.inl ⟨graph, arena, rfl, rfl⟩) ends

/-- A rebind fails while it loads, as the first disagreement of the stored references says, or ends as
its manager rebuilds what has been loaded. -/
theorem RebindsFrom.runRebind_ends (rebinds : session.RebindsFrom index manager settings stored)
    (rebindFirst : Step (Outcome Nat)) :
    ∃ (result : Manager.RebindResult) (after : Session),
      runRebind rebindFirst none session = (.ok (.finished result.outcome), after) ∧
      after.managers[index]? = some result.manager ∧ after.heap = result.pass.arena.heap ∧
      ((∃ failure, Mention.disagreement? (settings.mentions stored) = some failure ∧
          result = (begun manager).failed .loading failure (Pass.start session.heap)) ∨
        ∃ graph arena, Retrieved settings stored session.heap graph arena ∧
          result = (begun manager).rebuild manager.registry graph ⟨arena, [], [], []⟩) := by
  rcases settings.resolveRecords_ends stored session.heap with
    ⟨failure, disagrees, ran⟩ | ⟨graph, arena, ran, retrieved⟩
  · obtain ⟨after, ends, isLast, sameHeap⟩ :=
      rebinds.runRebind_loads rebindFirst (congrArg (endOfLoad manager session.heap) ran)
    exact ⟨_, after, ends, isLast, sameHeap, Or.inl ⟨failure, disagrees, rfl⟩⟩
  · obtain ⟨after, ends, isLast, sameHeap⟩ :=
      rebinds.runRebind_loads rebindFirst (congrArg (endOfLoad manager session.heap) ran)
    exact ⟨_, after, ends, isLast, sameHeap, Or.inr ⟨graph, arena, retrieved, rfl⟩⟩

/-- What a session must hold for a rebind to go through: a manager that rebinds from a store whose
records fit together, with factories of ordinary objects for all types that it insists on. -/
structure Rebindable (session : Session) (index : Nat) (manager : Manager) (settings : Settings)
    (stored : Delta Datum) : Prop where
  inUse : session.manager = some index
  isManager : session.managers[index]? = some manager
  isFree : manager.rebinding = false
  holds : ∃ which store, manager.store = some which ∧
    session.stores[which.index]? = some store ∧ store.Holds session.disk settings stored
  coherent : Coherent settings stored
  basic : manager.registry.Basic
  accepts : manager.config.typeResolution = .lenient ∨
    ∀ kind, ∀ entry ∈ (settings.readByIds (Graph.empty.apply stored)).records kind,
      manager.registry.contains kind entry.2.typeName = true

theorem Rebindable.rebindsFrom (rebindable : session.Rebindable index manager settings stored) :
    session.RebindsFrom index manager settings stored :=
  ⟨rebindable.inUse, rebindable.isManager, rebindable.isFree, rebindable.holds⟩

theorem Rebindable.runRebind_run (rebindable : session.Rebindable index manager settings stored)
    (rebindFirst : Step (Outcome Nat)) :
    ∃ outcome problems graph after, runRebind rebindFirst none session =
        (.ok (.finished (.ok outcome)), after) ∧
      after.managers[index]? = some (manager.completeRebind outcome problems) ∧
      graph.byIds = settings.readByIds (Graph.empty.apply stored) ∧
      Faithful manager.registry graph outcome problems after.heap := by
  obtain ⟨result, after, ran, isLast, sameHeap, ends⟩ :=
    rebindable.rebindsFrom.runRebind_ends rebindFirst
  obtain ⟨graph, arena, retrieved, rfl⟩ := ends.resolve_left fun ⟨failure, disagrees, _⟩ => by
    rw [rebindable.coherent.agrees] at disagrees
    cases disagrees
  have accepts : ∀ kind, Pass.Accepts manager.registry (begun manager).config.typeResolution graph
      kind := retrieved.accepts rebindable.accepts
  obtain ⟨outcome, pass, rebuilt, faithful⟩ := Manager.rebuild_run
    (rebindable.coherent.fitting.loaded retrieved) rebindable.basic accepts
  rw [rebuilt] at ran isLast sameHeap
  exact ⟨outcome, pass.problems, graph, after, ran, isLast, retrieved.byIds_eq, sameHeap ▸ faithful⟩

/-- What is dropped afterwards does not change the result of a step. -/
theorem result_perform {α : Type} (step : Step α) (session : Session) :
    (perform step session).1 = (step session).1 := rfl

/-- A rebuilt object is kept alive by the session that keeps the rebuilt graph. -/
theorem mem_roots_of_outcome {outcome : RebindOutcome} (keeps : session.outcome = some outcome)
    {kind : ObjectKind} {id : String} {address : Address}
    (isBuilt : (outcome.objects kind).get? id = some address) :
    Owned.object address ∈ session.roots := by
  have isAddress : address ∈ outcome.addresses :=
    List.mem_flatMap.mpr ⟨kind, kind.mem_all,
      List.mem_map_of_mem (Table.mem_of_get? isBuilt)⟩
  simp only [roots, keeps, List.mem_append, List.mem_map]
  refine Or.inl (Or.inl (Or.inl (Or.inl (Or.inl (Or.inl ⟨address, ?_, rfl⟩)))))
  exact Or.inl (Or.inr isAddress)

/-- A rebind from a store whose records fit together completes. The rebuilt objects are those of
registered types, each records again what was loaded for it, and whatever an object refers to, at
any depth, leads to the very object rebuilt under that id, or nowhere where the id is a problem. -/
theorem perform_rebind_faithful (session : Session) (index : Nat) (manager : Manager)
    (settings : Settings) (stored : Delta Datum)
    (rebindable : session.Rebindable index manager settings stored) :
    ∃ outcome problems graph after ended,
      perform rebind session = (.ok (.finished (.ok outcome)), after) ∧
      after.outcome = some outcome ∧
      after.managers[index]? = some ended ∧ ended.state = .complete ∧
      ended.report = some (.ofOutcome outcome problems) ∧
      graph.byIds = settings.readByIds (Graph.empty.apply stored) ∧
      Faithful manager.registry graph outcome problems after.heap := by
  let forgotten : Session := { session with outcome := none, remembered := [] }
  have stillRebindable : forgotten.Rebindable index manager settings stored :=
    ⟨rebindable.inUse, rebindable.isManager, rebindable.isFree, rebindable.holds,
      rebindable.coherent, rebindable.basic, rebindable.accepts⟩
  obtain ⟨outcome, problems, graph, rebound, ran, isManager, sameGraph, faithful⟩ :=
    stillRebindable.runRebind_run nestedRebind
  let kept : Session := { rebound with outcome := some outcome }
  have rebindRan : rebind session = (.ok (.finished (.ok outcome)), kept) :=
    (bind_ok (rfl : forgetOutcome session = (.ok (), forgotten))).trans ((bind_ok ran).trans rfl)
  refine ⟨outcome, problems, graph, kept.sweep, _, ?_, rfl, isManager, rfl, rfl, sameGraph,
    faithful.kept (fun handle => rfl) ?_ fun address object => Heap.object?_of_sweep⟩
  · rw [perform]
    exact congrArg (fun ended : Except Refusal RebindEnd × Session => (ended.1, ended.2.sweep))
      rebindRan
  · intro kind id address object isBuilt isObject
    exact Heap.object?_sweep_of_root isObject (mem_roots_of_outcome rfl isBuilt) _ _

/-- Of a session, nothing has been changed but for objects that were dropped. -/
structure Dropped (before after : Session) : Prop where
  managers : after.managers = before.managers
  targets : ∀ handle, after.heap.target? handle = before.heap.target? handle
  objects : ∀ address object, after.heap.object? address = some object →
    before.heap.object? address = some object

/-- A rebind ends as it runs once the last outcome is forgotten, and drops objects at most, but none
that it has rebuilt. -/
theorem perform_rebind_ends {ended : RebindEnd} {after : Session}
    (ran : runRebind nestedRebind none { session with outcome := none, remembered := [] } =
      (.ok ended, after)) :
    ∃ swept, perform rebind session = (.ok ended, swept) ∧ after.Dropped swept ∧
      ∀ outcome, ended = .finished (.ok outcome) →
        ∀ kind id address object, (outcome.objects kind).get? id = some address →
          after.heap.object? address = some object → swept.heap.object? address = some object := by
  have forgets : forgetOutcome session =
      (.ok (), { session with outcome := none, remembered := [] }) := rfl
  have keeps : ∃ kept, rebind session = (.ok ended, { after with outcome := kept }) ∧
      ∀ outcome, ended = .finished (.ok outcome) → kept = some outcome := by
    rcases ended with (failure | outcome) | -
    · exact ⟨after.outcome, (bind_ok forgets).trans ((bind_ok ran).trans rfl), nofun⟩
    · refine ⟨some outcome, (bind_ok forgets).trans ((bind_ok ran).trans rfl), ?_⟩
      rintro _ ⟨⟩
      rfl
    · exact ⟨after.outcome, (bind_ok forgets).trans ((bind_ok ran).trans rfl), nofun⟩
  obtain ⟨kept, rebindRan, isKept⟩ := keeps
  refine ⟨Session.sweep { after with outcome := kept }, ?_, ⟨rfl, fun _ => rfl,
    fun address object => Heap.object?_of_sweep⟩, ?_⟩
  · rw [perform]
    exact congrArg (fun ended : Except Refusal RebindEnd × Session => (ended.1, ended.2.sweep))
      rebindRan
  · intro outcome isOutcome kind id address object isBuilt isObject
    exact Heap.object?_sweep_of_root isObject
      (mem_roots_of_outcome (isKept outcome isOutcome) isBuilt) _ _

/-! ## A ring of entities, and a policy of an unknown type -/

section Sample

private def sampleSettings : Settings := { Settings.default with format := .messagePack }

private def sampleHandle (id : String) (declaredType : Option String) : Handle :=
  ⟨0, id, declaredType⟩

/-- An application whose values lead, at several depths, to itself, its child and its place. -/
private def sampleRoot : EntityMemento LiveValue where
  common := (Common.blank "root" "App").withConfig "ring" (.list
    [.entity (sampleHandle "root" none), .entity (sampleHandle "leaf" (some "Part")),
      .map [("at", .location (sampleHandle "home" none)),
        ("child", .entity (sampleHandle "leaf" none))]])
  parent := none
  children := ["leaf"]
  locations := ["home"]
  policies := ["guard"]
  enrichers := []
  application := some "root"

private def sampleLeaf : EntityMemento LiveValue where
  common := Common.blank "leaf" "Part"
  parent := some "root"
  children := []
  locations := []
  policies := []
  enrichers := []
  application := some "root"

private def sampleDelta : Delta LiveValue :=
  ⟨[sampleRoot, sampleLeaf], [.blank "home" "Place"], [.blank "guard" "Unknown"], [], [], []⟩

private def sampleStore : MemoryStore :=
  (((MemoryStore.make sampleSettings).delta .empty sampleDelta).toOption).getD default

private def sampleStored : Delta Datum := (sampleStore.contents.toOption).getD .empty

private def sampleManager : Manager :=
  (Manager.make ⟨true, 1000, .lenient, default⟩
    (((Registry.empty.register .entity "App" .basic).register .entity "Part" .basic).register
      .location "Place" .basic)).mapPersister (Persister.setStore (some ⟨0⟩))

private def sampleSession : Session :=
  { Session.empty with
    managers := #[sampleManager], manager := some 0, stores := #[.memory sampleStore] }

/-- All but the policy has been rebuilt, and one application. -/
private def sampleShape : Except Refusal RebindEnd → Bool
  | .ok (.finished (.ok outcome)) =>
      outcome.entities.keys == ["leaf", "root"] && outcome.locations.keys == ["home"] &&
        outcome.policies.keys == [] && outcome.applications.length == 1
  | _ => false

/-- What the sample comes to, in one computation, since every part of it needs the records. -/
private theorem computed_sample :
    sampleStore.running = true ∧ sampleStore.contents.isOk = true ∧
      Coherent sampleStore.settings sampleStored ∧
      sampleShape (rebind sampleSession).1 = true := by
  decide +kernel

private theorem rebindable_sample :
    sampleSession.Rebindable 0 sampleManager sampleStore.settings sampleStored where
  inUse := rfl
  isManager := rfl
  isFree := rfl
  holds := by
    obtain ⟨isRunning, isRead, -⟩ := computed_sample
    exact ⟨⟨0⟩, .memory sampleStore, rfl, rfl, .memory isRunning (outcome_eq_ok_getD isRead .empty)⟩
  coherent := computed_sample.2.2.1
  basic := Registry.basic_of_entries (by decide +kernel)
  accepts := Or.inl rfl

theorem perform_rebind_faithful_ring :
    sampleSession.Rebindable 0 sampleManager sampleStore.settings sampleStored ∧
      ∃ outcome problems graph after ended,
        perform rebind sampleSession = (.ok (.finished (.ok outcome)), after) ∧
        outcome.entities.keys = ["leaf", "root"] ∧ outcome.locations.keys = ["home"] ∧
        outcome.policies.keys = [] ∧ outcome.applications.length = 1 ∧
        after.managers[0]? = some ended ∧ ended.state = .complete ∧
        graph.byIds = sampleStore.settings.readByIds (Graph.empty.apply sampleStored) ∧
        Faithful sampleManager.registry graph outcome problems after.heap := by
  obtain ⟨outcome, problems, graph, after, ended, ran, -, isManager, complete, -, sameGraph,
    faithful⟩ := perform_rebind_faithful sampleSession 0 sampleManager sampleStore.settings
      sampleStored rebindable_sample
  obtain ⟨-, -, -, shape⟩ := computed_sample
  rw [← result_perform rebind sampleSession, ran] at shape
  simp only [sampleShape, Bool.and_eq_true, beq_iff_eq] at shape
  obtain ⟨⟨⟨entities, locations⟩, policies⟩, applications⟩ := shape
  exact ⟨rebindable_sample, outcome, problems, graph, after, ended, ran, entities, locations,
    policies, applications, isManager, complete, sameGraph, faithful⟩

end Sample

end Session

end GraphCheckpoint
