import GraphCheckpoint.Proofs.Rebind.Refusals
import GraphCheckpoint.Proofs.Session.StrictRebind

/-!
Contract: what a rebind comes to whose graph keeps to no rules.

Owns:
- `Manager.logged`, the rebind of a manager with the log of its pass;
- `Manager.Foreseen`, what the calls of a rebind return, and how it ends where an id is of two kinds;
- that every rebind is foreseen whose factories keep ids, whatever its store has loaded;
- that what a session loads for a rebind, from whatever store, is such as this asks for.

Does not own: what becomes of references between the records.

A graph may have keys that are not the ids of its records, ids of several kinds, and references of any
kind to any id.
-/

namespace GraphCheckpoint

variable {graph : Graph LiveValue} {registry : Registry}

/-! ## Loading -/

/-- Ids are looked up while records are loaded, and a look-up may fail. -/
def lending : Progress Arena where
  kept := Arena.Lent
  fails := fun _ => True
  later := fun _ _ => True
  refl := fun _ => trivial
  trans := fun _ _ _ _ _ => trivial

theorem lending_resolver (kind : ObjectKind) (id : String) (expected : Option String) :
    lending.Yields (Arena.resolver kind id expected) fun _ _ => () = () := by
  intro arena lent
  rcases ran : (Arena.resolver kind id expected).run arena with failure | ⟨handle, after⟩
  · exact Or.inl ⟨failure, rfl, trivial⟩
  · exact Or.inr ⟨handle, after, rfl, .lookUp lent ran, trivial, fun _ _ => rfl⟩

/-- Stored records, whatever they refer to, are loaded by look-ups alone, and the graph has them in
order. -/
theorem Encoding.Settings.lent_of_resolveRecords {settings : Encoding.Settings} {stored : Delta Datum}
    {heap : Heap} {arena : Arena}
    (loads : (settings.resolveRecords Arena.resolver stored).run (.start heap) =
      .ok (graph, arena)) : arena.Lent ∧ graph.Ordered := by
  have ordered : graph.Ordered := by
    rcases settings.resolveRecords_ends stored heap with ⟨_, -, fails⟩ | ⟨_, _, again, retrieved⟩
    · cases fails.symm.trans loads
    · cases again.symm.trans loads
      exact retrieved.keyed.ordered
  refine ⟨?_, ordered⟩
  rw [resolveRecords, StateT.run_bind] at loads
  rcases @Delta.yields_convert _ Reference Handle Unit CellId lending settings.aliases.decodeName
      settings.find (fun _ _ => ()) (fun _ => ()) stored
      (fun reference _ => lending_resolver reference.1 reference.2.id _)
      (Arena.start heap) (.start heap) with ⟨failure, fails, -⟩ | ⟨live, after, ran, lent, -⟩
  · have failed : (stored.convert (settings.reading Arena.resolver)).run (.start heap) =
        .error failure := fails
    rw [failed] at loads
    cases loads
  · have converted : (stored.convert (settings.reading Arena.resolver)).run (.start heap) =
        .ok (live, after) := ran
    rw [converted] at loads
    cases loads
    exact lent

namespace Session

open GraphCheckpoint.Store

variable {session after : Session} {which : StoreRef} {rebindFirst : Step (Outcome Nat)} {heap : Heap}
  {arena : Arena}

/-- A recording store gives the graph that it has been given, and leaves the arena alone. -/
theorem start_of_loadInto_recording {store : RecordingStore}
    (isStore : session.stores[which.index]? = some (.recording store))
    (loads : loadInto rebindFirst which (.start heap) session =
      (.ok (some (.ok (graph, arena))), after)) : arena = .start heap ∧ store.graph = graph := by
  have given : ∀ last : Session,
      (return some (store.load.map fun loaded => (loaded, Arena.start heap)) : Step _) last =
        (.ok (some (.ok (graph, arena))), after) → arena = .start heap ∧ store.graph = graph := by
    intro last ran
    rcases isLoaded : store.load with failure | loaded <;> rw [isLoaded] at ran <;> cases ran
    rw [RecordingStore.load] at isLoaded
    split at isLoaded <;> cases isLoaded
    exact ⟨rfl, rfl⟩
  rw [loadInto, bind_ok (storeAt_run isStore)] at loads
  cases reaction : store.reactions.onLoad with
  | none =>
      simp only [reaction] at loads
      exact given session loads
  | some onLoad =>
      cases onLoad with
      | stall =>
          simp only [reaction] at loads
          cases loads
      | rebind =>
          simp only [reaction] at loads
          obtain ⟨_, _, -, loads⟩ := bind_eq_ok loads
          obtain ⟨_, last, -, loads⟩ := bind_eq_ok loads
          exact given last loads

/-- Whatever store a session loads from, the arena is lent. The graph is in order, unless it is one that
a recording store has been given. -/
theorem lent_of_loadInto (loads : loadInto rebindFirst which (.start heap) session =
      (.ok (some (.ok (graph, arena))), after)) :
    arena.Lent ∧ (graph.Ordered ∨ ∃ store : RecordingStore,
      session.stores[which.index]? = some (.recording store) ∧ store.graph = graph) := by
  have ofRecords : ∀ store settings stored, session.stores[which.index]? = some store →
      store.Holds session.disk settings stored → arena.Lent ∧ graph.Ordered := by
    intro store settings stored isStore holds
    have ran := loadInto_run rebindFirst isStore holds heap
    have same := Option.some.inj (Except.ok.inj (congrArg Prod.fst (ran.symm.trans loads)))
    exact Encoding.Settings.lent_of_resolveRecords same
  cases isStore : session.stores[which.index]? with
  | none =>
      have gone : storeAt which session = (.error (.misuse "a store that is gone"), session) := by
        refine (bind_ok get_run).trans ?_
        rw [isStore]
        rfl
      cases (bind_error gone).symm.trans loads
  | some store =>
      cases store with
      | memory store =>
          have ran : loadInto rebindFirst which (.start heap) session =
              (.ok (some ((store.load Arena.resolver).run (.start heap))), session) :=
            (bind_ok (storeAt_run isStore)).trans rfl
          have loaded := Option.some.inj (Except.ok.inj (congrArg Prod.fst (ran.symm.trans loads)))
          obtain ⟨stored, isStored⟩ := MemoryStore.exists_contents loaded
          have isRunning := MemoryStore.running_of_load loaded
          exact (ofRecords _ _ _ isStore (.memory isRunning isStored)).imp_right Or.inl
      | file store =>
          have ran : loadInto rebindFirst which (.start heap) session =
              (.ok (some ((store.load session.disk Arena.resolver).run (.start heap))), session) :=
            (bind_ok (storeAt_run isStore)).trans ((bind_ok get_run).trans rfl)
          have loaded := Option.some.inj (Except.ok.inj (congrArg Prod.fst (ran.symm.trans loads)))
          obtain ⟨isRunning, folded, isFolded⟩ := FileStore.exists_fold_of_load loaded
          exact (ofRecords _ _ _ isStore (.file isRunning isFolded)).imp_right Or.inl
      | recording store =>
          obtain ⟨rfl, isGraph⟩ := start_of_loadInto_recording isStore loads
          exact ⟨.start heap, Or.inr ⟨store, rfl, isGraph⟩⟩

end Session

/-! ## Rebinds with a log -/

namespace Manager

variable {manager : Manager} {pass : PassState}

/-- What is left to do of a rebind when its graph has been loaded, with the log of what is registered
and built. -/
def logged (registry : Registry) (graph : Graph LiveValue) (pass : PassState) (manager : Manager) :
    Outcome RebindOutcome × CallHistory :=
  (LoggedPass.rebuild registry manager.config.typeResolution graph).run.run ⟨[], pass⟩

/-- The rebind ends as it does with the log. -/
structure Shown (registry : Registry) (graph : Graph LiveValue) (pass : PassState)
    (manager : Manager) : Prop where
  completes : ∀ outcome history, manager.logged registry graph pass = (.ok outcome, history) →
    manager.finishRebind registry (.ok graph) pass =
      ⟨.ok outcome, history.state, manager.completeRebind outcome history.state.problems⟩
  fails : ∀ failure history, manager.logged registry graph pass = (.error failure, history) →
    ∃ stage, manager.finishRebind registry (.ok graph) pass =
      manager.failed stage failure history.state

theorem shown (registry : Registry) (graph : Graph LiveValue) (pass : PassState)
    (manager : Manager) : manager.Shown registry graph pass := by
  have mirrored : (Pass.registerAll graph >>= fun _ =>
      Pass.hydrate registry manager.config.typeResolution graph) pass =
      ((manager.logged registry graph pass).1, (manager.logged registry graph pass).2.state) :=
    LoggedPass.mirrors_rebuild ⟨[], pass⟩
  have isRebuild : manager.finishRebind registry (.ok graph) pass =
      (manager.withResolution manager.config.typeResolution).rebuild registry graph pass := rfl
  rcases registered : Pass.registerAll graph pass with ⟨failure | _, middle⟩
  · rw [bind_error registered] at mirrored
    refine ⟨fun outcome history isLogged => ?_, fun other history isLogged => ⟨.loading, ?_⟩⟩ <;>
      rw [isLogged] at mirrored <;> cases mirrored
    exact rebuild_of_unregistered _ registered
  · rw [bind_ok registered] at mirrored
    refine ⟨fun outcome history isLogged => ?_, fun failure history isLogged => ⟨.hydrating, ?_⟩⟩ <;>
      rw [isLogged] at mirrored
    · exact isRebuild.trans (manager.rebuild_of_ok registered mirrored)
    · exact isRebuild.trans (manager.rebuild_of_error registered mirrored)

/-- What the calls of a rebind return, whatever has been loaded. -/
structure Foreseen (registry : Registry) (graph : Graph LiveValue) (pass : PassState)
    (manager : Manager) : Prop where
  /-- The log is that of the rebind. -/
  shown : manager.Shown registry graph pass
  /-- Its calls are the registration of each record and then the building of each object, as far as
  the rebind comes. -/
  planned : (manager.logged registry graph pass).2.events.map Prod.fst <+: graph.plan
  /-- A rebind that completes has made all of them. -/
  whole : ∀ outcome, (manager.logged registry graph pass).1 = .ok outcome →
    (manager.logged registry graph pass).2.events.map Prod.fst = graph.plan
  /-- Registration is refused only for an id of another kind, and building only for an unknown type. -/
  expected : ∀ event ∈ (manager.logged registry graph pass).2.events, event.Expected registry
  /-- No record is found to have been loaded twice, and no slot to be bound already. -/
  neverInvalid : ∀ call text,
    (call, .error (.invalidState text)) ∉ (manager.logged registry graph pass).2.events
  /-- And no object is built that has no reference. -/
  neverMissing : ∀ call kind id,
    (call, .error (.noSuchObject kind id)) ∉ (manager.logged registry graph pass).2.events
  /-- Where an id has records of two kinds, the rebind fails as it loads, for an id of another kind
  than a record says, and no object has been made. -/
  clashing : ∀ id one other, graph.Names one id → graph.Names other id → one ≠ other →
    ∃ clash existing wanted after, existing ≠ wanted ∧
      manager.finishRebind registry (.ok graph) pass =
        manager.failed .loading (.kindClash clash existing wanted) after ∧
      after.arena.heap.objects = pass.arena.heap.objects ∧
      (manager.logged registry graph pass).2.events.map Prod.fst <+: graph.calls .register

/-- Whatever a store has loaded by look-ups, and whatever types there are. -/
theorem finishRebind_foreseen (manager : Manager) (keeps : registry.KeepsIds)
    (lent : pass.arena.Lent) (ordered : graph.Ordered) : manager.Foreseen registry graph pass := by
  have tells : TellsOf registry graph (manager.logged registry graph pass).2 ∧
      ∀ outcome, (manager.logged registry graph pass).1 = .ok outcome →
        Tells registry graph.plan (manager.logged registry graph pass).2.events := by
    rcases LoggedPass.rebuild_tells lent ordered keeps manager.config.typeResolution with
      ⟨failure, after, ran, tellsOf⟩ | ⟨outcome, after, ran, tells⟩
    · have isLogged : manager.logged registry graph pass = (.error failure, after) := ran
      rw [isLogged]
      exact ⟨tellsOf, nofun⟩
    · have isLogged : manager.logged registry graph pass = (.ok outcome, after) := ran
      rw [isLogged]
      exact ⟨⟨_, List.prefix_rfl, tells⟩, fun _ _ => tells⟩
  obtain ⟨⟨done, isPart, tellsPart⟩, tellsWhole⟩ := tells
  refine {
    shown := shown registry graph pass manager
    planned := tellsPart.calls ▸ isPart
    whole := fun outcome isOk => (tellsWhole outcome isOk).calls
    expected := tellsPart.expected
    neverInvalid := fun call text isEvent => nomatch tellsPart.expected _ isEvent
    neverMissing := fun call kind id isEvent => nomatch tellsPart.expected _ isEvent
    clashing := fun id one other isOne isOther differs => ?_ }
  rcases LoggedPass.registerAll_clashes lent ordered registry with
    ⟨failure, after, ran, clashed⟩ | ⟨_, _, _, oneKind⟩
  · have isLogged : manager.logged registry graph pass = (.error failure, after) :=
      bind_error ran
    have registered : Pass.registerAll graph pass = (.error failure, after.state) := by
      rw [LoggedPass.mirrors_registerAll graph ⟨[], pass⟩, ran]
    obtain ⟨clash, existing, wanted, isOther, rfl⟩ := clashed.clashes
    obtain ⟨done, isPart, tells⟩ := clashed.tells
    refine ⟨clash, existing, wanted, after.state, isOther, ?_, clashed.unbuilt, ?_⟩
    · exact rebuild_of_unregistered _ registered
    · rw [isLogged, tells.calls]
      exact isPart
  · exact absurd (oneKind one other id isOne isOther) differs

/-! ## Records under keys of others, and an id of two kinds -/

section Sample

private def foreseenRegistry : Registry := Registry.empty.register .entity "App" .basic

private def foreseenManager : Manager := .make ⟨true, 1000, .lenient, default⟩ foreseenRegistry

/-- An entity of an unknown type has been looked up. -/
private def foreseenPass : PassState :=
  ⟨((Arena.start default).add .entity "b" (some "Gone") false).2, [], [], []⟩

/-- Two entities, each under the id of the other. -/
private def swappedGraph : Graph LiveValue where
  entities := [("a", EntityMemento.blank "b" "App"), ("b", EntityMemento.blank "a" "Gone")]
  locations := []
  policies := []

/-- An entity and a location under one id. -/
private def sharedGraph : Graph LiveValue where
  entities := [("a", EntityMemento.blank "a" "App")]
  locations := [("a", LocationMemento.blank "a" "Host")]
  policies := []

/-- The first graph is rebuilt but for the entity of the unknown type, and the second fails as it is
loaded. -/
theorem finishRebind_foreseen_swapped :
    foreseenRegistry.KeepsIds ∧ foreseenPass.arena.Lent ∧ swappedGraph.Ordered ∧
      sharedGraph.Ordered ∧
      foreseenManager.Foreseen foreseenRegistry swappedGraph foreseenPass ∧
      (foreseenManager.logged foreseenRegistry swappedGraph foreseenPass).2.events =
        [(.register .entity "a" "App", .ok none), (.register .entity "b" "Gone", .ok none),
          (.build .entity "a" "App", .ok none),
          (.build .entity "b" "Gone", .error (.typeNotFound "Gone"))] ∧
      ∃ clash existing wanted after, existing ≠ wanted ∧
        foreseenManager.finishRebind foreseenRegistry (.ok sharedGraph) foreseenPass =
          foreseenManager.failed .loading (.kindClash clash existing wanted) after ∧
        after.arena.heap.objects = foreseenPass.arena.heap.objects := by
  have keeps : foreseenRegistry.KeepsIds := Registry.keepsIds_of_entries (by decide)
  have lent : foreseenPass.arena.Lent := .lookUp (.start default) rfl
  have swappedOrdered : swappedGraph.Ordered := by decide
  have sharedOrdered : sharedGraph.Ordered := by decide
  have shared := finishRebind_foreseen foreseenManager keeps lent sharedOrdered
  obtain ⟨clash, existing, wanted, after, differs, fails, sameObjects, -⟩ :=
    shared.clashing "a" .entity .location rfl rfl (by decide)
  exact ⟨keeps, lent, swappedOrdered, sharedOrdered,
    finishRebind_foreseen foreseenManager keeps lent swappedOrdered, rfl,
    clash, existing, wanted, after, differs, fails, sameObjects⟩

end Sample

end Manager

end GraphCheckpoint
