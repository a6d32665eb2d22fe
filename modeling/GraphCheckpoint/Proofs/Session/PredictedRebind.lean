import GraphCheckpoint.Proofs.Dangling
import GraphCheckpoint.Proofs.Rebind.Missing
import GraphCheckpoint.Proofs.Session.FaithfulRebind
import GraphCheckpoint.Proofs.Store.Reachable

/-!
Contract: the check of the references in a store tells how a rebind from it ends.

Owns:
- `Encoding.Settings.Consistent`, the stored records with which only a missing object can stop a
  rebind;
- rebinding from such records, whether or not all references lead to records;
- what the tool finds to be missing in a store, and how its check ends;
- that a rebind completes if nothing is missing, and fails otherwise.

Does not own: what is rebuilt where nothing is missing.
-/

namespace GraphCheckpoint

variable {graph : Graph Datum} {live : Graph LiveValue} {heap : Heap}

/-! ## Loading -/

namespace Encoding.Settings

variable {settings : Settings}

/-- No id belongs to two kinds, and the types that references to an id expect of it are the same. -/
structure Consistent (settings : Settings) (graph : Graph Datum) : Prop where
  oneKind : graph.OneKind
  typed : ∀ one ∈ graph.valueReferences Value.referencesOfEntries,
    ∀ other ∈ graph.valueReferences Value.referencesOfEntries, one.2.id = other.2.id →
      ∀ declared ∈ one.2.expectedType, ∀ otherDeclared ∈ other.2.expectedType,
        settings.aliases.decodeName declared = settings.aliases.decodeName otherDeclared

instance : Decidable (settings.Consistent graph) :=
  decidable_of_iff (graph.OneKind ∧
    ∀ one ∈ graph.valueReferences Value.referencesOfEntries,
      ∀ other ∈ graph.valueReferences Value.referencesOfEntries, one.2.id = other.2.id →
        ∀ declared ∈ one.2.expectedType, ∀ otherDeclared ∈ other.2.expectedType,
          settings.aliases.decodeName declared = settings.aliases.decodeName otherDeclared)
    ⟨fun both => ⟨both.1, both.2⟩, fun consistent => ⟨consistent.oneKind, consistent.typed⟩⟩

/-- Consistent records that lack nothing fit together. -/
theorem Consistent.coherent (consistent : settings.Consistent graph) (keyed : graph.Keyed)
    (complete : graph.lacking = []) : Coherent settings (Delta.ofGraph graph) := by
  have named : ∀ key : ObjectKey, ((∃ kind, ∃ entry ∈ graph.records kind, key ∈ entry.2.links) ∨
      Asks graph key.kind key.id) → graph.Names key.kind key.id := by
    intro key isReferenced
    by_contra notNamed
    have isLacking := mem_lacking.mpr ⟨isReferenced, notNamed⟩
    rw [complete] at isLacking
    exact List.not_mem_nil isLacking
  have sameGraph := Graph.apply_ofGraph keyed
  refine ⟨?_, ?_, ?_, consistent.typed⟩
  · rw [sameGraph]
    exact consistent.oneKind
  · rw [sameGraph]
    exact fun kind entry member key isLink => named key (Or.inl ⟨kind, entry, member, isLink⟩)
  · rw [sameGraph]
    exact fun reference member =>
      named ⟨reference.1, reference.2.id⟩ (Or.inr ⟨reference, member, rfl, rfl⟩)

end Encoding.Settings

open GraphCheckpoint.Encoding

/-- Every record of the loaded graph has the links and the renamed type of a stored one. -/
theorem record_of_outline {names : String → String}
    (sameOutline : live.outline id = graph.outline names) {kind : ObjectKind}
    {entry : String × ObjectMemento LiveValue} (member : entry ∈ live.records kind) :
    ∃ stored ∈ graph.records kind,
      stored.2.links = entry.2.links ∧ names stored.2.typeName = entry.2.typeName := by
  have isOutlined : (entry.1, entry.2.converted (.forgetting id)) ∈
      (live.outline id).records kind := by
    rw [Graph.outline, Graph.records_convert]
    exact List.mem_map_of_mem member
  rw [sameOutline, Graph.outline, Graph.records_convert] at isOutlined
  obtain ⟨stored, isStored, same⟩ := List.mem_map.mp isOutlined
  have sameRecord := congrArg Prod.snd same
  refine ⟨stored, isStored, ?_, ?_⟩
  · have sameLinks := congrArg ObjectMemento.links sameRecord
    rwa [ObjectMemento.links_converted, ObjectMemento.links_converted] at sameLinks
  · have sameType := congrArg ObjectMemento.typeName sameRecord
    rwa [ObjectMemento.typeName_converted, ObjectMemento.typeName_converted] at sameType

/-! ## The check -/

namespace Tool

open GraphCheckpoint.Store

variable {store : FileStore} {disk : Disk}

/-- What is done under a description gives a result as it is. -/
theorem during_eq_ok {α : Type} {doing : String} {outcome : Outcome α} {result : α}
    {before after : Progress} (ran : during doing outcome before = (.ok result, after)) :
    outcome = .ok result := by
  cases outcome with
  | error failure => cases ran
  | ok found =>
      cases ran
      rfl

/-- A store that the tool has opened runs, with the settings that were asked for. -/
theorem opened_with {nowMs : Int} {directory : String} {settings : Settings}
    {before progress : Progress}
    (opens : openStore nowMs directory settings before = (.ok store, progress)) :
    store.running = true ∧ store.settings = settings := by
  rw [openStore] at opens
  obtain ⟨first, _, -, opens⟩ := bind_eq_ok opens
  dsimp only at opens
  split at opens
  · obtain ⟨_, _, failed, -⟩ := bind_eq_ok opens
    cases failed
  · obtain ⟨_, _, -, opens⟩ := bind_eq_ok opens
    obtain ⟨isRunning, sameOptions⟩ := FileStore.opened_with
      (Prod.ext (during_eq_ok opens) rfl : FileStore.openStore _ _ _ first.disk = (.ok store, _))
    exact ⟨isRunning, congrArg StoreOptions.settings sameOptions⟩

/-- A store that can be read is loaded, with placeholders for what its values ask for. -/
theorem loadStore_run (isRunning : store.running = true) (folds : store.fold disk = .ok graph)
    (printed : List String) :
    ∃ live lookup, loadStore store ⟨disk, printed⟩ = (.ok (live, lookup), ⟨disk, printed⟩) ∧
      lookup.Tracks (Settings.Asks graph) ∧ live.byIds = store.settings.readByIds graph := by
  obtain ⟨live, lookup, ran, tracks, same⟩ :=
    store.settings.resolveGraph_placeholders graph .empty
  refine ⟨live, lookup, ?_, tracks, same⟩
  have loads : (store.load disk PlaceholderLookup.resolver).run (.start .empty) =
      .ok (live, lookup) := by
    rw [FileStore.load_of_fold isRunning folds, ran]
  have reads : (get : Run Progress) ⟨disk, printed⟩ = (.ok ⟨disk, printed⟩, ⟨disk, printed⟩) := rfl
  rw [loadStore]
  refine (bind_ok reads).trans ?_
  simp only [loads]
  rfl

/-- A loop that prints a text for every key prints all of them. -/
theorem forIn_printLine_run (text : ObjectKey → String) (keys : List ObjectKey)
    (progress : Progress) :
    (forIn keys PUnit.unit (fun key _ => do
      printLine (text key)
      return ForInStep.yield PUnit.unit) : Run PUnit) progress =
        (.ok PUnit.unit, { progress with
          printed := progress.printed ++ keys.flatMap fun key => (text key).splitOn "\n" }) := by
  induction keys generalizing progress with
  | nil => simp; rfl
  | cons key rest inductionHypothesis =>
      have prints : (do
          printLine (text key)
          return ForInStep.yield PUnit.unit : Run (ForInStep PUnit)) progress =
            (.ok (.yield PUnit.unit), { progress with
              printed := progress.printed ++ (text key).splitOn "\n" }) := rfl
      rw [List.forIn_cons, List.flatMap_cons, ← List.append_assoc]
      exact (bind_ok prints).trans (inductionHypothesis _)

/-- How the check of a loaded graph ends, by what it has found to be missing. -/
def verdict (live : Graph LiveValue) (missing : List ObjectKey) (progress : Progress) :
    Except ToolError Unit × Progress :=
  if missing = [] then
    (.ok (), { progress with
      printed := progress.printed ++
        ("All references resolve (" ++ toString live.size ++ " objects)").splitOn "\n" })
  else
    (.error ⟨toString missing.length ++ " dangling reference(s)", none⟩, { progress with
      printed := progress.printed ++
        missing.flatMap fun key => ("missing " ++ key.kind.name ++ " " ++ key.id).splitOn "\n" })

theorem checkReferences_run {nowMs : Int} {directory : String} {settings : Settings}
    {before progress : Progress} {lookup : PlaceholderLookup}
    (opens : openStore nowMs directory settings before = (.ok store, progress))
    (loads : loadStore store progress = (.ok (live, lookup), progress)) :
    checkReferences nowMs directory settings before =
      verdict live (withPlaceholders live lookup (danglingReferences live)) progress := by
  rw [checkReferences]
  refine (bind_ok opens).trans ((bind_ok loads).trans ?_)
  dsimp only
  generalize withPlaceholders live lookup (danglingReferences live) = missing
  cases missing with
  | nil => rfl
  | cons key rest =>
      exact (bind_ok (forIn_printLine_run _ (key :: rest) progress)).trans rfl

end Tool

/-! ## Rebinding -/

namespace Session

open GraphCheckpoint.Store

variable {session : Session} {index : Nat} {manager : Manager} {which : StoreRef}
  {settings : Settings} {rebindFirst : Step (Outcome Nat)}

/-- What a session must hold for a rebind to be carried out: a manager that rebinds from a store
with these records, with factories of ordinary objects for all their types. -/
structure CanRebind (session : Session) (index : Nat) (manager : Manager) (settings : Settings)
    (graph : Graph Datum) : Prop where
  inUse : session.manager = some index
  isManager : session.managers[index]? = some manager
  isFree : manager.rebinding = false
  holds : ∃ which store, manager.store = some which ∧
    session.stores[which.index]? = some store ∧
    store.Holds session.disk settings (Delta.ofGraph graph)
  basic : manager.registry.Basic
  registered : ∀ kind, ∀ entry ∈ graph.records kind,
    manager.registry.contains kind (settings.aliases.decodeName entry.2.typeName) = true

theorem CanRebind.rebindsFrom (canRebind : session.CanRebind index manager settings graph) :
    session.RebindsFrom index manager settings (Delta.ofGraph graph) :=
  ⟨canRebind.inUse, canRebind.isManager, canRebind.isFree, canRebind.holds⟩

/-- A rebind ends with all references leading to records, or fails. If it fails for want of an
object, the stored records refer to the object without there being a record of it. -/
theorem CanRebind.runRebind_ends (canRebind : session.CanRebind index manager settings graph)
    (keyed : graph.Keyed) :
    ∃ ended after last, runRebind rebindFirst none session = (.ok (.finished ended), after) ∧
      after.managers[index]? = some last ∧
      ((∃ stage cause, ended = .error (.rebindFailed stage cause) ∧ last.state = .failed ∧
          cause.Blames fun key => key ∈ graph.lacking) ∨
        ((∃ outcome, ended = .ok outcome) ∧ last.state = .complete ∧ graph.lacking = [])) := by
  obtain ⟨result, after, ran, isLast, -, ends⟩ :=
    canRebind.rebindsFrom.runRebind_ends rebindFirst
  refine ⟨_, after, _, ran, isLast, ?_⟩
  rcases ends with ⟨failure, disagrees, rfl⟩ | ⟨live, arena, retrieved, rfl⟩
  · obtain ⟨detail, rfl⟩ := Mention.exists_detail_of_disagreement? disagrees
    exact Or.inl ⟨_, _, rfl, rfl, Failure.blames_of_other rfl⟩
  have sameOutline := outline_of_seen retrieved.same
  rw [Graph.apply_ofGraph keyed] at sameOutline
  have registered : ∀ kind, ∀ entry ∈ live.records kind,
      manager.registry.contains kind entry.2.typeName = true := by
    intro kind entry member
    obtain ⟨stored, isStored, -, sameType⟩ := record_of_outline sameOutline member
    rw [← sameType]
    exact canRebind.registered kind stored isStored
  let refers : ObjectKey → Prop := fun key =>
    (∃ kind, ∃ entry ∈ graph.records kind, key ∈ entry.2.links) ∨
      Settings.Asks graph key.kind key.id
  have areLinks : ∀ kind, ∀ entry ∈ live.records kind, ∀ key ∈ entry.2.links, refers key := by
    intro kind entry member key isLink
    obtain ⟨stored, isStored, sameLinks, -⟩ := record_of_outline sameOutline member
    exact Or.inl ⟨kind, stored, isStored, sameLinks ▸ isLink⟩
  have sameNames := Graph.names_of_converted sameOutline
  have rebuilding : Ends _ (⟨arena, [], [], []⟩ : PassState) _ _ :=
    Pass.rebuilding_ends (begun manager).config.typeResolution canRebind.basic registered
      retrieved.meets (fun kind id isAsked => (Or.inr isAsked : refers ⟨kind, id⟩)) areLinks
  rcases (begun manager).rebuild_ends_of rebuilding with
    ⟨stage, cause, failed, isFailed, blames⟩ | ⟨outcome, completed, isComplete, found, linked⟩
  · refine Or.inl ⟨stage, cause, failed, isFailed, blames.imp fun key found => ?_⟩
    rw [sameNames] at found
    exact Settings.mem_lacking.mpr found
  · refine Or.inr ⟨⟨outcome, completed⟩, isComplete, ?_⟩
    refine List.eq_nil_iff_forall_not_mem.mpr fun key isLacking => ?_
    obtain ⟨isReferenced, notNamed⟩ := Settings.mem_lacking.mp isLacking
    rcases isReferenced with ⟨kind, entry, member, isLink⟩ | isAsked
    · have storedLinked := (Graph.linked_of_converted sameOutline).mp linked
      exact notNamed (storedLinked kind entry member key isLink)
    · exact notNamed (sameNames ▸ found key.kind key.id isAsked)

/-- A rebind from consistent records that lack nothing completes. -/
theorem CanRebind.rebindable (canRebind : session.CanRebind index manager settings graph)
    (keyed : graph.Keyed) (consistent : settings.Consistent graph) (complete : graph.lacking = []) :
    session.Rebindable index manager settings (Delta.ofGraph graph) where
  inUse := canRebind.inUse
  isManager := canRebind.isManager
  isFree := canRebind.isFree
  holds := canRebind.holds
  coherent := consistent.coherent keyed complete
  basic := canRebind.basic
  accepts := by
    refine Or.inr fun kind entry member => ?_
    rw [Graph.apply_ofGraph keyed, Settings.readByIds, Graph.records_convert] at member
    obtain ⟨stored, isStored, rfl⟩ := List.mem_map.mp member
    rw [ObjectMemento.typeName_converted]
    exact canRebind.registered kind stored isStored

/-- A rebind from consistent records completes if they lack nothing, and fails otherwise. -/
theorem CanRebind.runRebind_iff (canRebind : session.CanRebind index manager settings graph)
    (keyed : graph.Keyed) (consistent : settings.Consistent graph) :
    ∃ ended after last, runRebind nestedRebind none session = (.ok (.finished ended), after) ∧
      after.managers[index]? = some last ∧
      (last.state = .complete ↔ graph.lacking = []) ∧
      ((∃ outcome, ended = .ok outcome) ↔ graph.lacking = []) ∧
      ∀ failure, ended = .error failure → failure.isNoSuchObject = true →
        ∃ stage, ∃ key ∈ graph.lacking,
          failure = .rebindFailed stage (.noSuchObject key.kind key.id) := by
  by_cases complete : graph.lacking = []
  · obtain ⟨outcome, _, _, after, ran, isLast, -, -⟩ :=
      (canRebind.rebindable keyed consistent complete).runRebind_run nestedRebind
    refine ⟨_, after, _, ran, isLast, iff_of_true rfl complete,
      iff_of_true ⟨outcome, rfl⟩ complete, fun failure failed => ?_⟩
    cases failed
  · obtain ⟨ended, after, last, ran, isLast, ends⟩ :=
      @runRebind_ends _ _ _ _ _ nestedRebind canRebind keyed
    obtain ⟨stage, cause, rfl, isFailed, blames⟩ := ends.resolve_right fun found =>
      complete found.2.2
    refine ⟨_, after, last, ran, isLast, iff_of_false (fun isComplete => ?_) complete,
      iff_of_false (fun succeeds => ?_) complete, fun failure failed isMissing => ?_⟩
    · rw [isFailed] at isComplete
      cases isComplete
    · obtain ⟨_, isOutcome⟩ := succeeds
      cases isOutcome
    · cases failed
      obtain ⟨key, rfl, isLacking⟩ := blames isMissing
      exact ⟨stage, key, isLacking, rfl⟩

/-- A rebind ends as it runs once the last outcome is forgotten, and leaves the managers so. -/
theorem perform_rebind_of_run {ended : RebindEnd} {after : Session}
    (ran : runRebind nestedRebind none { session with outcome := none, remembered := [] } =
      (.ok ended, after)) :
    ∃ swept, perform rebind session = (.ok ended, swept) ∧ swept.managers = after.managers := by
  obtain ⟨swept, performed, dropped, -⟩ := perform_rebind_ends ran
  exact ⟨swept, performed, dropped.managers⟩

/-- The tool's check of the references in a store predicts a rebind from it. The placeholders of the
loaded references add nothing to what the loaded graph is missing, and the check succeeds if that is
nothing. In that case alone the rebind completes, and where it fails for want of an object, the
object is one of the missing ones. -/
theorem perform_rebind_predicted (session : Session) (index : Nat) (manager : Manager) (nowMs : Int)
    (directory : String) (settings : Settings) (before progress : Tool.Progress)
    (store : FileStore) (graph : Graph Datum)
    (opens : Tool.openStore nowMs directory settings before = (.ok store, progress))
    (folds : store.fold progress.disk = .ok graph)
    (consistent : settings.Consistent graph)
    (canRebind : session.CanRebind index manager settings graph) :
    ∃ live lookup ended after last,
      Tool.loadStore store progress = (.ok (live, lookup), progress) ∧
      Tool.withPlaceholders live lookup (Tool.danglingReferences live) =
        Tool.danglingReferences live ∧
      Tool.checkReferences nowMs directory settings before =
        Tool.verdict live (Tool.danglingReferences live) progress ∧
      perform rebind session = (.ok (.finished ended), after) ∧
      after.managers[index]? = some last ∧
      (last.state = .complete ↔ Tool.danglingReferences live = []) ∧
      ((∃ outcome, ended = .ok outcome) ↔ Tool.danglingReferences live = []) ∧
      ∀ failure, ended = .error failure → failure.isNoSuchObject = true →
        ∃ stage, ∃ key ∈ Tool.danglingReferences live,
          failure = .rebindFailed stage (.noSuchObject key.kind key.id) := by
  obtain ⟨isRunning, rfl⟩ := Tool.opened_with opens
  obtain ⟨live, lookup, loads, tracks, sameGraph⟩ :=
    Tool.loadStore_run isRunning folds progress.printed
  have nothingMore := Settings.withPlaceholders_eq tracks sameGraph
  have checks := Tool.checkReferences_run opens loads
  rw [nothingMore] at checks
  let forgotten : Session := { session with outcome := none, remembered := [] }
  have stillCan : forgotten.CanRebind index manager store.settings graph :=
    ⟨canRebind.inUse, canRebind.isManager, canRebind.isFree, canRebind.holds, canRebind.basic,
      canRebind.registered⟩
  obtain ⟨ended, rebound, last, ran, isLast, completes, succeeds, fails⟩ :=
    stillCan.runRebind_iff (FileStore.keyed_fold folds) consistent
  obtain ⟨after, performed, sameManagers⟩ := perform_rebind_of_run ran
  rw [← Settings.danglingReferences_eq sameGraph] at completes succeeds fails
  exact ⟨live, lookup, ended, after, last, loads, nothingMore, checks, performed,
    sameManagers ▸ isLast, completes, succeeds, fails⟩

/-! ## An entity and a policy that were never stored -/

section Missing

private def missingSettings : Settings := ⟨.json, .empty⟩

/-- An application with a child and a policy that have no records, and a place that has one. -/
private def missingRoot : EntityMemento LiveValue where
  common := (Common.blank "root" "App").withConfig "links" (.list
    [.entity ⟨0, "root", some "App"⟩, .map [("at", .location ⟨1, "home", none⟩)],
      .entity ⟨2, "leaf", none⟩])
  parent := none
  children := ["leaf"]
  locations := ["home"]
  policies := ["guard"]
  enrichers := []
  application := some "root"

private def missingDelta : Delta LiveValue :=
  ⟨[missingRoot], [.blank "home" "Place"], [], [], [], []⟩

/-- The disk on which a store has written the records. -/
private def missingDisk : Disk :=
  let (opened, disk) := FileStore.openStore 0 "d" ⟨.sync, 0, missingSettings⟩ Disk.empty
  (FileStore.delta .empty 0 missingDelta (opened.toOption.getD default, disk)).2.2

private def missingOpened : Except Tool.ToolError FileStore × Tool.Progress :=
  Tool.openStore 0 "d" missingSettings ⟨missingDisk, []⟩

private def missingStore : FileStore := missingOpened.1.toOption.getD default

private def missingProgress : Tool.Progress := missingOpened.2

private def missingGraph : Graph Datum :=
  (missingStore.fold missingProgress.disk).toOption.getD Graph.empty

private def missingManager : Manager :=
  (Manager.make ⟨true, 1000, .lenient, default⟩
    ((Registry.empty.register .entity "App" .basic).register .location "Place" .basic)).mapPersister
      (Persister.setStore (some ⟨0⟩))

private def missingSession : Session :=
  { Session.empty with
    managers := #[missingManager], manager := some 0, stores := #[.file missingStore]
    disk := missingProgress.disk }

private def missingKeys : List ObjectKey := [⟨.entity, "leaf"⟩, ⟨.policy, "guard"⟩]

private def missingLoaded : Graph LiveValue × PlaceholderLookup :=
  (Tool.loadStore missingStore missingProgress).1.toOption.getD (Graph.empty, .start .empty)

private def missingFailure : Failure :=
  .rebindFailed RebindState.hydrating.name (.noSuchObject .entity "leaf")

private def missingEnd : Except Refusal RebindEnd → Bool
  | .ok (.finished (.error failure)) => failure == missingFailure
  | _ => false

/-- What the sample comes to, in one computation, since every part of it needs the disk. -/
private theorem computed_missing :
    missingOpened.1.isOk = true ∧ (missingStore.fold missingProgress.disk).isOk = true ∧
      missingSettings.Consistent missingGraph ∧
      (∀ kind ∈ ObjectKind.all, ∀ entry ∈ missingGraph.records kind,
        missingManager.registry.contains kind
          (missingSettings.aliases.decodeName entry.2.typeName) = true) ∧
      Tool.danglingReferences missingLoaded.1 = missingKeys ∧
      missingEnd (rebind missingSession).1 = true := by
  decide +kernel

private theorem opens_missing : Tool.openStore 0 "d" missingSettings ⟨missingDisk, []⟩ =
    (.ok missingStore, missingProgress) :=
  Prod.ext (outcome_eq_ok_getD computed_missing.1 default) rfl

private theorem fold_missing : missingStore.fold missingProgress.disk = .ok missingGraph :=
  outcome_eq_ok_getD computed_missing.2.1 Graph.empty

private theorem canRebind_missing :
    missingSession.CanRebind 0 missingManager missingSettings missingGraph where
  inUse := rfl
  isManager := rfl
  isFree := rfl
  holds := by
    obtain ⟨isRunning, sameSettings⟩ := Tool.opened_with opens_missing
    exact ⟨⟨0⟩, .file missingStore, rfl, rfl, sameSettings ▸ .file isRunning fold_missing⟩
  basic := Registry.basic_of_entries (by decide +kernel)
  registered := by
    obtain ⟨-, -, -, registered, -⟩ := computed_missing
    exact fun kind => registered kind kind.mem_all

/-- The child is asked for by a value, so the rebind fails before it comes to the links. -/
theorem perform_rebind_predicted_missing :
    Tool.openStore 0 "d" missingSettings ⟨missingDisk, []⟩ = (.ok missingStore, missingProgress) ∧
      missingStore.fold missingProgress.disk = .ok missingGraph ∧
      missingSettings.Consistent missingGraph ∧
      missingSession.CanRebind 0 missingManager missingSettings missingGraph ∧
      ∃ live lookup after last,
        Tool.loadStore missingStore missingProgress = (.ok (live, lookup), missingProgress) ∧
        Tool.danglingReferences live = missingKeys ∧
        Tool.withPlaceholders live lookup missingKeys = missingKeys ∧
        Tool.checkReferences 0 "d" missingSettings ⟨missingDisk, []⟩ =
          Tool.verdict live missingKeys missingProgress ∧
        perform rebind missingSession = (.ok (.finished (.error missingFailure)), after) ∧
        after.managers[0]? = some last ∧ last.state ≠ .complete := by
  obtain ⟨-, -, consistent, -, danglings, ends⟩ := computed_missing
  obtain ⟨live, lookup, ended, after, last, loads, nothingMore, checks, ran, isLast, completes,
    -⟩ := perform_rebind_predicted missingSession 0 missingManager 0 "d" missingSettings
      ⟨missingDisk, []⟩ missingProgress missingStore missingGraph opens_missing fold_missing
      consistent canRebind_missing
  have isDangling : Tool.danglingReferences live = missingKeys := by
    rw [← danglings, missingLoaded, loads]
    rfl
  rw [isDangling] at nothingMore checks completes
  rw [← result_perform rebind missingSession, ran] at ends
  obtain failure | outcome := ended
  · rw [beq_iff_eq.mp ends] at ran
    refine ⟨opens_missing, fold_missing, consistent, canRebind_missing, live, lookup, after, last,
      loads, isDangling, nothingMore, checks, ran, isLast, fun isComplete => ?_⟩
    cases completes.mp isComplete
  · cases ends

end Missing

end Session

end GraphCheckpoint
