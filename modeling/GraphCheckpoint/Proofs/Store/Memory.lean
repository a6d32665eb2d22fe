import GraphCheckpoint.Proofs.Asking
import GraphCheckpoint.Proofs.Placeholders
import GraphCheckpoint.Proofs.Readable
import GraphCheckpoint.Store.Memory

/-!
Contract: what a memory store holds.

Owns:
- `Settings.resolveRecords`, the graph of records that are resolved one after another;
- `MemoryStore.contents`, the records that are read of a store, and that loading resolves them;
- that a running store loads its contents with placeholders, and that every record of it can then be
  read;
- what a delta and a checkpoint leave, and which records of a delta must be readable for the store to
  load again.

Does not own: which trees are readable.
-/

namespace GraphCheckpoint.Encoding.Settings

variable {σ : Type}

/-- The live graph of stored records, each of which goes under its own id. -/
def resolveRecords (settings : Settings) (lookup : Lookup σ) (stored : Delta Datum) :
    StateT σ Outcome (Graph LiveValue) := do
  let live ← stored.convert (settings.reading lookup)
  return Graph.empty.apply live

/-- The records of a keyed graph resolve to this graph: those that come of them have the same ids, so
that each goes back under its key. -/
theorem resolveRecords_ofGraph (settings : Settings) (lookup : Lookup σ) {graph : Graph Datum}
    (keyed : graph.Keyed) :
    settings.resolveRecords lookup (Delta.ofGraph graph) = settings.resolveGraph lookup graph := by
  have asRecords : settings.resolveRecords lookup (Delta.ofGraph graph) =
      (fun live => Graph.empty.apply (Delta.ofGraph live)) <$>
        settings.resolveGraph lookup graph := by
    rw [resolveRecords, Graph.convert_ofGraph, bind_map_left]
    exact (map_eq_pure_bind _ _).symm
  funext state
  change (settings.resolveRecords lookup _).run state = (settings.resolveGraph lookup graph).run state
  rw [asRecords, StateT.run_map]
  rcases run_of_map (Graph.outline_convert (Conversion.asks_resolving _ _) graph) state with
    ⟨failure, -, failed⟩ | ⟨live, after, -, ran, sameOutline⟩
  · have unresolved : (settings.resolveGraph lookup graph).run state = .error failure := failed
    rw [unresolved]
    rfl
  · have resolved : (settings.resolveGraph lookup graph).run state = .ok (live, after) := ran
    rw [resolved]
    exact congrArg (fun whole => Except.ok (whole, after))
      (Graph.apply_ofGraph ((Graph.keyed_of_converted sameOutline).mpr keyed))

end GraphCheckpoint.Encoding.Settings

namespace GraphCheckpoint.Store

open GraphCheckpoint.Encoding

variable {σ : Type}

/-! ## Reading -/

/-- The records that a memory store holds. -/
def MemoryStore.contents (store : MemoryStore) : Outcome (Delta Datum) := do
  let entities ← store.entities.values.mapM (store.settings.readBytes Document.readEntity)
  let locations ← store.locations.values.mapM (store.settings.readBytes Document.readLocation)
  let policies ← store.policies.values.mapM (store.settings.readBytes Document.readPolicy)
  return ⟨entities, locations, policies, [], [], []⟩

/-- Where all bytes can be read, each is read and resolved in turn as if all had been read first. -/
private theorem mapM_read {α β : Type} {read : Bytes → Outcome α} (resolve : α → StateT σ Outcome β)
    {items : List Bytes} {records : List α} (isRead : items.mapM read = .ok records) :
    (items.mapM fun bytes => do resolve (← read bytes)) = records.mapM resolve := by
  induction items generalizing records with
  | nil =>
      cases isRead
      rfl
  | cons bytes rest inductionHypothesis =>
      rw [List.mapM_cons] at isRead
      obtain ⟨record, first, isRead⟩ := outcome_bind_eq_ok isRead
      obtain ⟨remaining, others, isRead⟩ := outcome_bind_eq_ok isRead
      cases isRead
      rw [List.mapM_cons, List.mapM_cons, inductionHypothesis others, first]
      rfl

/-- A running memory store loads the graph that its records describe, resolved in turn. -/
theorem MemoryStore.load_eq {store : MemoryStore} (isRunning : store.running = true)
    {stored : Delta Datum} (isStored : store.contents = .ok stored) (lookup : Lookup σ) :
    store.load lookup = store.settings.resolveRecords lookup stored := by
  obtain ⟨entities, entitiesRead, isStored⟩ := outcome_bind_eq_ok isStored
  obtain ⟨locations, locationsRead, isStored⟩ := outcome_bind_eq_ok isStored
  obtain ⟨policies, policiesRead, isStored⟩ := outcome_bind_eq_ok isStored
  cases isStored
  have ofEntities := mapM_read (fun record : EntityMemento Datum =>
    record.convert (store.settings.reading lookup)) entitiesRead
  have ofLocations := mapM_read (fun record : LocationMemento Datum =>
    record.convert (store.settings.reading lookup)) locationsRead
  have ofPolicies := mapM_read (fun record : PolicyMemento Datum =>
    record.convert (store.settings.reading lookup)) policiesRead
  unfold MemoryStore.load
  rw [if_pos isRunning, Settings.resolveRecords, Delta.convert]
  unfold Settings.decodeEntity Settings.decodeLocation Settings.decodePolicy
  simp only [ofEntities, ofLocations, ofPolicies, bind_assoc, pure_bind]

/-- A store whose records are those of a keyed graph loads this graph. -/
theorem MemoryStore.load_eq_resolveGraph {store : MemoryStore} (isRunning : store.running = true)
    {graph : Graph Datum} (keyed : graph.Keyed)
    (isStored : store.contents = .ok (Delta.ofGraph graph)) (lookup : Lookup σ) :
    store.load lookup = store.settings.resolveGraph lookup graph := by
  rw [load_eq isRunning isStored, Settings.resolveRecords_ofGraph _ _ keyed]

/-- Where bytes are read and resolved in turn, all of them can be read. -/
private theorem exists_mapM_read {α β : Type} {read : Bytes → Outcome α}
    {resolve : α → StateT σ Outcome β} {items : List Bytes} {before : σ} {result : List β × σ}
    (ran : (items.mapM (m := StateT σ Outcome) fun bytes => do resolve (← read bytes)).run before =
      .ok result) : ∃ records, items.mapM read = .ok records := by
  induction items generalizing before result with
  | nil => exact ⟨[], rfl⟩
  | cons bytes rest inductionHypothesis =>
      rw [List.mapM_cons, StateT.run_bind] at ran
      obtain ⟨⟨first, between⟩, isFirst, ran⟩ := outcome_bind_eq_ok ran
      rw [StateT.run_bind] at ran
      obtain ⟨⟨others, after⟩, areOthers, -⟩ := outcome_bind_eq_ok ran
      obtain ⟨records, areRecords⟩ := inductionHypothesis areOthers
      rw [StateT.run_bind] at isFirst
      obtain ⟨⟨record, unchanged⟩, isRecord, -⟩ := outcome_bind_eq_ok isFirst
      have isRead : read bytes = .ok record := by
        cases found : read bytes with
        | error failure =>
            rw [found] at isRecord
            cases isRecord
        | ok read =>
            rw [found] at isRecord
            cases isRecord
            rfl
      refine ⟨record :: records, ?_⟩
      rw [List.mapM_cons, isRead, areRecords]
      rfl

/-- A store that loads has contents. -/
theorem MemoryStore.exists_contents {store : MemoryStore} {lookup : Lookup σ} {before : σ}
    {result : Graph LiveValue × σ} (loads : (store.load lookup).run before = .ok result) :
    ∃ stored, store.contents = .ok stored := by
  unfold MemoryStore.load at loads
  split at loads
  · rw [StateT.run_bind] at loads
    obtain ⟨⟨entities, between⟩, isEntities, loads⟩ := outcome_bind_eq_ok loads
    rw [StateT.run_bind] at loads
    obtain ⟨⟨locations, later⟩, isLocations, loads⟩ := outcome_bind_eq_ok loads
    rw [StateT.run_bind] at loads
    obtain ⟨⟨policies, last⟩, isPolicies, -⟩ := outcome_bind_eq_ok loads
    obtain ⟨entityRecords, readEntities⟩ := exists_mapM_read isEntities
    obtain ⟨locationRecords, readLocations⟩ := exists_mapM_read isLocations
    obtain ⟨policyRecords, readPolicies⟩ := exists_mapM_read isPolicies
    refine ⟨⟨entityRecords, locationRecords, policyRecords, [], [], []⟩, ?_⟩
    rw [MemoryStore.contents, readEntities, readLocations, readPolicies]
    rfl
  · cases loads

/-- And it is running. -/
theorem MemoryStore.running_of_load {store : MemoryStore} {lookup : Lookup σ} {before : σ}
    {result : Graph LiveValue × σ} (loads : (store.load lookup).run before = .ok result) :
    store.running = true := by
  cases running : store.running with
  | true => rfl
  | false =>
      rw [load, running] at loads
      cases loads

/-- The store loads its graph with a placeholder for every reference. -/
def MemoryStore.Loads (store : MemoryStore) : Prop :=
  ∀ slots, ∃ result, (store.load PlaceholderLookup.resolver).run (.start slots) = .ok result

theorem MemoryStore.loads_iff {store : MemoryStore} (running : store.running = true) :
    store.Loads ↔ ∃ stored, store.contents = .ok stored := by
  constructor
  · intro loads
    obtain ⟨result, loaded⟩ := loads .empty
    exact exists_contents loaded
  · rintro ⟨stored, isStored⟩ slots
    obtain ⟨live, after, ran⟩ := store.settings.convertDelta_placeholders stored slots
    refine ⟨(Graph.empty.apply live, after), ?_⟩
    rw [load_eq running isStored, Settings.resolveRecords, StateT.run_bind, ran]
    rfl

/-! ## Which records must be readable -/

/-- A store has contents when all its bytes can be read. -/
theorem MemoryStore.exists_contents_iff {store : MemoryStore} :
    (∃ stored, store.contents = .ok stored) ↔
      (∀ bytes ∈ store.entities.values,
        ∃ record, store.settings.readBytes Document.readEntity bytes = .ok record) ∧
      (∀ bytes ∈ store.locations.values,
        ∃ record, store.settings.readBytes Document.readLocation bytes = .ok record) ∧
      ∀ bytes ∈ store.policies.values,
        ∃ record, store.settings.readBytes Document.readPolicy bytes = .ok record := by
  rw [← exists_mapM_iff, ← exists_mapM_iff, ← exists_mapM_iff]
  constructor
  · rintro ⟨stored, isStored⟩
    obtain ⟨entities, areEntities, isStored⟩ := outcome_bind_eq_ok isStored
    obtain ⟨locations, areLocations, isStored⟩ := outcome_bind_eq_ok isStored
    obtain ⟨policies, arePolicies, -⟩ := outcome_bind_eq_ok isStored
    exact ⟨⟨entities, areEntities⟩, ⟨locations, areLocations⟩, policies, arePolicies⟩
  · rintro ⟨⟨entities, areEntities⟩, ⟨locations, areLocations⟩, policies, arePolicies⟩
    refine ⟨⟨entities, locations, policies, [], [], []⟩, ?_⟩
    rw [MemoryStore.contents, areEntities, areLocations, arePolicies]
    rfl

/-- Where all bytes of a table could be read, only those that were put into it and stay must be. -/
private theorem readable_after {M : Type} {table : Table Bytes} {idOf : M → String}
    {print : M → Bytes} {records : List M} {gone : List String} {isRead : Bytes → Prop}
    (before : ∀ bytes ∈ table.values, isRead bytes) {after : Table Bytes}
    (isAfter : after =
      (table.insertAll (records.map fun record => (idOf record, print record))).eraseAll gone) :
    (∀ bytes ∈ after.values, isRead bytes) ↔
      ∀ record ∈ records, (idOf record, print record) ∈ after → isRead (print record) := by
  constructor
  · intro all record _ stays
    exact all _ (List.mem_map_of_mem stays)
  · intro written bytes member
    obtain ⟨entry, isEntry, rfl⟩ := List.mem_map.mp member
    have inserted := isEntry
    rw [isAfter] at inserted
    rcases Table.mem_insertAll (Table.mem_of_mem_eraseAll inserted) with isNew | isOld
    · obtain ⟨record, isRecord, rfl⟩ := List.mem_map.mp isNew
      exact written record isRecord isEntry
    · exact before _ (List.mem_map_of_mem isOld)

/-! ## Writing -/

section Written

variable (settings : Settings) {M N : Type}

/-- Records that are to be written in turn are converted in turn, and then written. -/
private theorem mapM_written (convert : M → Option N) (items : List M) :
    (items.mapM fun item => settings.written (convert item)) =
      settings.written (items.mapM convert) := by
  induction items with
  | nil => rfl
  | cons item rest inductionHypothesis =>
      rw [List.mapM_cons, List.mapM_cons, inductionHypothesis]
      cases convert item with
      | none => rfl
      | some record => cases rest.mapM convert <;> rfl

/-- What is printed of a record stands beside its name, which the conversion keeps. -/
private theorem entry_written {converted : Option N} {name : String} {nameOf : N → String}
    (print : N → Bytes) (keeps : ∀ record, converted = some record → nameOf record = name) :
    (do
      let bytes ← (do
        let record ← settings.written converted
        return print record)
      return (name, bytes) : Outcome (String × Bytes)) =
      settings.written (converted.map fun record => (nameOf record, print record)) := by
  cases converted with
  | none => rfl
  | some record =>
      rw [Option.map_some, keeps record rfl]
      rfl

/-- Records are encoded all or none, each under its own id. -/
private theorem mapM_records (convert : M → Option N) {idOf : M → String} {newIdOf : N → String}
    (print : N → Bytes)
    (keeps : ∀ item record, convert item = some record → newIdOf record = idOf item)
    (items : List M) :
    (items.mapM fun item => (do
      let bytes ← (do
        let record ← settings.written (convert item)
        return print record)
      return (idOf item, bytes) : Outcome (String × Bytes))) =
      settings.written ((items.mapM convert).map
        (List.map fun record => (newIdOf record, print record))) := by
  have each := fun item => entry_written settings print (keeps item)
  simp only [each, mapM_written]
  exact congrArg settings.written (mapM_map_result convert _ items)

/-- Keyed records are encoded all or none, each under its key. -/
private theorem mapM_entries (convert : M → Option N) (print : N → Bytes) (table : Table M) :
    (table.mapM fun entry => (do
      let bytes ← (do
        let converted ← settings.written (convert entry.2)
        return print converted)
      return (entry.1, bytes) : Outcome (String × Bytes))) =
      settings.written ((table.mapM fun (entry : String × M) => do
        return (entry.1, ← convert entry.2)).map (Table.mapValues print)) := by
  have each := fun entry : String × M =>
    @entry_written settings N (convert entry.2) entry.1 (fun _ => entry.1) print fun _ _ => rfl
  simp only [each, mapM_written]
  refine congrArg settings.written (Eq.trans ?_ (mapM_entries_map convert print table))
  refine congrArg (fun action => table.mapM action) (funext fun (key, record) => ?_)
  cases isConverted : convert record <;> simp [isConverted]

/-- Three kinds of records are written all or none. -/
private theorem written_parts {A B C A' B' C' W S : Type} {entities : Option A}
    {locations : Option B} {policies : Option C} {ofEntities : A → A'} {ofLocations : B → B'}
    {ofPolicies : C → C'} {content : A → B → C → W} {gather : A' → B' → C' → S} {after : W → S}
    (same : ∀ a b c, after (content a b c) = gather (ofEntities a) (ofLocations b) (ofPolicies c)) :
    (do
      let first ← settings.written (entities.map ofEntities)
      let second ← settings.written (locations.map ofLocations)
      let third ← settings.written (policies.map ofPolicies)
      return gather first second third : Outcome S) =
      settings.written (Option.map after (do
        let first ← entities
        let second ← locations
        let third ← policies
        return content first second third)) := by
  cases entities with
  | none => rfl
  | some a =>
      cases locations with
      | none => rfl
      | some b =>
          cases policies with
          | none => rfl
          | some c => exact congrArg Except.ok (same a b c).symm

end Written

namespace MemoryStore

variable {store after : MemoryStore} {cells : Cells} {delta : Delta LiveValue}
  {graph : Graph LiveValue}

/-- What a store holds once it has taken a written delta. -/
def afterDelta (store : MemoryStore) (content : Delta Datum) : MemoryStore :=
  { store with
    entities := (store.entities.insertAll (content.entities.map fun memento =>
      (memento.id, store.settings.printNode (Document.entityNode memento)))).eraseAll
        content.removedEntities
    locations := (store.locations.insertAll (content.locations.map fun memento =>
      (memento.id, store.settings.printNode (Document.locationNode memento)))).eraseAll
        content.removedLocations
    policies := (store.policies.insertAll (content.policies.map fun memento =>
      (memento.id, store.settings.printNode (Document.policyNode memento)))).eraseAll
        content.removedPolicies
    deltas := store.deltas + 1 }

/-- What a store holds once a written graph has taken the place of all that was there. -/
def afterCheckpoint (store : MemoryStore) (content : Graph Datum) : MemoryStore :=
  { store with
    entities := content.entities.mapValues fun memento =>
      store.settings.printNode (Document.entityNode memento)
    locations := content.locations.mapValues fun memento =>
      store.settings.printNode (Document.locationNode memento)
    policies := content.policies.mapValues fun memento =>
      store.settings.printNode (Document.policyNode memento) }

/-- A delta is taken where it can be written. -/
theorem delta_eq (running : store.running = true) :
    store.delta cells delta = store.settings.written
      ((delta.convert (store.settings.writing cells)).map store.afterDelta) := by
  have notStopped : ¬ (!store.running) = true := by simp [running]
  have ofEntities := mapM_records store.settings
    (EntityMemento.convert (store.settings.writing cells))
    (fun record => store.settings.printNode (Document.entityNode record))
    (fun _ _ => EntityMemento.id_convert) delta.entities
  have ofLocations := mapM_records store.settings
    (LocationMemento.convert (store.settings.writing cells))
    (fun record => store.settings.printNode (Document.locationNode record))
    (fun _ _ => LocationMemento.id_convert) delta.locations
  have ofPolicies := mapM_records store.settings
    (PolicyMemento.convert (store.settings.writing cells))
    (fun record => store.settings.printNode (Document.policyNode record))
    (fun _ _ => PolicyMemento.id_convert) delta.policies
  unfold MemoryStore.delta Settings.encodeEntity Settings.encodeLocation Settings.encodePolicy
  rw [if_neg notStopped, ofEntities, ofLocations, ofPolicies, Delta.convert]
  exact written_parts store.settings fun _ _ _ => rfl

/-- A checkpoint is taken where it can be written. -/
theorem checkpoint_eq (running : store.running = true) :
    store.checkpoint cells graph = store.settings.written
      ((graph.convert (store.settings.writing cells)).map store.afterCheckpoint) := by
  have notStopped : ¬ (!store.running) = true := by simp [running]
  have ofEntities := mapM_entries store.settings
    (EntityMemento.convert (store.settings.writing cells))
    (fun record => store.settings.printNode (Document.entityNode record)) graph.entities
  have ofLocations := mapM_entries store.settings
    (LocationMemento.convert (store.settings.writing cells))
    (fun record => store.settings.printNode (Document.locationNode record)) graph.locations
  have ofPolicies := mapM_entries store.settings
    (PolicyMemento.convert (store.settings.writing cells))
    (fun record => store.settings.printNode (Document.policyNode record)) graph.policies
  unfold MemoryStore.checkpoint Settings.encodeEntity Settings.encodeLocation Settings.encodePolicy
  rw [if_neg notStopped]
  simp only [ofEntities, ofLocations, ofPolicies, Graph.convert]
  exact written_parts store.settings fun _ _ _ => rfl

/-- What a delta that was taken has left. -/
theorem delta_run (running : store.running = true) (taken : store.delta cells delta = .ok after) :
    ∃ content, delta.convert (store.settings.writing cells) = some content ∧
      after = store.afterDelta content := by
  rw [delta_eq running] at taken
  cases isContent : delta.convert (store.settings.writing cells) with
  | none =>
      rw [isContent] at taken
      cases taken
  | some content =>
      rw [isContent] at taken
      cases taken
      exact ⟨content, rfl, rfl⟩

/-- The records of a delta that stand in the store are readable. -/
structure Readable (store : MemoryStore) (content : Delta Datum) : Prop where
  entities : ∀ memento ∈ content.entities,
    (memento.id, store.settings.printNode (Document.entityNode memento)) ∈ store.entities →
      store.settings.Readable (Document.entityNode memento)
  locations : ∀ memento ∈ content.locations,
    (memento.id, store.settings.printNode (Document.locationNode memento)) ∈ store.locations →
      store.settings.Readable (Document.locationNode memento)
  policies : ∀ memento ∈ content.policies,
    (memento.id, store.settings.printNode (Document.policyNode memento)) ∈ store.policies →
      store.settings.Readable (Document.policyNode memento)

/-- A store that loads goes on loading after a delta exactly where those of its records that stay are
readable. -/
theorem loads_after_delta_iff (running : store.running = true) (loads : store.Loads)
    {content : Delta Datum} (regular : content.Regular True)
    (fits : store.settings.format = .messagePack → Document.FittingRecords content)
    (isContent : delta.convert (store.settings.writing cells) = some content)
    (taken : store.delta cells delta = .ok after) :
    after.running = true ∧ (after.Loads ↔ after.Readable content) := by
  obtain ⟨found, isFound, rfl⟩ := delta_run running taken
  cases isContent.symm.trans isFound
  have isRunning : (store.afterDelta content).running = true := running
  refine ⟨isRunning, ?_⟩
  obtain ⟨entities, locations, policies⟩ := exists_contents_iff.mp ((loads_iff running).mp loads)
  have sameSettings : (store.afterDelta content).settings = store.settings := rfl
  rw [loads_iff isRunning, exists_contents_iff, sameSettings,
    readable_after entities (show (store.afterDelta content).entities = _ from rfl),
    readable_after locations (show (store.afterDelta content).locations = _ from rfl),
    readable_after policies (show (store.afterDelta content).policies = _ from rfl)]
  have entityRead : ∀ memento ∈ content.entities,
      (∃ record, store.settings.readBytes Document.readEntity
        (store.settings.printNode (Document.entityNode memento)) = .ok record) ↔
          store.settings.Readable (Document.entityNode memento) := fun memento member =>
    Settings.readBytes_printNode
      (Document.plain_entityNode (by simpa using regular.entities memento member))
      (fun isFormat => (fits isFormat).entities memento member)
      fun _ _ => Document.isSome_readEntity memento
  have locationRead : ∀ memento ∈ content.locations,
      (∃ record, store.settings.readBytes Document.readLocation
        (store.settings.printNode (Document.locationNode memento)) = .ok record) ↔
          store.settings.Readable (Document.locationNode memento) := fun memento member =>
    Settings.readBytes_printNode
      (Document.plain_locationNode (by simpa using regular.locations memento member))
      (fun isFormat => (fits isFormat).locations memento member)
      fun _ _ => Document.isSome_readLocation memento
  have policyRead : ∀ memento ∈ content.policies,
      (∃ record, store.settings.readBytes Document.readPolicy
        (store.settings.printNode (Document.policyNode memento)) = .ok record) ↔
          store.settings.Readable (Document.policyNode memento) := fun memento member =>
    Settings.readBytes_printNode
      (Document.plain_policyNode (by simpa using regular.policies memento member))
      (fun isFormat => (fits isFormat).policies memento member)
      fun _ _ => Document.isSome_readPolicy memento
  constructor
  · rintro ⟨entitiesRead, locationsRead, policiesRead⟩
    exact ⟨fun memento member stays => (entityRead memento member).mp
        (entitiesRead memento member stays),
      fun memento member stays => (locationRead memento member).mp
        (locationsRead memento member stays),
      fun memento member stays => (policyRead memento member).mp
        (policiesRead memento member stays)⟩
  · rintro ⟨entitiesReadable, locationsReadable, policiesReadable⟩
    exact ⟨fun memento member stays => (entityRead memento member).mpr
        (entitiesReadable memento member stays),
      fun memento member stays => (locationRead memento member).mpr
        (locationsReadable memento member stays),
      fun memento member stays => (policyRead memento member).mpr
        (policiesReadable memento member stays)⟩

end MemoryStore

end GraphCheckpoint.Store
