import GraphCheckpoint.Proofs.Codec
import GraphCheckpoint.Proofs.Rebind.Fidelity
import GraphCheckpoint.Proofs.Rebind.Mentions
import GraphCheckpoint.Proofs.Store.File
import GraphCheckpoint.Proofs.Store.Memory
import GraphCheckpoint.Session.State

/-!
Contract: loading into the arena of a rebind.

Owns:
- the mentions of ids in stored records, and how their look-ups end;
- `Retrieved`, what loading leaves when it succeeds, whatever the records are;
- `Fitting`, the records with which it leaves what a pass needs, and `Coherent`, those of them that
  always load;
- the records that a store holds encoded, and that loading resolves them.

Does not own: the pass itself.
-/

namespace GraphCheckpoint

open GraphCheckpoint.Encoding

variable {heap : Heap} {settings : Settings} {stored : Delta Datum}

/-! ## References found in the arena -/

/-- What is seen of a reference that has been found: the reference, and its id. -/
def seen (found : Handle) : Option Handle × String := (some found, found.id)

/-- What an arena has for the id of a stored reference, and the id. -/
def expectedIn (arena : Arena) (reference : Reference) : Option Handle × String :=
  ((arena.entries.get? reference.id).map ArenaEntry.handle, reference.id)

/-- Ids are met while records are loaded, and a look-up may fail. -/
def collecting (heap : Heap) : Progress Arena where
  kept := fun arena => arena.Tracks (fun _ _ => True) (fun _ _ => False) heap
  fails := fun _ => True
  later := Arena.Grown
  refl := Arena.Grown.refl
  trans := fun _ _ _ => Arena.Grown.trans

theorem yields_resolver (kind : ObjectKind) (reference : Reference) (expected : Option String) :
    (collecting heap).Yields (Arena.resolver kind reference.id expected)
      fun final found => seen found = expectedIn final reference := by
  intro arena tracks
  refine (tracks.resolver trivial expected).imp
    (fun ⟨failure, ran⟩ => ⟨failure, ran, trivial⟩) ?_
  rintro ⟨handle, after, ran, afterTracks, grown, known⟩
  refine ⟨handle, after, ran, afterTracks, grown, fun final later => ?_⟩
  obtain ⟨recorded, isEntry⟩ := later _ _ _ known
  have isOwn : handle.id = reference.id := afterTracks.named known
  rw [seen, expectedIn, isEntry, isOwn]
  rfl

/-! ## The graph that is read -/

/-- The references in values of a graph are those of its records. -/
theorem Graph.mem_valueReferences {V α : Type} {ofTable : Table V → List α} {graph : Graph V}
    {item : α} : item ∈ graph.valueReferences ofTable ↔
      ∃ kind, ∃ entry ∈ graph.records kind, item ∈ entry.2.valueReferences ofTable := by
  simp only [valueReferences, List.mem_append, List.mem_flatMap, Table.values, List.mem_map]
  constructor
  · rintro ((⟨_, ⟨entry, member, rfl⟩, inRecord⟩ | ⟨_, ⟨entry, member, rfl⟩, inRecord⟩) |
      ⟨_, ⟨entry, member, rfl⟩, inRecord⟩)
    · exact ⟨.entity, _, List.mem_map_of_mem member, inRecord⟩
    · exact ⟨.location, _, List.mem_map_of_mem member, inRecord⟩
    · exact ⟨.policy, _, List.mem_map_of_mem member, inRecord⟩
  · rintro ⟨kind, _, member, inRecord⟩
    cases kind with
    | entity =>
        obtain ⟨entry, isEntry, rfl⟩ := List.mem_map.mp member
        exact Or.inl (Or.inl ⟨_, ⟨entry, isEntry, rfl⟩, inRecord⟩)
    | location =>
        obtain ⟨entry, isEntry, rfl⟩ := List.mem_map.mp member
        exact Or.inl (Or.inr ⟨_, ⟨entry, isEntry, rfl⟩, inRecord⟩)
    | policy =>
        obtain ⟨entry, isEntry, rfl⟩ := List.mem_map.mp member
        exact Or.inr ⟨_, ⟨entry, isEntry, rfl⟩, inRecord⟩

/-- What a delta describes on its own refers to nothing but its records do. -/
theorem Graph.valueReferences_apply_empty {V α : Type} {ofTable : Table V → List α}
    {delta : Delta V} {item : α} (member : item ∈ (empty.apply delta).valueReferences ofTable) :
    item ∈ delta.valueReferences ofTable := by
  rw [apply_eq] at member
  simp only [valueReferences, List.mem_append, List.mem_flatMap] at member
  simp only [Delta.valueReferences, List.mem_append, List.mem_flatMap]
  have written : ∀ {M : Type} {idOf : M → String} {records : List M} {gone : List String} {record : M},
      record ∈ Table.values ((Table.insertAll [] (records.map fun memento =>
        (idOf memento, memento))).eraseAll gone) → record ∈ records := by
    intro M idOf records gone record isRecord
    exact (mem_values_after isRecord).resolve_right List.not_mem_nil
  rcases member with (⟨record, isRecord, inRecord⟩ | ⟨record, isRecord, inRecord⟩) |
    ⟨record, isRecord, inRecord⟩
  · exact Or.inl (Or.inl ⟨record, written isRecord, inRecord⟩)
  · exact Or.inl (Or.inr ⟨record, written isRecord, inRecord⟩)
  · exact Or.inr ⟨record, written isRecord, inRecord⟩

section Seen

variable {graph : Graph LiveValue} {source : Graph Datum} {names : String → String}
  {read : Reference → Option Handle × String}
  (same : graph.convert (m := Id) (.relabelling seen) =
    source.convert (m := Id) (.relabellingLifted names read))

include same

theorem references_of_seen :
    (graph.valueReferences Value.referencesOfEntries).map
      (fun reference => (reference.1, seen reference.2)) =
        (source.valueReferences Value.referencesOfEntries).map
          fun reference => (reference.1, read reference.2) := by
  rw [← Graph.valueReferences_convert (.relabelling seen)
    (Value.referencesOfEntries_mapReferencesOfEntries seen) graph, same]
  refine Graph.valueReferences_convert _ (fun table => ?_) _
  exact (Value.referencesOfEntries_liftedEntries _).trans
    (Value.referencesOfEntries_mapReferencesOfEntries _ table)

/-- What is stored holds no computed values, and so neither does what is read. -/
theorem deferrals_of_seen : graph.valueReferences Value.deferralsOfEntries = [] := by
  have ofSeen : ∀ table : Table LiveValue,
      Value.deferralsOfEntries (Value.mapReferencesOfEntries seen table) =
        (Value.deferralsOfEntries table).map id := fun table =>
    (Value.deferralsOfEntries_mapReferencesOfEntries seen table).trans (List.map_id _).symm
  have ofSource : ∀ table : Table Datum,
      Value.deferralsOfEntries (Value.liftedEntries (Value.mapReferencesOfEntries read table)) =
        ([] : List CellId).map id := fun table => Value.deferralsOfEntries_liftedEntries _
  have unchanged := Graph.valueReferences_convert (.relabelling seen) ofSeen graph
  rw [same, List.map_id] at unchanged
  refine unchanged.symm.trans ((Graph.valueReferences_convert _ ofSource _).trans ?_)
  rw [List.map_id]
  simp [Graph.valueReferences, EntityMemento.valueReferences, LocationMemento.valueReferences,
    PolicyMemento.valueReferences, Common.references]

theorem byIds_of_seen (isId : ∀ reference, (read reference).2 = reference.id) :
    graph.byIds = source.convert (m := Id) (.relabellingLifted names Reference.id) := by
  have tables : ∀ table : Table Datum,
      Value.mapReferencesOfEntries Prod.snd (Value.liftedEntries
        (Value.mapReferencesOfEntries read table) : Table (Value (Option Handle × String) CellId)) =
          Value.liftedEntries (Value.mapReferencesOfEntries Reference.id table) := by
    intro table
    rw [Value.mapReferencesOfEntries_liftedEntries,
      Value.mapReferencesOfEntries_mapReferencesOfEntries]
    exact congrArg (fun change => Value.liftedEntries (Value.mapReferencesOfEntries change table))
      (funext isId)
  have whole := congrArg (fun seenGraph : Graph (Value (Option Handle × String) CellId) =>
    seenGraph.convert (m := Id) (.relabelling Prod.snd)) same
  simp only [Graph.convert_convert] at whole
  have ofGraph : graph.byIds = graph.convert (m := Id)
      (Conversion.followedBy (.relabelling seen) (.relabelling Prod.snd)) :=
    Graph.convert_congr _ (fun _ _ => rfl) fun table =>
      (Value.mapReferencesOfEntries_mapReferencesOfEntries seen Prod.snd table).symm
  have ofSource : source.convert (m := Id)
      (Conversion.followedBy (.relabellingLifted names read) (.relabelling Prod.snd)) =
        source.convert (m := Id) (.relabellingLifted names Reference.id) :=
    Graph.convert_congr _ (fun _ _ => rfl) tables
  exact ofGraph.trans (whole.trans ofSource)

theorem outline_of_seen : graph.outline id = source.outline names := by
  have whole := congrArg (fun seenGraph : Graph (Value (Option Handle × String) CellId) =>
    seenGraph.convert (m := Id) (.forgetting id)) same
  simp only [Graph.convert_convert] at whole
  exact whole

end Seen

/-! ## Loading -/

/-- A stored reference as it is looked up. -/
def Encoding.Settings.mention (settings : Settings) (reference : ObjectKind × Reference) : Mention :=
  ⟨reference.1, reference.2.id, reference.2.expectedType.map settings.aliases.decodeName⟩

/-- The mentions of ids in the values of stored records, in the order of their look-ups. -/
def Encoding.Settings.mentions (settings : Settings) (stored : Delta Datum) : List Mention :=
  (stored.valueReferences Value.referencesOfEntries).map settings.mention

/-- The look-up with which a stored reference is read. -/
def Encoding.Settings.find (settings : Settings) (kind : ObjectKind) (reference : Reference) :
    StateT Arena Outcome Handle :=
  Arena.resolver kind reference.id (reference.expectedType.map settings.aliases.decodeName)

/-- What loading leaves: an arena that recalls all mentions, which agree, and the stored graph with
the references of this arena. -/
structure Retrieved (settings : Settings) (stored : Delta Datum) (heap : Heap)
    (graph : Graph LiveValue) (arena : Arena) : Prop where
  agrees : Mention.disagreement? (settings.mentions stored) = none
  recalls : arena.Recalls (settings.mentions stored)
  tracks : arena.Tracks (fun _ _ => True) (fun _ _ => False) heap
  same : graph.convert (m := Id) (.relabelling seen) =
    (Graph.empty.apply stored).convert (m := Id)
      (.relabellingLifted settings.aliases.decodeName (expectedIn arena))

/-- Records load unless their mentions disagree: then loading fails as the first disagreement says. -/
theorem Encoding.Settings.resolveRecords_ends (settings : Settings) (stored : Delta Datum)
    (heap : Heap) :
    (∃ failure, Mention.disagreement? (settings.mentions stored) = some failure ∧
      (settings.resolveRecords Arena.resolver stored).run (.start heap) = .error failure) ∨
    ∃ graph arena, (settings.resolveRecords Arena.resolver stored).run (.start heap) =
        .ok (graph, arena) ∧ Retrieved settings stored heap graph arena := by
  have asking := Delta.outline_convert (Conversion.asks_resolving settings.aliases.decodeName
    settings.find : Conversion.Asks (settings.reading Arena.resolver) _ _) stored
  have sameAsks : (forM (settings.mentions stored) Arena.lookUp : StateT Arena Outcome Unit) =
      forM (stored.valueReferences Value.referencesOfEntries) fun reference =>
        effect (settings.find reference.1 reference.2) := List.forM_map
  have finds : ∀ reference ∈ stored.valueReferences Value.referencesOfEntries,
      (collecting heap).Yields (settings.find reference.1 reference.2)
        fun final found => seen found = expectedIn final reference.2 :=
    fun reference _ => yields_resolver reference.1 reference.2 _
  rw [← sameAsks] at asking
  rw [resolveRecords, StateT.run_bind]
  -- Loading does to the arena what its look-ups alone do, so it ends as they do.
  rcases run_of_map asking (.start heap) with ⟨failure, asked, failed⟩ | ⟨live, arena, asked, ran, -⟩
  · rcases Arena.lookUps_run (settings.mentions stored) heap with
      ⟨same, disagrees, looked⟩ | ⟨-, _, looked, -⟩
    · cases looked.symm.trans asked
      have fails : (stored.convert (settings.reading Arena.resolver)).run (.start heap) =
          .error failure := failed
      exact Or.inl ⟨failure, disagrees, by rw [fails]; rfl⟩
    · cases looked.symm.trans asked
  · rcases Arena.lookUps_run (settings.mentions stored) heap with
      ⟨_, -, looked⟩ | ⟨agrees, _, looked, recalls⟩
    · cases looked.symm.trans asked
    · cases looked.symm.trans asked
      have loads : (stored.convert (settings.reading Arena.resolver)).run (.start heap) =
          .ok (live, arena) := ran
      rcases Delta.yields_convert (δ := CellId) settings.aliases.decodeName stored finds
        (Arena.start heap) Arena.tracks_start with
          ⟨_, failed, -⟩ | ⟨_, _, again, tracks, -, described⟩
      · cases failed.symm.trans loads
      · cases again.symm.trans loads
        refine Or.inr ⟨Graph.empty.apply live, arena, by rw [loads]; rfl, ⟨agrees, recalls, tracks, ?_⟩⟩
        rw [Graph.convert_apply, Graph.convert_apply, described arena (Arena.Grown.refl arena)]
        rfl

namespace Retrieved

variable {graph : Graph LiveValue} {arena : Arena}
  (retrieved : Retrieved settings stored heap graph arena)

include retrieved

theorem byIds_eq : graph.byIds = settings.readByIds (Graph.empty.apply stored) :=
  byIds_of_seen retrieved.same fun _ => rfl

theorem keyed : graph.Keyed :=
  (Graph.keyed_of_converted retrieved.same).mpr (Graph.keyed_empty.apply stored)

theorem names_eq : graph.Names = (Graph.empty.apply stored).Names :=
  Graph.names_of_converted retrieved.same

theorem mentions_eq :
    graph.mentions = (settings.readByIds (Graph.empty.apply stored)).mentions := by
  rw [← retrieved.byIds_eq, Graph.byIds, Graph.mentions_convert _ _ fun _ => rfl]

/-- A registry that has what is read of the stored types accepts the loaded graph. -/
theorem accepts {registry : Registry} {strictness : TypeResolution}
    (registered : strictness = .lenient ∨
      ∀ kind, ∀ entry ∈ (settings.readByIds (Graph.empty.apply stored)).records kind,
        registry.contains kind entry.2.typeName = true) (kind : ObjectKind) :
    Pass.Accepts registry strictness graph kind := by
  refine registered.imp id fun all entry member => ?_
  have isRead := all kind (entry.1, entry.2.converted (.relabelling Handle.id)) (by
    rw [← retrieved.byIds_eq, Graph.byIds, Graph.records_convert]
    exact List.mem_map_of_mem member)
  rwa [ObjectMemento.typeName_converted] at isRead

/-- The arena knows every reference that is looked up, as one of its kind. -/
theorem knows_of_mem {reference : ObjectKind × Reference}
    (member : reference ∈ stored.valueReferences Value.referencesOfEntries) :
    ∃ handle, arena.Knows reference.1 reference.2.id handle := by
  have isMention : settings.mention reference ∈ settings.mentions stored :=
    List.mem_map_of_mem member
  obtain ⟨earliest, isEarliest⟩ := Mention.exists_earliest? isMention
  have agrees := Mention.disagreement?_eq_none_iff.mp retrieved.agrees _ isMention _ isEarliest
  obtain ⟨entry, isEntry, rfl⟩ := Option.map_eq_some_iff.mp
    ((retrieved.recalls reference.2.id).trans isEarliest)
  have isKind : entry.kind = reference.1 := (Mention.clash?_eq_none_iff.mp agrees).1
  exact ⟨entry.handle, isKind ▸ Arena.knows_of_get? isEntry⟩

/-- What the arena knows has been looked up. -/
theorem mem_of_knows {kind : ObjectKind} {id : String} {handle : Handle}
    (known : arena.Knows kind id handle) :
    ∃ reference ∈ stored.valueReferences Value.referencesOfEntries,
      reference.1 = kind ∧ reference.2.id = id := by
  obtain ⟨recorded, isEntry⟩ := known
  have isEarliest := retrieved.recalls.earliest isEntry
  obtain ⟨reference, member, same⟩ := List.mem_map.mp (Mention.mem_of_earliest? isEarliest)
  refine ⟨reference, member, congrArg Mention.kind same, ?_⟩
  exact (congrArg Mention.id same).trans (Mention.id_of_earliest? isEarliest)

/-- A reference in a loaded value is the one that the arena has for its id. -/
theorem knows {reference : ObjectKind × Handle}
    (isReference : reference ∈ graph.valueReferences Value.referencesOfEntries) :
    arena.Knows reference.1 reference.2.id reference.2 := by
  have isSeen := List.mem_map_of_mem (f := fun reference => (reference.1, seen reference.2))
    isReference
  rw [references_of_seen retrieved.same] at isSeen
  obtain ⟨source, isSource, sameSeen⟩ := List.mem_map.mp isSeen
  obtain ⟨sameKind, sameHandle⟩ := Prod.mk.inj sameSeen
  obtain ⟨isFound, sameId⟩ := Prod.mk.inj sameHandle
  obtain ⟨found, isEntry, isHandle⟩ := Option.map_eq_some_iff.mp isFound
  obtain ⟨handle, recorded, isKnown⟩ := retrieved.knows_of_mem
    (Graph.valueReferences_apply_empty isSource)
  rw [isKnown, Option.some.injEq] at isEntry
  subst isEntry
  subst isHandle
  exact ⟨recorded, sameKind ▸ sameId ▸ isKnown⟩

end Retrieved

/-! ## Records that fit together -/

/-- The records of a store have a place in one graph: no id belongs to two kinds, and every link and
every reference leads to a record of the right kind. -/
structure Fitting (stored : Delta Datum) : Prop where
  oneKind : (Graph.empty.apply stored).OneKind
  linked : (Graph.empty.apply stored).Linked
  named : ∀ reference ∈ stored.valueReferences Value.referencesOfEntries,
    (Graph.empty.apply stored).Names reference.1 reference.2.id

instance : Decidable (Fitting stored) :=
  decidable_of_iff ((Graph.empty.apply stored).OneKind ∧ (Graph.empty.apply stored).Linked ∧
    ∀ reference ∈ stored.valueReferences Value.referencesOfEntries,
      (Graph.empty.apply stored).Names reference.1 reference.2.id)
    ⟨fun ⟨oneKind, linked, named⟩ => ⟨oneKind, linked, named⟩,
      fun fitting => ⟨fitting.oneKind, fitting.linked, fitting.named⟩⟩

/-- A graph of fitting records leaves what a pass needs. -/
theorem Fitting.loaded (fitting : Fitting stored) {graph : Graph LiveValue} {arena : Arena}
    (retrieved : Retrieved settings stored heap graph arena) : Loaded graph heap arena where
  keyed := retrieved.keyed
  oneKind := by
    rw [Graph.OneKind, retrieved.names_eq]
    exact fitting.oneKind
  linked := (Graph.linked_of_converted retrieved.same).mpr fitting.linked
  tracks := {
    toPristine := retrieved.tracks.toPristine
    within := by
      intro kind id handle known
      obtain ⟨reference, member, rfl, rfl⟩ := retrieved.mem_of_knows known
      rw [retrieved.names_eq]
      exact fitting.named reference member
    recorded := retrieved.tracks.recorded
    present := retrieved.tracks.present }
  values := fun kind entry member reference inRecord =>
    retrieved.knows (Graph.mem_valueReferences.mpr ⟨kind, entry, member, inRecord⟩)
  settled := by
    intro kind entry member
    refine List.eq_nil_iff_forall_not_mem.mpr fun cell inRecord => ?_
    have isDeferral : cell ∈ graph.valueReferences Value.deferralsOfEntries :=
      Graph.mem_valueReferences.mpr ⟨kind, entry, member, inRecord⟩
    rw [deferrals_of_seen retrieved.same] at isDeferral
    cases isDeferral

/-- The records of a store fit together: no id belongs to two kinds, every link and every reference
leads to a record of the right kind, and references to an id agree on its type. -/
structure Coherent (settings : Settings) (stored : Delta Datum) : Prop where
  oneKind : (Graph.empty.apply stored).OneKind
  linked : (Graph.empty.apply stored).Linked
  named : ∀ reference ∈ stored.valueReferences Value.referencesOfEntries,
    (Graph.empty.apply stored).Names reference.1 reference.2.id
  typed : ∀ one ∈ stored.valueReferences Value.referencesOfEntries,
    ∀ other ∈ stored.valueReferences Value.referencesOfEntries, one.2.id = other.2.id →
      ∀ declared ∈ one.2.expectedType, ∀ otherDeclared ∈ other.2.expectedType,
        settings.aliases.decodeName declared = settings.aliases.decodeName otherDeclared

instance : Decidable (Coherent settings stored) :=
  decidable_of_iff ((Graph.empty.apply stored).OneKind ∧ (Graph.empty.apply stored).Linked ∧
    (∀ reference ∈ stored.valueReferences Value.referencesOfEntries,
      (Graph.empty.apply stored).Names reference.1 reference.2.id) ∧
    ∀ one ∈ stored.valueReferences Value.referencesOfEntries,
      ∀ other ∈ stored.valueReferences Value.referencesOfEntries, one.2.id = other.2.id →
        ∀ declared ∈ one.2.expectedType, ∀ otherDeclared ∈ other.2.expectedType,
          settings.aliases.decodeName declared = settings.aliases.decodeName otherDeclared)
    ⟨fun ⟨oneKind, linked, named, typed⟩ => ⟨oneKind, linked, named, typed⟩,
      fun coherent => ⟨coherent.oneKind, coherent.linked, coherent.named, coherent.typed⟩⟩

theorem Coherent.fitting (coherent : Coherent settings stored) : Fitting stored :=
  ⟨coherent.oneKind, coherent.linked, coherent.named⟩

/-- The mentions in coherent records agree. -/
theorem Coherent.agrees (coherent : Coherent settings stored) :
    Mention.disagreement? (settings.mentions stored) = none := by
  refine Mention.disagreement?_eq_none_iff.mpr fun mention isMention earliest isEarliest => ?_
  obtain ⟨later, isLater, rfl⟩ := List.mem_map.mp isMention
  have sameId := Mention.id_of_earliest? isEarliest
  obtain ⟨first, isFirst, rfl⟩ := List.mem_map.mp (Mention.mem_of_earliest? isEarliest)
  have isNamed := coherent.named first isFirst
  rw [show first.2.id = later.2.id from sameId] at isNamed
  refine Mention.clash?_eq_none_iff.mpr
    ⟨coherent.oneKind _ _ _ isNamed (coherent.named later isLater), ?_⟩
  intro wanted isWanted actual isActual
  obtain ⟨declared, isDeclared, rfl⟩ := Option.map_eq_some_iff.mp isWanted
  obtain ⟨otherDeclared, isOtherDeclared, rfl⟩ := Option.map_eq_some_iff.mp isActual
  exact coherent.typed later isLater first isFirst sameId.symm declared isDeclared otherDeclared
    isOtherDeclared

/-! ## Stores -/

/-- A running store holds these records, under its settings. -/
inductive AnyStore.Holds (disk : Store.Disk) : AnyStore → Settings → Delta Datum → Prop where
  | memory {store : Store.MemoryStore} {stored : Delta Datum} (isRunning : store.running = true)
      (isStored : store.contents = .ok stored) : Holds disk (.memory store) store.settings stored
  | file {store : Store.FileStore} {graph : Graph Datum} (isRunning : store.running = true)
      (isStored : store.fold disk = .ok graph) :
      Holds disk (.file store) store.settings (Delta.ofGraph graph)

/-- A file store loads its records as a memory store does. -/
theorem Store.FileStore.load_eq {store : FileStore} {disk : Disk} {graph : Graph Datum}
    (isRunning : store.running = true) (isStored : store.fold disk = .ok graph) {σ : Type}
    (lookup : Lookup σ) :
    store.load disk lookup = store.settings.resolveRecords lookup (Delta.ofGraph graph) := by
  rw [load_of_fold isRunning isStored, Settings.resolveRecords_ofGraph _ _ (keyed_fold isStored)]

end GraphCheckpoint
