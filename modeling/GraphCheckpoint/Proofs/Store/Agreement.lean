import GraphCheckpoint.Proofs.Store.Memory
import GraphCheckpoint.Proofs.Store.Refinement

/-!
Contract: a memory store and a file store that serve the same requests.

Owns:
- what a memory store does of what is asked of a file store;
- `MemoryStore.Refines`, the store holds the bytes of every record of a graph;
- that a run keeps this, and that two stores with the same graph load and list the same;
- how the stores differ over what is too long for a frame or for MessagePack.

Does not own: what requests come to.

Both stores are compared with the fold of the requests, never with each other. A delta whose document
is too long for a frame of the journal is the one request that only the memory store takes. It keeps
ids apart from the bytes of their records, so it also lists an id that MessagePack cannot count.
-/

namespace GraphCheckpoint.Store

open GraphCheckpoint.Encoding

/-! ## Requests -/

namespace Request

/-- A write that fails leaves the store as it was. -/
private def taken (store : MemoryStore) : Outcome MemoryStore → Outcome Unit × MemoryStore
  | .ok after => (.ok (), after)
  | .error failure => (.error failure, store)

/-- Does what is asked; there is nothing to fold together and nothing to open again. -/
def performInMemory (store : MemoryStore) : Request → Outcome Unit × MemoryStore
  | .delta cells _ changes => taken store (store.delta cells changes)
  | .checkpoint cells _ graph => taken store (store.checkpoint cells graph)
  | .compact _ | .reopen .. => (.ok (), store)

/-- Does what is asked in turn, whatever becomes of it. -/
def runInMemory : List Request → MemoryStore → List (Outcome Unit) × MemoryStore
  | [], store => ([], store)
  | request :: rest, store =>
      let (result, store) := request.performInMemory store
      let (results, store) := runInMemory rest store
      (result :: results, store)

/-- A frame of the journal can count the bytes of the request's document. -/
def Framed (settings : Settings) : Request → Prop
  | .delta cells now changes =>
      ∀ document, settings.deltaDocument cells now changes = .ok document →
        (settings.encodeDocument document).length < frameBound
  | .checkpoint .. | .compact _ | .reopen .. => True

end Request

/-! ## The refinement -/

namespace MemoryStore

variable {settings : Settings} {store : MemoryStore} {graph : Graph SettledValue}

/-- The store holds the bytes of every record of a graph, each under its key. -/
structure Refines (settings : Settings) (store : MemoryStore) (graph : Graph SettledValue) :
    Prop where
  sameSettings : store.settings = settings
  running : store.running = true
  entities : store.entities = (graph.convert (m := Id) settings.writtenForm).entities.mapValues
    fun memento => settings.printNode (Document.entityNode memento)
  locations : store.locations = (graph.convert (m := Id) settings.writtenForm).locations.mapValues
    fun memento => settings.printNode (Document.locationNode memento)
  policies : store.policies = (graph.convert (m := Id) settings.writtenForm).policies.mapValues
    fun memento => settings.printNode (Document.policyNode memento)
  admitted : settings.AdmitsGraph (graph.convert (m := Id) settings.writtenForm)

theorem refines_make (settings : Settings) : (make settings).Refines settings Graph.empty where
  sameSettings := rfl
  running := rfl
  entities := rfl
  locations := rfl
  policies := rfl
  admitted := Settings.admitsGraph_empty

/-! ## Loads and listings -/

private theorem values_mapValues {M : Type} (print : M → Bytes) (table : Table M) :
    (table.mapValues print).values = table.values.map print := by
  simp only [Table.values, Table.mapValues, List.map_map, Function.comp_def]

/-- The records are read back as those of the graph. -/
theorem Refines.contents (refines : store.Refines settings graph) :
    store.contents = .ok (Delta.ofGraph (graph.convert (m := Id) settings.writtenForm)) := by
  have entities := mapM_map_of_inverse fun _ => refines.admitted.readEntity
  have locations := mapM_map_of_inverse fun _ => refines.admitted.readLocation
  have policies := mapM_map_of_inverse fun _ => refines.admitted.readPolicy
  rw [MemoryStore.contents, refines.sameSettings, refines.entities, refines.locations,
    refines.policies, values_mapValues, values_mapValues, values_mapValues, entities, locations,
    policies]
  rfl

theorem Refines.load (refines : store.Refines settings graph) {σ : Type} (lookup : Lookup σ) :
    store.load lookup =
      settings.resolveGraph lookup (graph.convert (m := Id) settings.writtenForm) := by
  rw [load_eq_resolveGraph refines.running refines.admitted.regular.keyed refines.contents,
    refines.sameSettings]

theorem Refines.storedIds (refines : store.Refines settings graph) : store.storedIds = graph.ids := by
  rw [MemoryStore.storedIds, refines.entities, refines.locations, refines.policies,
    Table.keys_mapValues, Table.keys_mapValues, Table.keys_mapValues]
  exact Graph.ids_convert settings.writtenForm graph

/-! ## One request -/

/-- The request is answered as it should be, and leaves the bytes of its fold. -/
def Keeps (settings : Settings) (request : Request) (store : MemoryStore)
    (graph : Graph SettledValue) : Prop :=
  ∃ after, request.performInMemory store = (request.answer settings, after) ∧
    after.Refines settings (request.fold settings graph)

private theorem mapValues_after {M : Type} (print : M → Bytes) (idOf : M → String)
    (table : Table M) (written : List M) (gone : List String) :
    ((table.mapValues print).insertAll
        (written.map fun memento => (idOf memento, print memento))).eraseAll gone =
      ((table.insertAll (written.map fun memento => (idOf memento, memento))).eraseAll
        gone).mapValues print := by
  rw [Table.mapValues_eraseAll, Table.mapValues_insertAll, List.map_map]
  rfl

/-- The bytes of a delta's records take their places among those of the graph. -/
theorem Refines.afterDelta (refines : store.Refines settings graph) {settled : Delta SettledValue}
    {now : Int64} (admitted : settings.Admits (settings.documentOfDelta now settled)) :
    (store.afterDelta (settled.convert (m := Id) settings.writtenForm)).Refines settings
      (graph.apply settled) := by
  have written := Graph.convert_apply settings.writtenForm graph settled
  have within := refines.admitted.apply admitted
  refine ⟨refines.sameSettings, refines.running, ?_, ?_, ?_, written ▸ within⟩
  all_goals rw [written, Graph.apply_eq]
  · rw [MemoryStore.afterDelta, refines.sameSettings, refines.entities]
    exact mapValues_after _ EntityMemento.id _ _ _
  · rw [MemoryStore.afterDelta, refines.sameSettings, refines.locations]
    exact mapValues_after _ LocationMemento.id _ _ _
  · rw [MemoryStore.afterDelta, refines.sameSettings, refines.policies]
    exact mapValues_after _ PolicyMemento.id _ _ _

/-- The bytes of a graph's records take the place of all others. -/
theorem Refines.afterCheckpoint (refines : store.Refines settings graph)
    {settled : Graph SettledValue}
    (admitted : settings.AdmitsGraph (settled.convert (m := Id) settings.writtenForm)) :
    (store.afterCheckpoint (settled.convert (m := Id) settings.writtenForm)).Refines settings
      settled where
  sameSettings := refines.sameSettings
  running := refines.running
  entities := by rw [MemoryStore.afterCheckpoint, refines.sameSettings]
  locations := by rw [MemoryStore.afterCheckpoint, refines.sameSettings]
  policies := by rw [MemoryStore.afterCheckpoint, refines.sameSettings]
  admitted := admitted

theorem Refines.delta (refines : store.Refines settings graph) {cells : Cells} {now : Int64}
    {changes : Delta LiveValue} (valid : (Request.delta cells now changes).Valid settings)
    (framed : (Request.delta cells now changes).Framed settings) :
    Keeps settings (.delta cells now changes) store graph := by
  obtain ⟨cellsRegular, changesRegular, nested⟩ := valid
  have taken := @delta_eq store cells changes refines.running
  rw [refines.sameSettings, Settings.writing_eq, Delta.convert_followedBy] at taken
  cases isSettled : changes.convert cells.settling with
  | none =>
      rw [isSettled] at taken
      refine ⟨store, ?_, ?_⟩
      · rw [Request.performInMemory, taken, Request.answer, isSettled]
        rfl
      · rw [Request.fold, Request.answer, isSettled]
        exact refines
  | some settled =>
      rw [isSettled] at taken
      have short := framed _ (Settings.deltaDocument_of_settled isSettled)
      have accepted := @Request.answer_of_short settings cells now changes settled isSettled short
      refine ⟨store.afterDelta (settled.convert (m := Id) settings.writtenForm), ?_, ?_⟩
      · rw [Request.performInMemory, taken, accepted]
        rfl
      · rw [Request.fold_of_accepted isSettled accepted]
        have regular := cellsRegular.settleDelta changesRegular isSettled
        have isNested := nested _ (Settings.deltaDocument_of_settled isSettled)
        exact refines.afterDelta (Settings.admits_documentOfDelta regular isNested
          (Settings.fits_of_length_encodeDocument short))

theorem Refines.checkpoint (refines : store.Refines settings graph) {cells : Cells} {now : Int64}
    {whole : Graph LiveValue} (valid : (Request.checkpoint cells now whole).Valid settings) :
    Keeps settings (.checkpoint cells now whole) store graph := by
  have taken := @checkpoint_eq store cells whole refines.running
  rw [refines.sameSettings, Settings.writing_eq, Graph.convert_followedBy] at taken
  cases isSettled : whole.convert cells.settling with
  | none =>
      rw [isSettled] at taken
      refine ⟨store, ?_, ?_⟩
      · rw [Request.performInMemory, taken, Request.answer, isSettled]
        rfl
      · rw [Request.fold, isSettled]
        exact refines
  | some settled =>
      rw [isSettled] at taken
      refine ⟨store.afterCheckpoint (settled.convert (m := Id) settings.writtenForm), ?_, ?_⟩
      · rw [Request.performInMemory, taken, Request.answer, isSettled]
        rfl
      · rw [Request.fold, isSettled]
        obtain ⟨admitted, own⟩ := valid.checkpoint isSettled
        have graphAdmitted := Settings.admitsGraph_of_admits admitted
        rw [own] at graphAdmitted
        exact refines.afterCheckpoint graphAdmitted

/-- Every valid request that a frame can hold is answered as it should be, and leaves the bytes of its
fold. -/
theorem Refines.keeps (refines : store.Refines settings graph) {request : Request}
    (valid : request.Valid settings) (framed : request.Framed settings) :
    Keeps settings request store graph := by
  cases request with
  | delta cells now changes => exact refines.delta valid framed
  | checkpoint cells now whole => exact refines.checkpoint valid
  | compact now => exact ⟨store, rfl, refines⟩
  | reopen nowMs durability compactAfter => exact ⟨store, rfl, refines⟩

/-! ## Runs -/

/-- A whole run keeps the refinement, request by request. -/
theorem Refines.run (refines : store.Refines settings graph) {requests : List Request}
    (valid : Request.ValidRun settings graph requests)
    (framed : ∀ request ∈ requests, request.Framed settings) :
    ∃ after, Request.runInMemory requests store = (requests.map (Request.answer settings), after) ∧
      after.Refines settings (requests.foldl (Request.fold settings) graph) := by
  induction requests generalizing store graph with
  | nil => exact ⟨store, rfl, refines⟩
  | cons request rest inductionHypothesis =>
      obtain ⟨requestValid, -, restValid⟩ := valid
      obtain ⟨middle, performed, middleRefines⟩ :=
        refines.keeps requestValid (framed request List.mem_cons_self)
      obtain ⟨after, ran, afterRefines⟩ := inductionHypothesis middleRefines restValid
        fun other member => framed other (List.mem_cons_of_mem request member)
      refine ⟨after, ?_, afterRefines⟩
      rw [Request.runInMemory, performed]
      simp only [ran, List.map_cons]

end MemoryStore

/-- Two stores that describe the same graph list the same ids, and load the same through every
look-up: the same graph and look-up state, or the same failure. -/
theorem agree_of_refines {settings : Settings} {file : FileStore} {disk : Disk}
    {memory : MemoryStore} {graph : Graph SettledValue}
    (fileRefines : file.Refines settings disk graph)
    (memoryRefines : memory.Refines settings graph) :
    file.storedIds disk = .ok memory.storedIds ∧
      ∀ {σ : Type} (lookup : Lookup σ), file.load disk lookup = memory.load lookup := by
  constructor
  · rw [fileRefines.storedIds, memoryRefines.storedIds]
  · intro σ lookup
    rw [memoryRefines.load lookup, FileStore.load_of_fold fileRefines.running fileRefines.fold,
      fileRefines.sameSettings]

/-- A file store in an empty directory and a new memory store that serve the same requests answer
each alike, whenever the file store folds its journal and however often it is opened again. In the
end they list the same ids, and load the same through every look-up from every state. -/
theorem backends_agree {disk : Disk} {directory : String} {options : StoreOptions} {nowMs : Int}
    {requests : List Request} (isEmpty : FileStore.IsEmptyDirectory disk directory)
    (valid : Request.ValidRun options.settings Graph.empty requests)
    (framed : ∀ request ∈ requests, request.Framed options.settings) :
    ∃ opened openedDisk answers file changed memory,
      FileStore.openStore nowMs directory options disk = (.ok opened, openedDisk) ∧
        Request.run requests (opened, openedDisk) = (answers, file, changed) ∧
        Request.runInMemory requests (.make options.settings) = (answers, memory) ∧
        file.storedIds changed = .ok memory.storedIds ∧
        ∀ {σ : Type} (lookup : Lookup σ) (state : σ),
          (file.load changed lookup).run state = (memory.load lookup).run state := by
  obtain ⟨opened, openedDisk, opens, openedRefines⟩ :=
    FileStore.refines_openStore_empty options nowMs isEmpty
  obtain ⟨file, changed, ran, fileRefines⟩ := openedRefines.run valid
  obtain ⟨memory, ranInMemory, memoryRefines⟩ :=
    (MemoryStore.refines_make options.settings).run valid framed
  obtain ⟨sameIds, sameLoads⟩ := agree_of_refines fileRefines memoryRefines
  refine ⟨opened, openedDisk, _, file, changed, memory, opens, ran, ranInMemory, sameIds, ?_⟩
  intro σ lookup state
  rw [sameLoads lookup]

section Sample

private def agreeingOptions : StoreOptions := ⟨.sync, 1, ⟨.json, ⟨[("App", "app")]⟩⟩⟩

private def agreeingEntity (id : String) (attributes : Table LiveValue) : EntityMemento LiveValue :=
  EntityMemento.mapCommon (fun common => { common with attributes := attributes })
    (EntityMemento.blank id "App")

/-- Names an entity twice and another one that it also removes. -/
private def agreeingDelta : Delta LiveValue :=
  ⟨[agreeingEntity "a" [("count", .integer 1)], agreeingEntity "b" [],
    agreeingEntity "a" [("later", .deferred ⟨0⟩), ("other", .entity ⟨0, "c", none⟩)]], [], [],
    ["b"], [], []⟩

private def agreeingGraph : Graph LiveValue := ⟨[("c", agreeingEntity "c" [])], [], []⟩

private def agreeingRequests : List Request :=
  [.checkpoint .empty 1 agreeingGraph, .delta ⟨#[.pending]⟩ 2 agreeingDelta, .reopen 0 .none 0,
    .delta .empty 3 Delta.empty, .compact 4]

variable {floats : Prop}

private theorem regular_agreeingEntity {id : String} {attributes : Table LiveValue}
    (regular : Value.RegularTable floats attributes) :
    (agreeingEntity id attributes).Regular floats :=
  ⟨⟨.nil, trivial⟩, regular, .nil⟩

private theorem regular_agreeingDelta : agreeingDelta.Regular floats := by
  have ordered : Table.Ordered (α := LiveValue)
      [("later", .deferred ⟨0⟩), ("other", .entity ⟨0, "c", none⟩)] := by
    unfold Table.Ordered
    decide
  refine ⟨?_, nofun, nofun, List.pairwise_singleton _ _, .nil, .nil⟩
  intro memento member
  simp only [agreeingDelta, List.mem_cons, List.not_mem_nil, or_false] at member
  rcases member with rfl | rfl | rfl
  · exact regular_agreeingEntity ⟨List.pairwise_singleton _ _, trivial, trivial⟩
  · exact regular_agreeingEntity ⟨.nil, trivial⟩
  · exact regular_agreeingEntity ⟨ordered, trivial, trivial, trivial⟩

private theorem regular_agreeingGraph : agreeingGraph.Regular floats := by
  refine ⟨?_, nofun, nofun, List.pairwise_singleton _ _, .nil, .nil⟩
  intro entry member
  rw [List.mem_singleton.mp member]
  exact ⟨rfl, regular_agreeingEntity ⟨.nil, trivial⟩⟩

private theorem regular_pendingCell : Cells.Regular floats ⟨#[.pending]⟩ := by
  rintro ⟨number⟩ value resolved
  cases number <;> cases resolved

private theorem agreeingGraph_limits (document : Document)
    (isDocument : agreeingOptions.settings.checkpointDocument .empty 1 agreeingGraph = .ok document) :
    document.toNode.legible 127 = true ∧
      (agreeingOptions.settings.format = .messagePack → document.toNode.Fits) := by
  cases isDocument
  exact ⟨by decide, nofun⟩

private theorem agreeingDelta_limits (document : Document)
    (isDocument : agreeingOptions.settings.deltaDocument ⟨#[.pending]⟩ 2 agreeingDelta =
      .ok document) :
    document.toNode.legible 127 = true ∧
      (agreeingOptions.settings.encodeDocument document).length < frameBound := by
  cases isDocument
  exact ⟨by decide, by decide +kernel⟩

private theorem emptyDelta_limits (document : Document)
    (isDocument : agreeingOptions.settings.deltaDocument .empty 3 Delta.empty = .ok document) :
    document.toNode.legible 127 = true ∧
      (agreeingOptions.settings.encodeDocument document).length < frameBound := by
  cases isDocument
  exact ⟨by decide, by decide +kernel⟩

private theorem valid_agreeingRequests :
    Request.ValidRun agreeingOptions.settings Graph.empty agreeingRequests :=
  ⟨⟨Cells.regular_empty, regular_agreeingGraph, agreeingGraph_limits⟩, nofun,
    ⟨regular_pendingCell, regular_agreeingDelta,
      fun document isDocument => (agreeingDelta_limits document isDocument).1⟩, nofun, trivial, nofun,
    ⟨Cells.regular_empty, ⟨nofun, nofun, nofun, .nil, .nil, .nil⟩,
      fun document isDocument => (emptyDelta_limits document isDocument).1⟩, nofun, trivial, nofun,
    trivial⟩

private theorem framed_agreeingRequests :
    ∀ request ∈ agreeingRequests, request.Framed agreeingOptions.settings := by
  intro request member
  simp only [agreeingRequests, List.mem_cons, List.not_mem_nil, or_false] at member
  rcases member with rfl | rfl | rfl | rfl | rfl
  · exact trivial
  · exact fun document isDocument => (agreeingDelta_limits document isDocument).2
  · exact trivial
  · exact fun document isDocument => (emptyDelta_limits document isDocument).2
  · exact trivial

/-- The delta is folded into a snapshot at once, and the store is opened again without a threshold. -/
theorem backends_agree_sample :
    ∃ opened openedDisk answers file changed memory,
      FileStore.openStore 0 "d" agreeingOptions Disk.empty = (.ok opened, openedDisk) ∧
        Request.run agreeingRequests (opened, openedDisk) = (answers, file, changed) ∧
        Request.runInMemory agreeingRequests (.make agreeingOptions.settings) = (answers, memory) ∧
        file.storedIds changed = .ok memory.storedIds ∧
        ∀ {σ : Type} (lookup : Lookup σ) (state : σ),
          (file.load changed lookup).run state = (memory.load lookup).run state :=
  backends_agree FileStore.isEmptyDirectory_empty valid_agreeingRequests framed_agreeingRequests

end Sample

/-! ## Beyond the limits -/

/-- Writes an entity, then gives it a display name and removes it at once. -/
def retiring (name : String) : List Request :=
  [.delta .empty 0 (naming "a" []), .delta .empty 0 (naming name ["a"])]

/-- The memory store keeps nothing of it, whatever the name is. -/
theorem runInMemory_retiring (name : String) :
    Request.runInMemory (retiring name) (.make longOptions.settings) =
      ([.ok (), .ok ()], { MemoryStore.make longOptions.settings with deltas := 2 }) := rfl

theorem runInMemory_single (id : String) :
    ∃ memory, Request.runInMemory [.checkpoint .empty 0 (single id)] (.make longOptions.settings) =
        ([.ok ()], memory) ∧
      memory.storedIds = (single id : Graph LiveValue).ids := ⟨_, rfl, rfl⟩

private def retiredGraph : Graph SettledValue := Graph.empty.apply (naming "a" [])

/-- The file store refuses to remove the entity under the long name. -/
theorem FileStore.Refines.run_retiring {store : FileStore} {disk : Disk}
    (refines : store.Refines longOptions.settings disk Graph.empty) :
    Request.ValidRun longOptions.settings Graph.empty (retiring longText) ∧
      ∃ payload after changed,
        Request.run (retiring longText) (store, disk) =
            ([.ok (), .error (Journal.tooLarge payload)], after, changed) ∧
          after.Refines longOptions.settings changed retiredGraph := by
  have short : (longOptions.settings.encodeDocument
      (longOptions.settings.documentOfDelta 0 (naming "a" []))).length < frameBound := by
    decide +kernel
  have accepted : (Request.delta .empty 0 (naming "a" [])).answer longOptions.settings = .ok () :=
    Request.answer_of_short rfl short
  have first : (Request.delta .empty 0 (naming "a" [])).fold longOptions.settings Graph.empty =
      retiredGraph := Request.fold_of_accepted rfl accepted
  have second : (Request.delta .empty 0 (naming longText ["a"])).fold longOptions.settings
      retiredGraph = retiredGraph := Request.fold_of_refused (Request.answer_longText ["a"])
  have few : Document.Few retiredGraph := by constructor <;> decide
  have valid : Request.ValidRun longOptions.settings Graph.empty (retiring longText) := by
    rw [retiring, Request.ValidRun, Request.ValidRun, first, second]
    exact ⟨Request.valid_naming "a" .nil rfl, fun _ => few,
      Request.valid_naming longText (List.pairwise_singleton _ _) rfl, fun _ => few, trivial⟩
  obtain ⟨after, changed, ran, afterRefines⟩ := refines.run valid
  rw [retiring, List.foldl_cons, List.foldl_cons, first, second] at afterRefines
  rw [retiring, List.map_cons, List.map_singleton, accepted, Request.answer_longText] at ran
  exact ⟨valid, _, after, changed, ran, afterRefines⟩

/-- No look-up makes it the empty graph that the memory store loads. -/
theorem FileStore.Refines.load_retired {store : FileStore} {disk : Disk}
    (refines : store.Refines longOptions.settings disk retiredGraph) {σ : Type} (lookup : Lookup σ)
    (state : σ) :
    (store.load disk lookup).run state ≠
      (MemoryStore.load { MemoryStore.make longOptions.settings with deltas := 2 } lookup).run
        state := by
  have named : ∀ name ∈ retiredGraph.typeNames,
      longOptions.settings.aliases.decodeName (longOptions.settings.aliases.encodeName name) =
        name := by
    decide
  obtain ⟨loaded, last, loads, -, same⟩ :=
    @FileStore.Refines.load _ _ _ _ refines _ lookup (fun _ => True) named nofun state trivial
  rw [loads]
  intro agree
  cases agree
  cases same

/-- The stores differ over a delta whose document is too long for a frame, and over a graph with an id
that is too long. -/
theorem backends_differ :
    ∃ opened openedDisk,
      FileStore.openStore 0 "d" longOptions Disk.empty = (.ok opened, openedDisk) ∧
        (∃ payload file changed memory,
          Request.ValidRun longOptions.settings Graph.empty (retiring longText) ∧
            Request.run (retiring longText) (opened, openedDisk) =
              ([.ok (), .error (Journal.tooLarge payload)], file, changed) ∧
            Request.runInMemory (retiring longText) (.make longOptions.settings) =
              ([.ok (), .ok ()], memory) ∧
            file.storedIds changed = .ok (["a"], [], []) ∧
            memory.storedIds = ([], [], []) ∧
            ∀ {σ : Type} (lookup : Lookup σ) (state : σ),
              (file.load changed lookup).run state ≠ (memory.load lookup).run state) ∧
        ∃ file changed memory,
          (single longText : Graph LiveValue).Regular True ∧
            (∀ document, longOptions.settings.checkpointDocument .empty 0 (single longText) =
              .ok document → document.toNode.legible 1023 = true) ∧
            Request.run [.checkpoint .empty 0 (single longText)] (opened, openedDisk) =
              ([.ok ()], file, changed) ∧
            Request.runInMemory [.checkpoint .empty 0 (single longText)]
              (.make longOptions.settings) = ([.ok ()], memory) ∧
            file.storedIds changed ≠ .ok memory.storedIds := by
  obtain ⟨opened, openedDisk, opens, refines⟩ :=
    FileStore.refines_openStore_empty longOptions 0 FileStore.isEmptyDirectory_empty
  obtain ⟨valid, payload, file, changed, ran, fileRefines⟩ := refines.run_retiring
  obtain ⟨taken, takenDisk, takes, unlisted⟩ := refines.longText_unlisted
  obtain ⟨memory, takesInMemory, listed⟩ := runInMemory_single longText
  refine ⟨opened, openedDisk, opens, ⟨payload, file, changed, _, valid, ran,
    runInMemory_retiring longText, fileRefines.storedIds, rfl, fileRefines.load_retired⟩, taken,
    takenDisk, memory, regular_single longText, nested_single longText, takes, takesInMemory, ?_⟩
  rw [listed]
  exact unlisted

end GraphCheckpoint.Store
