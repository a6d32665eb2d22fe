import GraphCheckpoint.Proofs.Codec
import GraphCheckpoint.Proofs.Store.Limits
import GraphCheckpoint.Proofs.Store.Request

/-!
Contract: a file store keeps the graph that its requests describe.

Owns:
- the answer to a request, and its fold over graphs of settled values;
- `FileStore.Refines`, the store's files describe a given graph;
- that every request keeps this, and that a whole run does;
- what a load and a listing of ids answer after any run;
- what becomes of a delta that no frame can hold, and of an id that MessagePack cannot count.

Does not own: the frames, or the encoding of documents.

Compaction may come after any delta; it changes the files and not what they describe.
-/

namespace GraphCheckpoint.Store

open GraphCheckpoint.Encoding StoreAction

/-! ## Answers and folds -/

namespace Request

variable (settings : Settings)

/-- The answer to a request: success, unless a computed value has no end, or the document of a delta
is longer than a length in four bytes can say. -/
def answer : Request → Outcome Unit
  | .delta cells now changes =>
      match changes.convert cells.settling with
      | none => throw settings.endless
      | some settled =>
          let payload := settings.encodeDocument (settings.documentOfDelta now settled)
          if frameBound ≤ payload.length then throw (Journal.tooLarge payload) else return
  | .checkpoint cells _ graph =>
      match graph.convert cells.settling with
      | none => throw settings.endless
      | some _ => return
  | .compact _ | .reopen .. => return

/-- The fold of a request: an accepted delta is applied, a checkpoint takes the place of the graph,
each with its values settled. -/
def fold (graph : Graph SettledValue) (request : Request) : Graph SettledValue :=
  match request with
  | .delta cells _ changes =>
      match request.answer settings, changes.convert cells.settling with
      | .ok _, some settled => graph.apply settled
      | _, _ => graph
  | .checkpoint cells _ whole => (whole.convert cells.settling).getD graph
  | .compact _ | .reopen .. => graph

section Delta

variable {settings} {cells : Cells} {now : Int64} {changes : Delta LiveValue}
  {settled : Delta SettledValue} (isSettled : changes.convert cells.settling = some settled)

include isSettled

/-- A delta whose document has no frame is refused. -/
theorem answer_of_large (large : frameBound ≤
      (settings.encodeDocument (settings.documentOfDelta now settled)).length) :
    (Request.delta cells now changes).answer settings =
      .error (Journal.tooLarge
        (settings.encodeDocument (settings.documentOfDelta now settled))) := by
  rw [answer, isSettled]
  exact if_pos large

theorem answer_of_short (short :
      (settings.encodeDocument (settings.documentOfDelta now settled)).length < frameBound) :
    (Request.delta cells now changes).answer settings = .ok () := by
  rw [answer, isSettled]
  exact if_neg (Nat.not_le.mpr short)

theorem fold_of_accepted {graph : Graph SettledValue}
    (accepted : (Request.delta cells now changes).answer settings = .ok ()) :
    (Request.delta cells now changes).fold settings graph = graph.apply settled := by
  rw [fold, accepted, isSettled]

end Delta

/-- A refused delta comes to nothing. -/
theorem fold_of_refused {settings : Settings} {cells : Cells} {now : Int64}
    {changes : Delta LiveValue} {graph : Graph SettledValue} {failure : Failure}
    (refused : (Request.delta cells now changes).answer settings = .error failure) :
    (Request.delta cells now changes).fold settings graph = graph := by
  rw [fold, refused]

/-- Regular values, without floats in JSON, in a document that does not nest too deep; a checkpoint
in MessagePack has no text, list or map of 2^32 bytes or parts. -/
def Valid : Request → Prop
  | .delta cells now changes =>
      cells.Regular (settings.format = .messagePack) ∧
        changes.Regular (settings.format = .messagePack) ∧
        ∀ document, settings.deltaDocument cells now changes = .ok document →
          document.toNode.legible settings.format.nesting = true
  | .checkpoint cells now graph =>
      cells.Regular (settings.format = .messagePack) ∧
        graph.Regular (settings.format = .messagePack) ∧
        ∀ document, settings.checkpointDocument cells now graph = .ok document →
          document.toNode.legible settings.format.nesting = true ∧
            (settings.format = .messagePack → document.toNode.Fits)
  | .compact _ | .reopen .. => True

/-- Every request of the run is valid, and in MessagePack no fold has 2^32 records of a kind. -/
def ValidRun : Graph SettledValue → List Request → Prop
  | _, [] => True
  | graph, request :: rest =>
      request.Valid settings ∧
        (settings.format = .messagePack → Document.Few (request.fold settings graph)) ∧
        ValidRun (request.fold settings graph) rest

variable {settings}

/-- The document of a valid checkpoint is within the limits, and describes the graph itself. -/
theorem Valid.checkpoint {cells : Cells} {now : Int64} {whole : Graph LiveValue}
    (valid : (Request.checkpoint cells now whole).Valid settings) {settled : Graph SettledValue}
    (isSettled : whole.convert cells.settling = some settled) :
    settings.Admits (settings.documentOfGraph now settled) ∧
      Graph.empty.apply (Delta.ofGraph settled) = settled := by
  obtain ⟨cellsRegular, wholeRegular, limits⟩ := valid
  have regular := cellsRegular.settleGraph wholeRegular isSettled
  obtain ⟨isNested, fits⟩ := limits _ (Settings.checkpointDocument_of_settled isSettled)
  exact ⟨Settings.admits_documentOfGraph (Delta.regular_ofGraph regular) isNested fits,
    Graph.apply_ofGraph regular.keyed⟩

/-! ### Deltas that carry a text -/

theorem valid_naming (name : String) {removed : IdSet} (ordered : List.Pairwise (· < ·) removed)
    (nested : (longOptions.settings.documentOfDelta 0 (naming name removed)).toNode.legible 1023 =
      true) : (Request.delta .empty 0 (naming name removed)).Valid longOptions.settings := by
  refine ⟨Cells.regular_empty, regular_naming name ordered, ?_⟩
  rintro document ⟨⟩
  exact nested

theorem answer_longText (removed : IdSet) :
    (Request.delta .empty 0 (naming longText removed)).answer longOptions.settings =
      .error (Journal.tooLarge (longOptions.settings.encodeDocument
        (longOptions.settings.documentOfDelta 0 (naming longText removed)))) :=
  @answer_of_large longOptions.settings .empty 0 _ (naming longText removed) rfl
    (long_naming removed)

end Request

/-! ## The refinement -/

namespace FileStore

variable {settings : Settings} {store : FileStore} {disk : Disk} {graph : Graph SettledValue}

/-- The store's files describe the written form of a graph, in documents within the limits. -/
structure Refines (settings : Settings) (store : FileStore) (disk : Disk)
    (graph : Graph SettledValue) : Prop where
  sameSettings : store.settings = settings
  files : ∃ (snapshot? : Option Document) (documents : List Document),
    store.Sound disk (snapshot?.map settings.encodeDocument)
        (documents.map settings.encodeDocument) ∧
      (∀ document ∈ snapshot?.toList ++ documents, settings.Admits document) ∧
      (Graph.empty.applyDocuments snapshot?.toList).applyDocuments documents =
        graph.convert (m := Id) settings.writtenForm
  admitted : settings.AdmitsGraph (graph.convert (m := Id) settings.writtenForm)

/-- The files are read as what they describe. -/
theorem Refines.fold (refines : store.Refines settings disk graph) :
    store.fold disk = .ok (graph.convert (m := Id) settings.writtenForm) := by
  obtain ⟨snapshot?, documents, sound, admitted, described⟩ := refines.files
  have snapshotRead : (snapshot?.map settings.encodeDocument).toList.mapM
      store.settings.decodeDocument = .ok snapshot?.toList := by
    rw [refines.sameSettings, Option.toList_map]
    exact mapM_map_of_inverse fun document member =>
      Settings.decodeDocument_encodeDocument (admitted document (List.mem_append_left _ member))
  have read : (documents.map settings.encodeDocument).mapM store.settings.decodeDocument =
      .ok documents := by
    rw [refines.sameSettings]
    exact mapM_map_of_inverse fun document member =>
      Settings.decodeDocument_encodeDocument (admitted document (List.mem_append_right _ member))
  rw [sound.fold snapshotRead read, described]

/-- A store with the document of a graph for a snapshot, and nothing behind it, describes the records
of the graph, each under its own id. -/
theorem refines_of_snapshot (sameSettings : store.settings = settings) {now : Int64}
    {whole : Graph SettledValue}
    (sound : store.Sound disk
      (some (settings.encodeDocument (settings.documentOfGraph now whole))) [])
    (admitted : settings.Admits (settings.documentOfGraph now whole)) :
    store.Refines settings disk (Graph.empty.apply (Delta.ofGraph whole)) := by
  refine ⟨sameSettings, ⟨some (settings.documentOfGraph now whole), [], sound, ?_,
    Settings.apply_documentOfGraph whole⟩, Settings.admitsGraph_of_admits admitted⟩
  intro other member
  rw [List.append_nil, Option.toList_some, List.mem_singleton] at member
  exact member ▸ admitted

/-- The document of a graph takes the place of all contents, whatever they were. -/
theorem Housed.placeDocument {number : Nat} (housed : store.Housed disk number)
    (sameSettings : store.settings = settings) {now : Int64} {whole : Graph SettledValue}
    (admitted : settings.Admits (settings.documentOfGraph now whole)) :
    ∃ after changed,
      FileStore.replaceContents (settings.encodeDocument (settings.documentOfGraph now whole))
          (store, disk) = (.ok (), after, changed) ∧
        after.Refines settings changed (Graph.empty.apply (Delta.ofGraph whole)) := by
  obtain ⟨journal, changed, ran, sound⟩ :=
    housed.replaceContents (settings.encodeDocument (settings.documentOfGraph now whole))
  have stillSettings : FileStore.settings { store with journal := journal } = settings :=
    sameSettings
  exact ⟨_, changed, ran, refines_of_snapshot stillSettings sound admitted⟩

theorem Refines.housed (refines : store.Refines settings disk graph) :
    ∃ number, store.Housed disk number := by
  obtain ⟨snapshot?, documents, sound, -, -⟩ := refines.files
  obtain ⟨number, journal, has⟩ := sound.files
  exact ⟨number, sound.housed journal has⟩

/-- Folding the journal changes the files and not what they describe. -/
theorem Refines.compact (refines : store.Refines settings disk graph)
    (few : settings.format = .messagePack → Document.Few graph) (now : Int64) :
    ∃ after changed, FileStore.compact now (store, disk) = (.ok (), after, changed) ∧
      after.Refines settings changed graph := by
  have writtenFew : settings.format = .messagePack →
      Document.Few (Graph.convert (m := Id) settings.writtenForm graph) := by
    intro isFormat
    have counts := few isFormat
    rw [Graph.convert_pure]
    exact ⟨by simpa [Table.mapValues] using counts.entities,
      by simpa [Table.mapValues] using counts.locations,
      by simpa [Table.mapValues] using counts.policies⟩
  obtain ⟨number, housed⟩ := refines.housed
  obtain ⟨after, changed, ran, afterRefines⟩ :=
    housed.placeDocument refines.sameSettings (refines.admitted.checkpoint writtenFew now)
  have own := Graph.apply_ofGraph ((Graph.keyed_convert _ graph).mp refines.admitted.regular.keyed)
  rw [own] at afterRefines
  refine ⟨after, changed, (compact_of_fold refines.fold now).trans ?_, afterRefines⟩
  rw [refines.sameSettings]
  exact ran

/-- The document of a delta goes to the end of the journal. -/
theorem Refines.append (refines : store.Refines settings disk graph) {now : Int64}
    {settled : Delta SettledValue}
    (admitted : settings.Admits (settings.documentOfDelta now settled))
    (short : (settings.encodeDocument (settings.documentOfDelta now settled)).length <
      frameBound) :
    ∃ after changed,
      onJournal (Journal.append (settings.encodeDocument (settings.documentOfDelta now settled)))
          (store, disk) = (.ok (), after, changed) ∧
        after.Refines settings changed (graph.apply settled) := by
  obtain ⟨snapshot?, documents, sound, earlier, described⟩ := refines.files
  obtain ⟨journal, changed, ran, -, appended⟩ := sound.append short
  have written : (graph.apply settled).convert (m := Id) settings.writtenForm =
      Graph.apply (settings.documentOfDelta now settled).content
        (graph.convert (m := Id) settings.writtenForm) :=
    Graph.convert_apply settings.writtenForm graph settled
  have files : (documents ++ [settings.documentOfDelta now settled]).map
      settings.encodeDocument = documents.map settings.encodeDocument ++
        [settings.encodeDocument (settings.documentOfDelta now settled)] := by
    rw [List.map_append, List.map_singleton]
  refine ⟨_, changed, ran, refines.sameSettings,
    ⟨snapshot?, documents ++ [settings.documentOfDelta now settled], ?_, ?_, ?_⟩, ?_⟩
  · rw [files]
    exact appended
  · intro document member
    rw [← List.append_assoc] at member
    rcases List.mem_append.mp member with old | new
    · exact earlier document old
    · rw [List.mem_singleton.mp new]
      exact admitted
  · rw [written, ← described, Graph.applyDocuments, List.foldl_append]
    rfl
  · rw [written]
    exact refines.admitted.apply admitted

/-! ## One request -/

/-- The request is answered as it should be, and leaves files that describe its fold. -/
def Keeps (settings : Settings) (request : Request) (store : FileStore) (disk : Disk)
    (graph : Graph SettledValue) : Prop :=
  ∃ after changed,
    request.perform (store, disk) = (request.answer settings, after, changed) ∧
      after.Refines settings changed (request.fold settings graph)

theorem Refines.running (refines : store.Refines settings disk graph) : store.running = true := by
  obtain ⟨snapshot?, documents, sound, -, -⟩ := refines.files
  exact sound.running

variable {cells : Cells} {now : Int64}

/-- An encoded delta goes to the journal, which is folded where it has grown to the threshold. -/
theorem Refines.takeDelta (refines : store.Refines settings disk graph)
    {settled : Delta SettledValue}
    (admitted : settings.Admits (settings.documentOfDelta now settled))
    (short : (settings.encodeDocument (settings.documentOfDelta now settled)).length < frameBound)
    (few : settings.format = .messagePack → Document.Few (graph.apply settled)) :
    ∃ after changed,
      FileStore.takeDelta now store (settings.encodeDocument (settings.documentOfDelta now settled))
          (store, disk) = (.ok (), after, changed) ∧
        after.Refines settings changed (graph.apply settled) := by
  obtain ⟨after, changed, appended, afterRefines⟩ := refines.append admitted short
  by_cases full : 0 < store.options.compactAfter.toNat ∧
      store.options.compactAfter.toNat ≤ after.journal.frames
  · obtain ⟨folded, foldedDisk, compacted, foldedRefines⟩ := afterRefines.compact few now
    refine ⟨folded, foldedDisk, (bind_ok appended).trans ((bind_ok part_run).trans ?_),
      foldedRefines⟩
    rw [if_pos full, compacted]
  · refine ⟨after, changed, (bind_ok appended).trans ((bind_ok part_run).trans ?_), afterRefines⟩
    rw [if_neg full]
    rfl

/-- A delta is applied if the journal can take its document, and refused otherwise. -/
theorem Refines.delta (refines : store.Refines settings disk graph) {changes : Delta LiveValue}
    (valid : (Request.delta cells now changes).Valid settings)
    (few : settings.format = .messagePack →
      Document.Few ((Request.delta cells now changes).fold settings graph)) :
    Keeps settings (.delta cells now changes) store disk graph := by
  obtain ⟨cellsRegular, changesRegular, nested⟩ := valid
  have sameSettings := refines.sameSettings
  cases isSettled : changes.convert cells.settling with
  | none =>
      refine ⟨store, disk, ?_, ?_⟩
      · rw [Request.answer, isSettled, ← sameSettings]
        exact delta_of_refused refines.running (Settings.encodeDelta_of_endless isSettled)
      · rw [Request.fold, Request.answer, isSettled]
        exact refines
  | some settled =>
      have encoded : store.settings.encodeDelta cells now changes =
          .ok (settings.encodeDocument (settings.documentOfDelta now settled)) := by
        rw [sameSettings]
        exact Settings.encodeDelta_of_settled isSettled
      have start := @delta_of_encoded store disk refines.running cells now changes _ encoded
      by_cases large : frameBound ≤
          (settings.encodeDocument (settings.documentOfDelta now settled)).length
      · have refused := @Request.answer_of_large settings cells now changes settled isSettled large
        obtain ⟨snapshot?, documents, sound, -, -⟩ := refines.files
        refine ⟨store, disk, ?_, ?_⟩
        · rw [refused]
          exact start.trans (bind_error (sound.append_tooLarge large))
        · rw [Request.fold_of_refused refused]
          exact refines
      · have short := Nat.not_le.mp large
        have accepted := Request.answer_of_short isSettled short
        have admitted := Settings.admits_documentOfDelta
          (cellsRegular.settleDelta changesRegular isSettled)
          (nested _ (Settings.deltaDocument_of_settled isSettled))
          (Settings.fits_of_length_encodeDocument short)
        rw [Request.fold_of_accepted isSettled accepted] at few
        obtain ⟨after, changed, taken, afterRefines⟩ := refines.takeDelta admitted short few
        rw [Keeps, accepted, Request.fold_of_accepted isSettled accepted]
        exact ⟨after, changed, start.trans taken, afterRefines⟩

/-- A checkpoint takes the place of all that was stored. -/
theorem Refines.checkpoint (refines : store.Refines settings disk graph)
    {whole : Graph LiveValue} (valid : (Request.checkpoint cells now whole).Valid settings) :
    Keeps settings (.checkpoint cells now whole) store disk graph := by
  have sameSettings := refines.sameSettings
  cases isSettled : whole.convert cells.settling with
  | none =>
      refine ⟨store, disk, ?_, ?_⟩
      · rw [Request.answer, isSettled, ← sameSettings]
        exact checkpoint_of_refused refines.running (Settings.encodeCheckpoint_of_endless isSettled)
      · rw [Request.fold, isSettled]
        exact refines
  | some settled =>
      have encoded : store.settings.encodeCheckpoint cells now whole =
          .ok (settings.encodeDocument (settings.documentOfGraph now settled)) := by
        rw [sameSettings]
        exact Settings.encodeCheckpoint_of_settled isSettled
      obtain ⟨admitted, own⟩ := valid.checkpoint isSettled
      obtain ⟨number, housed⟩ := refines.housed
      obtain ⟨after, changed, ran, afterRefines⟩ := housed.placeDocument sameSettings admitted
      rw [own] at afterRefines
      refine ⟨after, changed, ?_, ?_⟩
      · rw [Request.answer, isSettled]
        exact (checkpoint_of_encoded refines.running encoded).trans ran
      · rw [Request.fold, isSettled]
        exact afterRefines

/-- A checkpoint is taken whatever its document is, unless a value has no end. -/
theorem Refines.checkpoint_run (refines : store.Refines settings disk graph)
    {whole : Graph LiveValue} {settled : Graph SettledValue}
    (isSettled : whole.convert cells.settling = some settled) :
    ∃ after changed,
      (Request.checkpoint cells now whole).perform (store, disk) = (.ok (), after, changed) ∧
        after.settings = settings := by
  obtain ⟨number, housed⟩ := refines.housed
  obtain ⟨journal, changed, ran, -⟩ := housed.replaceContents
    (store.settings.encodeDocument (store.settings.documentOfGraph now settled))
  exact ⟨{ store with journal := journal }, changed,
    (checkpoint_of_encoded refines.running (Settings.encodeCheckpoint_of_settled isSettled)).trans
      ran, refines.sameSettings⟩

/-- Stopping a store and opening it again changes nothing that its files describe. -/
theorem Refines.reopen (refines : store.Refines settings disk graph) (nowMs : Int)
    (durability : Durability) (compactAfter : UInt64) :
    Keeps settings (.reopen nowMs durability compactAfter) store disk graph := by
  obtain ⟨snapshot?, documents, sound, admitted, described⟩ := refines.files
  obtain ⟨opened, opens, -, hasOptions, openedSound⟩ :=
    sound.openStore ⟨durability, compactAfter, settings⟩ nowMs
  refine ⟨opened, disk, ?_, ?_, ⟨snapshot?, documents, openedSound, admitted, described⟩,
    refines.admitted⟩
  · have again : FileStore.openStore nowMs store.stop.directory
        ⟨durability, compactAfter, store.stop.settings⟩ disk = (.ok opened, disk) := by
      rw [← refines.sameSettings] at opens
      exact opens
    simp only [Request.perform, again]
    rfl
  · rw [FileStore.settings, hasOptions]

/-- Every valid request is answered as it should be, and leaves files that describe its fold. -/
theorem Refines.keeps (refines : store.Refines settings disk graph) {request : Request}
    (valid : request.Valid settings) (few : settings.format = .messagePack →
      Document.Few (request.fold settings graph)) : Keeps settings request store disk graph := by
  cases request with
  | delta cells now changes => exact refines.delta valid few
  | checkpoint cells now whole => exact refines.checkpoint valid
  | compact now => exact refines.compact few now
  | reopen nowMs durability compactAfter => exact refines.reopen nowMs durability compactAfter

/-! ## Runs -/

/-- A whole run keeps the refinement, request by request. -/
theorem Refines.run (refines : store.Refines settings disk graph) {requests : List Request}
    (valid : Request.ValidRun settings graph requests) :
    ∃ after changed,
      Request.run requests (store, disk) =
          (requests.map (Request.answer settings), after, changed) ∧
        after.Refines settings changed (requests.foldl (Request.fold settings) graph) := by
  induction requests generalizing store disk graph with
  | nil => exact ⟨store, disk, rfl, refines⟩
  | cons request rest inductionHypothesis =>
      obtain ⟨requestValid, few, restValid⟩ := valid
      obtain ⟨middle, middleDisk, performed, middleRefines⟩ := refines.keeps requestValid few
      obtain ⟨after, changed, ran, afterRefines⟩ := inductionHypothesis middleRefines restValid
      refine ⟨after, changed, ?_, afterRefines⟩
      rw [Request.run, performed]
      simp only [ran, List.map_cons]

/-- A store that has been opened in an empty directory describes the empty graph. -/
theorem refines_openStore_empty {directory : String} (options : StoreOptions) (nowMs : Int)
    (isEmpty : IsEmptyDirectory disk directory) :
    ∃ opened changed, openStore nowMs directory options disk = (.ok opened, changed) ∧
      opened.Refines options.settings changed Graph.empty := by
  obtain ⟨opened, changed, opens, -, hasOptions, sound⟩ :=
    sound_openStore_empty options nowMs isEmpty
  have written : (Graph.empty : Graph SettledValue).convert (m := Id)
      options.settings.writtenForm = Graph.empty := rfl
  refine ⟨opened, changed, opens, ?_, ⟨none, [], sound, by simp, ?_⟩, ?_⟩
  · rw [FileStore.settings, hasOptions]
  · rw [written]
    rfl
  · rw [written]
    exact Settings.admitsGraph_empty

/-! ## Loads and listings -/

theorem Refines.storedIds (refines : store.Refines settings disk graph) :
    store.storedIds disk = .ok graph.ids := by
  rw [FileStore.storedIds, refines.fold]
  exact congrArg Except.ok (Graph.ids_convert settings.writtenForm graph)

/-- A load gives the graph, with the references that the look-up finds. -/
theorem Refines.load (refines : store.Refines settings disk graph) {σ : Type} {lookup : Lookup σ}
    {kept : σ → Prop}
    (named : ∀ name ∈ graph.typeNames,
      settings.aliases.decodeName (settings.aliases.encodeName name) = name)
    (resolves : ∀ reference ∈ graph.valueReferences Value.referencesOfEntries,
      lookup.Resolves kept reference.1 reference.2.id (settings.expectedType reference.2))
    {state : σ} (isKept : kept state) :
    ∃ loaded last, (store.load disk lookup).run state = .ok (loaded, last) ∧ kept last ∧
      loaded.byIds = graph.lifted.byIds := by
  obtain ⟨loaded, last, ran, lastKept, same⟩ :=
    Settings.resolveGraph_written named resolves isKept
  refine ⟨loaded, last, ?_, lastKept, same⟩
  rw [load_of_fold refines.running refines.fold, refines.sameSettings]
  exact ran

/-- Whatever run of requests a store serves from an empty directory on, it answers each as it
should; afterwards it lists the ids of the graph that the requests describe, and loads that graph
through every look-up that finds its references. -/
theorem run_from_empty_directory {directory : String} {options : StoreOptions} {nowMs : Int}
    {requests : List Request} {σ : Type} {lookup : Lookup σ} {kept : σ → Prop} {state : σ}
    (isEmpty : IsEmptyDirectory disk directory)
    (valid : Request.ValidRun options.settings Graph.empty requests)
    (described : requests.foldl (Request.fold options.settings) Graph.empty = graph)
    (named : ∀ name ∈ graph.typeNames,
      options.settings.aliases.decodeName (options.settings.aliases.encodeName name) = name)
    (resolves : ∀ reference ∈ graph.valueReferences Value.referencesOfEntries,
      lookup.Resolves kept reference.1 reference.2.id (options.settings.expectedType reference.2))
    (isKept : kept state) :
    ∃ opened openedDisk after changed loaded last,
      openStore nowMs directory options disk = (.ok opened, openedDisk) ∧
        Request.run requests (opened, openedDisk) =
          (requests.map (Request.answer options.settings), after, changed) ∧
        after.storedIds changed = .ok graph.ids ∧
        (after.load changed lookup).run state = .ok (loaded, last) ∧
        loaded.byIds = graph.lifted.byIds := by
  obtain ⟨opened, openedDisk, opens, refines⟩ := refines_openStore_empty options nowMs isEmpty
  obtain ⟨after, changed, ran, afterRefines⟩ := refines.run valid
  rw [described] at afterRefines
  obtain ⟨loaded, last, loads, -, same⟩ := afterRefines.load named resolves isKept
  exact ⟨opened, openedDisk, after, changed, loaded, last, opens, ran, afterRefines.storedIds, loads,
    same⟩

/-! ## A run -/

section Sample

private def sampleSettings : Settings := ⟨.messagePack, ⟨[("App", "app")]⟩⟩

private def sampleEntity (δ : Type) (attributes : Table (Value Handle δ)) :
    EntityMemento (Value Handle δ) :=
  EntityMemento.mapCommon (fun common => { common with attributes := attributes })
    (EntityMemento.blank "a" "App")

/-- Writes an entity that refers to itself, with a float and a pending value. -/
private def sampleDelta : Request :=
  .delta ⟨#[.pending]⟩ 0
    ⟨[sampleEntity CellId [("later", .deferred ⟨0⟩), ("level", .float ⟨0⟩),
      ("self", .entity ⟨0, "a", none⟩)]], [], [], [], [], []⟩

private def sampleGraph : Graph SettledValue :=
  ⟨[("a", sampleEntity Empty [("level", .float ⟨0⟩), ("self", .entity ⟨0, "a", none⟩)])], [], []⟩

private def sampleLookup : Lookup Unit :=
  StaticLookup.resolver ⟨[("a", ⟨3, "a", some "App"⟩)], []⟩

private theorem fold_sampleDelta :
    sampleDelta.fold sampleSettings Graph.empty = sampleGraph := by
  have accepted : sampleDelta.answer sampleSettings = .ok () := by decide +kernel
  rw [sampleDelta, Request.fold, ← sampleDelta, accepted]
  rfl

private theorem valid_sampleDelta : sampleDelta.Valid sampleSettings := by
  refine ⟨?_, ⟨?_, ?_, ?_, ?_, ?_, ?_⟩, ?_⟩
  · rintro ⟨number⟩ value resolved
    cases number <;> cases resolved
  · intro memento member
    rw [List.mem_singleton.mp member]
    have ordered : Table.Ordered (sampleEntity CellId [("later", .deferred ⟨0⟩),
        ("level", .float ⟨0⟩), ("self", .entity ⟨0, "a", none⟩)]).common.attributes := by
      unfold Table.Ordered
      decide +kernel
    exact ⟨⟨.nil, trivial⟩, ⟨ordered, trivial, rfl, trivial, trivial⟩, .nil⟩
  · nofun
  · nofun
  · exact .nil
  · exact .nil
  · exact .nil
  · rintro document ⟨⟩
    decide +kernel

/-- A delta, a compaction and a restart of the store. -/
theorem run_from_empty_directory_sample :
    ∃ opened openedDisk after changed loaded last,
      openStore 0 "d" ⟨.sync, 2, sampleSettings⟩ Disk.empty = (.ok opened, openedDisk) ∧
        Request.run [sampleDelta, .compact 0, .reopen 0 .none 5] (opened, openedDisk) =
          ([.ok (), .ok (), .ok ()], after, changed) ∧
        after.storedIds changed = .ok ⟨["a"], [], []⟩ ∧
        (after.load changed sampleLookup).run () = .ok (loaded, last) ∧
        loaded.byIds = sampleGraph.lifted.byIds := by
  have valid : Request.ValidRun sampleSettings Graph.empty
      [sampleDelta, .compact 0, .reopen 0 .none 5] := by
    have few : Document.Few sampleGraph := by constructor <;> decide
    rw [Request.ValidRun, fold_sampleDelta]
    exact ⟨valid_sampleDelta, fun _ => few, trivial, fun _ => few, trivial, fun _ => few, trivial⟩
  have described : [sampleDelta, .compact 0, .reopen 0 .none 5].foldl
      (Request.fold sampleSettings) Graph.empty = sampleGraph := by
    rw [List.foldl_cons, fold_sampleDelta]
    rfl
  have named : ∀ name ∈ sampleGraph.typeNames,
      sampleSettings.aliases.decodeName (sampleSettings.aliases.encodeName name) = name := by
    decide +kernel
  have references : sampleGraph.valueReferences Value.referencesOfEntries =
      [(.entity, ⟨0, "a", none⟩)] := rfl
  have resolves : ∀ reference ∈ sampleGraph.valueReferences Value.referencesOfEntries,
      sampleLookup.Resolves (fun _ => True) reference.1 reference.2.id
        (sampleSettings.expectedType reference.2) := by
    rw [references]
    intro reference member state _
    rw [List.mem_singleton.mp member]
    exact ⟨⟨3, "a", some "App"⟩, (), rfl, rfl, trivial⟩
  have answers : [sampleDelta, .compact 0, .reopen 0 .none 5].map
      (Request.answer sampleSettings) = [.ok (), .ok (), .ok ()] := by
    decide +kernel
  rw [← answers]
  exact @run_from_empty_directory Disk.empty sampleGraph "d" ⟨.sync, 2, sampleSettings⟩ 0
    [sampleDelta, .compact 0, .reopen 0 .none 5] Unit sampleLookup (fun _ => True) ()
    isEmptyDirectory_empty valid described named resolves trivial

end Sample

/-! ## Beyond the limits -/

/-- A graph with the long text for an id is taken, and the id is not listed. -/
theorem Refines.longText_unlisted (refines : store.Refines longOptions.settings disk graph) :
    ∃ after changed,
      Request.run [.checkpoint .empty 0 (single longText)] (store, disk) =
          ([.ok ()], after, changed) ∧
        after.storedIds changed ≠ .ok (single longText : Graph LiveValue).ids := by
  obtain ⟨after, changed, ran, sameSettings⟩ :=
    @Refines.checkpoint_run _ _ _ _ .empty 0 refines (single longText) _ rfl
  refine ⟨after, changed, by simp only [Request.run, ran], fun lists => ?_⟩
  have isFormat : after.settings.format = .messagePack := by
    rw [sameSettings]
    rfl
  have short := short_of_storedIds isFormat lists longText List.mem_cons_self
  exact absurd length_longText (Nat.ne_of_lt short)

/-- A delta whose document is too long for a frame is refused, and nothing of it is stored. A graph
with an id that is too long is taken, and the id is not listed. -/
theorem run_beyond_limits :
    ∃ opened openedDisk,
      openStore 0 "d" longOptions Disk.empty = (.ok opened, openedDisk) ∧
        (∃ payload after changed,
          Request.ValidRun longOptions.settings Graph.empty
              [.delta .empty 0 (naming longText [])] ∧
            Request.run [.delta .empty 0 (naming longText [])] (opened, openedDisk) =
              ([.error (Journal.tooLarge payload)], after, changed) ∧
            after.storedIds changed = .ok ⟨[], [], []⟩ ∧
            (Graph.empty.apply (naming longText [] : Delta LiveValue)).ids = ⟨["a"], [], []⟩) ∧
        ∃ after changed,
          (single longText : Graph LiveValue).Regular True ∧
            (∀ document, longOptions.settings.checkpointDocument .empty 0 (single longText) =
              .ok document → document.toNode.legible 1023 = true) ∧
            Request.run [.checkpoint .empty 0 (single longText)] (opened, openedDisk) =
              ([.ok ()], after, changed) ∧
            after.storedIds changed ≠ .ok (single longText : Graph LiveValue).ids := by
  obtain ⟨opened, openedDisk, opens, refines⟩ :=
    refines_openStore_empty longOptions 0 isEmptyDirectory_empty
  have isFold : (Request.delta .empty 0 (naming longText [])).fold longOptions.settings Graph.empty =
      Graph.empty := Request.fold_of_refused (Request.answer_longText [])
  have few : Document.Few (Graph.empty : Graph SettledValue) := by constructor <;> decide
  have valid : Request.ValidRun longOptions.settings Graph.empty
      [.delta .empty 0 (naming longText [])] := by
    refine ⟨Request.valid_naming longText .nil rfl, fun _ => ?_, trivial⟩
    rw [isFold]
    exact few
  obtain ⟨refused, refusedDisk, ran, refusedRefines⟩ := refines.run valid
  rw [List.map_singleton, Request.answer_longText] at ran
  rw [List.foldl_cons, isFold] at refusedRefines
  obtain ⟨taken, takenDisk, takes, unlisted⟩ := refines.longText_unlisted
  exact ⟨opened, openedDisk, opens, ⟨_, refused, refusedDisk, valid, ran,
    refusedRefines.storedIds, ids_naming longText⟩, taken, takenDisk, regular_single longText,
    nested_single longText, takes, unlisted⟩

end FileStore

end GraphCheckpoint.Store
