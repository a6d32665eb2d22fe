import GraphCheckpoint.Proofs.Store.Reachable
import GraphCheckpoint.Proofs.Store.Refinement

/-!
Contract: what becomes of a store whose process died while all its contents were replaced.

Owns:
- `FileStore.replacing`, the steps on the disk by which contents are replaced;
- the store that is opened behind each of the steps;
- `Graph.Mixes`, a graph that has some records of one graph and the others of another;
- what is loaded where a checkpoint died.

Does not own: the checkpoints that compaction writes.

The snapshot is in place before the journal is emptied. Between the two steps, the deltas behind the
old snapshot are read as if they came after the new one.
-/

namespace GraphCheckpoint

/-! ## Mixtures -/

namespace Graph

variable {mixed before written : Graph Datum} {documents : List Document}

/-- What the documents decide is as in the first graph, and all else is as in the second. -/
def Mixes (mixed before written : Graph Datum) (documents : List Document) : Prop :=
  ∀ kind id, (mixed.records kind).get? id =
    if ∃ document ∈ documents, document.Decides kind id then (before.records kind).get? id
    else (written.records kind).get? id

/-- Documents that are folded over another graph mix what they made of the first one into it. -/
theorem mixes_applyDocuments {graph : Graph Datum} (keyed : graph.Keyed)
    (writtenKeyed : written.Keyed) (documents : List Document) :
    Mixes (written.applyDocuments documents) (graph.applyDocuments documents) written documents :=
  get?_applyDocuments_over keyed writtenKeyed documents

/-- A mixture is the second graph where the documents decide nothing that differs. -/
theorem Mixes.eq_written_iff (mixes : Mixes mixed before written documents) (keyed : mixed.Keyed)
    (writtenKeyed : written.Keyed) :
    mixed = written ↔ ∀ kind id, (∃ document ∈ documents, document.Decides kind id) →
      (before.records kind).get? id = (written.records kind).get? id := by
  constructor
  · rintro rfl kind id decided
    have found := mixes kind id
    rw [if_pos decided] at found
    exact found.symm
  · intro agree
    refine keyed.ext writtenKeyed fun kind id => ?_
    rw [mixes kind id]
    split
    · rename_i decided
      exact agree kind id decided
    · rfl

/-- A mixture is the first graph where the second one differs in nothing that is left undecided. -/
theorem Mixes.eq_before_iff (mixes : Mixes mixed before written documents) (keyed : mixed.Keyed)
    (beforeKeyed : before.Keyed) :
    mixed = before ↔ ∀ kind id, (¬ ∃ document ∈ documents, document.Decides kind id) →
      (before.records kind).get? id = (written.records kind).get? id := by
  constructor
  · rintro rfl kind id undecided
    have found := mixes kind id
    rwa [if_neg undecided] at found
  · intro agree
    refine keyed.ext beforeKeyed fun kind id => ?_
    rw [mixes kind id]
    split
    · rfl
    · rename_i undecided
      exact (agree kind id undecided).symm

end Graph

namespace Store

open GraphCheckpoint.Encoding StoreAction

/-- Does steps one after the other, or says why one of them cannot be done. -/
def Disk.steps (disk : Disk) (diskSteps : List DiskStep) : Except DiskFault Disk :=
  diskSteps.foldlM Disk.step disk

namespace FileStore

variable {store : FileStore} {disk : Disk} {snapshot? : Option Bytes} {payloads : List Bytes}

/-- The steps by which all contents are replaced: a new snapshot, then the emptying of the journal. -/
def replacing (store : FileStore) (bytes : Bytes) : List DiskStep :=
  [.replace store.snapshotPath bytes, .write store.journal.path []]

theorem steps_replacing {bytes : Bytes} {placed changed : Disk}
    (replaces : disk.step (.replace store.snapshotPath bytes) = .ok placed)
    (writes : placed.step (.write store.journal.path []) = .ok changed) :
    disk.steps ((store.replacing bytes).take 1) = .ok placed ∧
      disk.steps (store.replacing bytes) = .ok changed := by
  constructor
  · simp only [replacing, List.take_succ_cons, List.take_zero, Disk.steps, List.foldlM_cons,
      replaces]
    rfl
  · simp only [replacing, Disk.steps, List.foldlM_cons, replaces, writes, bind, Except.bind]
    rfl

/-- The store that is left behind each number of steps, opened again. -/
theorem Sound.openStore_replacing (sound : store.Sound disk snapshot? payloads) (bytes : Bytes)
    (options : StoreOptions) (nowMs : Int) (count : Nat) :
    ∃ left opened,
      disk.steps ((store.replacing bytes).take count) = .ok left ∧
        FileStore.openStore nowMs store.directory options left = (.ok opened, left) ∧
        opened.directory = store.directory ∧ opened.options = options ∧
        opened.Sound left (if count = 0 then snapshot? else some bytes)
          (if count ≤ 1 then payloads else []) := by
  obtain ⟨journal, placed, changed, replaces, writes, -, placedSound, changedSound⟩ :=
    sound.replaceContents bytes
  obtain ⟨first, all⟩ := steps_replacing replaces writes
  rcases count with - | - | count
  · obtain ⟨opened, opens, there, hasOptions, openedSound⟩ := sound.openStore options nowMs
    exact ⟨disk, opened, rfl, opens, there, hasOptions, openedSound⟩
  · obtain ⟨opened, opens, there, hasOptions, openedSound⟩ := placedSound.openStore options nowMs
    exact ⟨placed, opened, first, opens, there, hasOptions, openedSound⟩
  · obtain ⟨opened, opens, there, hasOptions, openedSound⟩ := changedSound.openStore options nowMs
    have whole : (store.replacing bytes).take (count + 2) = store.replacing bytes :=
      List.take_of_length_le (by simp [replacing])
    refine ⟨changed, opened, by rw [whole, all], opens, there, hasOptions, ?_⟩
    rw [if_neg (by omega), if_neg (by omega)]
    exact openedSound

/-- A running store that can be read has a file for its snapshot, or none. -/
theorem Consistent.sound_of_fold (consistent : store.Consistent disk)
    (running : store.running = true) (undamaged : store.journal.damage = none) {graph : Graph Datum}
    (folds : store.fold disk = .ok graph) :
    ∃ snapshot? payloads, store.Sound disk snapshot? payloads := by
  have ready := consistent.ready running
  obtain ⟨number, payloads, journal⟩ := ready.journal.sound undamaged
  obtain ⟨snapshot, -, -, hasSnapshot, -⟩ := fold_eq_ok folds
  have sound : ∀ snapshot?, HasSnapshot disk store.snapshotPath number snapshot? →
      store.Sound disk snapshot? payloads := fun snapshot? has =>
    ⟨running, ready.journal.hasPath, ready.directory, number, journal, has⟩
  cases found : disk.entries.get? store.snapshotPath with
  | none => exact ⟨none, payloads, sound none found⟩
  | some entry =>
      cases entry with
      | directory =>
          rw [readSnapshot, Disk.read, Disk.file?, found] at hasSnapshot
          cases hasSnapshot
      | file file =>
          refine ⟨some (disk.contentsOf file), payloads, sound _ ⟨file, found, fun same => ?_,
            consistent.wellFormed.inRange _ _ found, rfl⟩⟩
          subst same
          refine journalPath_ne_snapshotPath store.directory ?_
          rw [← ready.journal.hasPath]
          exact consistent.wellFormed.apart _ _ _ journal.isFile found

/-! ## Where a checkpoint died -/

/-- The graph that a valid checkpoint describes is read back from its bytes. -/
theorem decodes_checkpoint {settings : Settings} {cells : Cells} {now : Int64}
    {whole : Graph LiveValue} {bytes : Bytes}
    (valid : (Request.checkpoint cells now whole).Valid settings)
    (encoded : settings.encodeCheckpoint cells now whole = .ok bytes) :
    ∃ document settled, settings.decodeDocument bytes = .ok document ∧
      whole.convert cells.settling = some settled ∧
      Graph.empty.applyDocument document = settled.convert (m := Id) settings.writtenForm := by
  cases isSettled : whole.convert cells.settling with
  | none =>
      rw [Settings.encodeCheckpoint_of_endless isSettled] at encoded
      cases encoded
  | some settled =>
      rw [Settings.encodeCheckpoint_of_settled isSettled] at encoded
      cases encoded
      obtain ⟨admitted, own⟩ := valid.checkpoint isSettled
      refine ⟨_, settled, Settings.decodeDocument_encodeDocument admitted, rfl, ?_⟩
      rw [Settings.apply_documentOfGraph, own]

/-- A checkpoint does the steps of a replacement and nothing else. -/
theorem Sound.checkpoint_run (sound : store.Sound disk snapshot? payloads) {cells : Cells}
    {now : Int64} {whole : Graph LiveValue} {bytes : Bytes}
    (encoded : store.settings.encodeCheckpoint cells now whole = .ok bytes) :
    ∃ after changed, FileStore.checkpoint cells now whole (store, disk) = (.ok (), after, changed) ∧
      disk.steps (store.replacing bytes) = .ok changed := by
  obtain ⟨journal, placed, changed, replaces, writes, ran, -, -⟩ := sound.replaceContents bytes
  exact ⟨{ store with journal := journal }, changed,
    (checkpoint_of_encoded sound.running encoded).trans ran, (steps_replacing replaces writes).2⟩

/-- What the store loads that is opened behind some steps of a checkpoint. -/
structure LoadsBehind (before written : Graph Datum) (documents : List Document) (count : Nat)
    (loaded : Graph Datum) : Prop where
  untouched : count = 0 → loaded = before
  /-- The old deltas are folded over the new snapshot. -/
  between : count = 1 → loaded.Mixes before written documents
  isWritten : count = 1 → (loaded = written ↔
    ∀ kind id, (∃ document ∈ documents, document.Decides kind id) →
      (before.records kind).get? id = (written.records kind).get? id)
  isBefore : count = 1 → (loaded = before ↔
    ∀ kind id, (¬ ∃ document ∈ documents, document.Decides kind id) →
      (before.records kind).get? id = (written.records kind).get? id)
  done : 2 ≤ count → loaded = written

/-- A store dies behind some of the steps of a checkpoint. The opening that follows succeeds, and the
store loads the graph before the checkpoint where no step was done, and the new graph where all were.
Where the new snapshot is in place and the journal is not yet empty, it loads a mixture: everything
that the deltas of the journal decide is as it was before the checkpoint, all else is as in the new
graph. -/
theorem openStore_during_checkpoint (reachable : store.Reachable disk)
    (running : store.running = true) (undamaged : store.journal.damage = none)
    {before : Graph Datum} (folds : store.fold disk = .ok before) {cells : Cells} {now : Int64}
    {whole : Graph LiveValue} {bytes : Bytes}
    (encoded : store.settings.encodeCheckpoint cells now whole = .ok bytes) {document : Document}
    (decodes : store.settings.decodeDocument bytes = .ok document) {options : StoreOptions}
    (sameSettings : options.settings = store.settings) (nowMs : Int) :
    (∃ after changed,
        FileStore.checkpoint cells now whole (store, disk) = (.ok (), after, changed) ∧
          disk.steps (store.replacing bytes) = .ok changed) ∧
      ((Request.checkpoint cells now whole).Valid store.settings →
        ∃ settled, whole.convert cells.settling = some settled ∧
          Graph.empty.applyDocument document =
            settled.convert (m := Id) store.settings.writtenForm) ∧
      ∃ payloads documents,
        store.journal.readPayloads disk = .ok payloads ∧
          payloads.mapM store.settings.decodeDocument = .ok documents ∧
          ∀ count, ∃ left opened loaded,
            disk.steps ((store.replacing bytes).take count) = .ok left ∧
              openStore nowMs store.directory options left = (.ok opened, left) ∧
              (∀ {σ : Type} (lookup : Lookup σ),
                opened.load left lookup = store.settings.resolveGraph lookup loaded) ∧
              LoadsBehind before (Graph.empty.applyDocument document) documents count loaded := by
  obtain ⟨snapshot?, payloads, sound⟩ :=
    reachable.consistent.sound_of_fold running undamaged folds
  obtain ⟨snapshot, others, documents, hasSnapshot, hasPayloads, areDocuments, rfl⟩ :=
    fold_eq_ok folds
  cases hasPayloads.symm.trans sound.readPayloads
  let earlier := Graph.empty.applyDocuments snapshot
  let written := Graph.empty.applyDocument document
  have earlierKeyed : earlier.Keyed := Graph.keyed_empty.applyDocuments snapshot
  have writtenKeyed : written.Keyed := Graph.keyed_empty.applyDocument document
  refine ⟨sound.checkpoint_run encoded, fun valid => ?_, payloads, documents, hasPayloads,
    areDocuments, fun count => ?_⟩
  · obtain ⟨other, settled, decodesToo, isSettled, described⟩ := decodes_checkpoint valid encoded
    cases decodes.symm.trans decodesToo
    exact ⟨settled, isSettled, described⟩
  · obtain ⟨left, opened, steps, opens, there, hasOptions, openedSound⟩ :=
      sound.openStore_replacing bytes options nowMs count
    have settings : opened.settings = store.settings := by
      rw [FileStore.settings, hasOptions]
      exact sameSettings
    have loads : ∀ loaded, opened.fold left = .ok loaded → ∀ {σ : Type} (lookup : Lookup σ),
        opened.load left lookup = store.settings.resolveGraph lookup loaded := by
      intro loaded openedFolds σ lookup
      rw [load_of_fold openedSound.running openedFolds, settings]
    have placed : [bytes].mapM opened.settings.decodeDocument = .ok [document] := by
      rw [settings, List.mapM_cons, decodes]
      rfl
    have behind : payloads.mapM opened.settings.decodeDocument = .ok documents := by
      rw [settings, areDocuments]
    rcases count with - | - | count
    · cases steps
      have sameSnapshot : disk.read opened.snapshotPath = disk.read store.snapshotPath := by
        rw [snapshotPath, there, ← snapshotPath]
      have openedFolds := (fold_congr settings sameSnapshot
        (openedSound.readPayloads.trans sound.readPayloads.symm)).trans folds
      exact ⟨disk, opened, _, rfl, opens, loads _ openedFolds, fun _ => rfl, by omega, by omega,
        by omega, by omega⟩
    · have openedFolds := openedSound.fold placed behind
      have mixes := Graph.mixes_applyDocuments earlierKeyed writtenKeyed documents
      have mixedKeyed := writtenKeyed.applyDocuments documents
      exact ⟨left, opened, written.applyDocuments documents, steps, opens, loads _ openedFolds,
        by omega, fun _ => mixes, fun _ => mixes.eq_written_iff mixedKeyed writtenKeyed,
        fun _ => mixes.eq_before_iff mixedKeyed (earlierKeyed.applyDocuments documents), by omega⟩
    · have openedFolds := openedSound.fold placed (List.mapM_nil ..)
      exact ⟨left, opened, written, steps, opens, loads _ openedFolds, by omega, by omega,
        by omega, by omega, fun _ => rfl⟩

/-! ## A mixture -/

section Mixture

private def jsonOptions : StoreOptions := ⟨.sync, 0, ⟨.json, .empty⟩⟩

/-- A graph of one entity. -/
private def graphOf (V : Type) (id : String) : Graph V :=
  ⟨[(id, EntityMemento.blank id "T")], [], []⟩

private def oldPayload : Bytes :=
  jsonOptions.settings.encodeDocument (.make .delta 0 (Delta.ofGraph (graphOf Datum "old")))

private def newSnapshot : Bytes :=
  jsonOptions.settings.encodeDocument (.make .checkpoint 0 (Delta.ofGraph (graphOf Datum "new")))

/-- A store in the directory `d`, with one delta in its journal. -/
private def journalStore : FileStore :=
  ⟨"d", jsonOptions, true, ⟨"d/mementos.journal", some 0, 1, none, none⟩⟩

private def journalDisk : Disk :=
  (⟨#[], [("d", .directory)]⟩ : Disk).newFile "d/mementos.journal" (joinFrames [oldPayload])

private def oldGraph : Graph Datum := (journalStore.fold journalDisk).toOption.getD Graph.empty

private def newDocument : Document :=
  (jsonOptions.settings.decodeDocument newSnapshot).toOption.getD default

private theorem reachable_journalStore : journalStore.Reachable journalDisk := by
  have wellFormed : journalDisk.WellFormed :=
    (Disk.wellFormed_empty.insertDirectory "d").newFile _ _
  exact @Reachable.opened 0 "d" jsonOptions journalDisk journalStore journalDisk wellFormed
    (by decide +kernel)

private def oldDocuments : List Document :=
  ([oldPayload].mapM jsonOptions.settings.decodeDocument).toOption.getD []

/-- The entity of an id, from the journal where the delta decides it, or else from the checkpoint. -/
private def mixtureOf (id : String) : Option (ObjectMemento Datum) :=
  if ∃ document ∈ oldDocuments, document.Decides .entity id then
    (oldGraph.records .entity).get? id
  else ((Graph.empty.applyDocument newDocument).records .entity).get? id

/-- What the documents come to, in one computation. -/
private theorem computed_mixture :
    (journalStore.fold journalDisk).isOk = true ∧
      (journalStore.settings.decodeDocument newSnapshot).isOk = true ∧
      journalStore.settings.encodeCheckpoint .empty 0 (graphOf LiveValue "new") = .ok newSnapshot ∧
      journalStore.journal.readPayloads journalDisk = .ok [oldPayload] ∧
      ((oldGraph.records .entity).get? "new").isSome = false ∧
      (((Graph.empty.applyDocument newDocument).records .entity).get? "old").isSome = false ∧
      (mixtureOf "old").isSome = true ∧ (mixtureOf "new").isSome = true := by
  unfold mixtureOf
  decide +kernel

/-- The journal holds a delta of one entity, and the checkpoint has another one alone. Where it died
behind its first step, both are loaded. -/
theorem openStore_during_checkpoint_old_and_new :
    ∃ left opened loaded,
      journalDisk.steps [.replace "d/mementos.snapshot" newSnapshot] = .ok left ∧
        openStore 1 journalStore.directory jsonOptions left = (.ok opened, left) ∧
        (∀ {σ : Type} (lookup : Lookup σ),
          opened.load left lookup = journalStore.settings.resolveGraph lookup loaded) ∧
        ((loaded.records .entity).get? "old").isSome = true ∧
        ((loaded.records .entity).get? "new").isSome = true ∧
        ((oldGraph.records .entity).get? "new").isSome = false ∧
        (((Graph.empty.applyDocument newDocument).records .entity).get? "old").isSome = false := by
  obtain ⟨canFold, canDecode, encoded, isPayload, notOld, notNew, hasOld, hasNew⟩ :=
    computed_mixture
  have folds : journalStore.fold journalDisk = .ok oldGraph := outcome_eq_ok_getD canFold _
  have decodes : journalStore.settings.decodeDocument newSnapshot = .ok newDocument :=
    outcome_eq_ok_getD canDecode _
  obtain ⟨-, -, payloads, documents, hasPayloads, areDocuments, behind⟩ :=
    @openStore_during_checkpoint journalStore journalDisk reachable_journalStore rfl rfl oldGraph
      folds Cells.empty 0 (graphOf LiveValue "new") newSnapshot encoded newDocument decodes
      jsonOptions rfl 1
  cases isPayload.symm.trans hasPayloads
  have isDocuments : oldDocuments = documents :=
    congrArg (fun outcome : Outcome (List Document) => outcome.toOption.getD []) areDocuments
  obtain ⟨left, opened, loaded, steps, opens, loads, loadsBehind⟩ := behind 1
  have mixes : loaded.Mixes oldGraph (Graph.empty.applyDocument newDocument) oldDocuments := by
    rw [isDocuments]
    exact loadsBehind.between rfl
  have isPath : journalStore.snapshotPath = "d/mementos.snapshot" := by decide +kernel
  rw [replacing, isPath, List.take_succ_cons, List.take_zero] at steps
  refine ⟨left, opened, loaded, steps, opens, loads, ?_, ?_, notOld, notNew⟩
  · rw [mixes .entity "old"]
    exact hasOld
  · rw [mixes .entity "new"]
    exact hasNew

end Mixture

end FileStore

end Store

end GraphCheckpoint
