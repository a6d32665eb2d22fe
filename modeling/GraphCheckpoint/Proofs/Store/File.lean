import GraphCheckpoint.Proofs.Readable
import GraphCheckpoint.Proofs.Replay
import GraphCheckpoint.Proofs.Store.Journal

/-!
Contract: what every operation of a file store leaves of its two files.

Owns:
- `FileStore.Sound`, a running store with a snapshot and the payloads behind it;
- `FileStore.Housed`, a running store whose files may hold anything;
- what becomes of a write once it is encoded, and of a folding once the store is read;
- opening, appending of payloads, replacing of all contents and reading back, each for every sound
  store.

Does not own: the documents in the files.

The snapshot is a new file every time, so it is never the file of the journal.
-/

namespace GraphCheckpoint.Store

open GraphCheckpoint.Encoding StoreAction

namespace FileStore

variable {store : FileStore} {disk : Disk} {snapshot? : Option Bytes} {payloads : List Bytes}

/-- A path names no file, or a file with the given bytes other than the given one. -/
def HasSnapshot (disk : Disk) (path : String) (number : Nat) : Option Bytes → Prop
  | none => disk.entries.get? path = none
  | some bytes => ∃ file, disk.entries.get? path = some (.file file) ∧ file ≠ number ∧
      file < disk.contents.size ∧ disk.contentsOf file = bytes

/-- A running store whose directory is there, with a snapshot or none and an undamaged journal. -/
structure Sound (store : FileStore) (disk : Disk) (snapshot? : Option Bytes)
    (payloads : List Bytes) : Prop where
  running : store.running = true
  path : store.journal.path = pathIn store.directory journalName
  directory : disk.HasDirectory store.directory
  files : ∃ number, store.journal.Sound disk number payloads ∧
    HasSnapshot disk store.snapshotPath number snapshot?

/-- A running store whose directory is there, with a file for its journal and no directory in the
place of its snapshot, whatever the files hold. -/
structure Housed (store : FileStore) (disk : Disk) (number : Nat) : Prop where
  running : store.running = true
  path : store.journal.path = pathIn store.directory journalName
  directory : disk.HasDirectory store.directory
  isFile : disk.entries.get? store.journal.path = some (.file number)
  inRange : number < disk.contents.size
  free : disk.isDirectory store.snapshotPath = false

theorem Sound.snapshotPath_ne (sound : store.Sound disk snapshot? payloads) :
    store.journal.path ≠ store.snapshotPath := by
  rw [sound.path]
  exact journalPath_ne_snapshotPath store.directory

theorem Housed.snapshotPath_ne {number : Nat} (housed : store.Housed disk number) :
    store.journal.path ≠ store.snapshotPath := by
  rw [housed.path]
  exact journalPath_ne_snapshotPath store.directory

theorem Sound.housed (sound : store.Sound disk snapshot? payloads) {number : Nat}
    (journal : store.journal.Sound disk number payloads)
    (has : HasSnapshot disk store.snapshotPath number snapshot?) : store.Housed disk number where
  running := sound.running
  path := sound.path
  directory := sound.directory
  isFile := journal.isFile
  inRange := journal.inRange
  free := by
    cases snapshot? with
    | none => exact Disk.isDirectory_of_absent has
    | some contents => exact Disk.isDirectory_of_get? has.choose_spec.1

theorem onJournal_run {α : Type} {action : StoreAction Journal α} {result : Outcome α}
    {journal : Journal} {changed : Disk}
    (ran : action (store.journal, disk) = (result, journal, changed)) :
    onJournal action (store, disk) = (result, { store with journal := journal }, changed) := by
  rw [onJournal, ran]

/-! ## Files that change apart from each other -/

theorem HasSnapshot.setContents {path : String} {number : Nat}
    (has : HasSnapshot disk path number snapshot?) (bytes : Bytes) :
    HasSnapshot (disk.setContents number bytes) path number snapshot? := by
  cases snapshot? with
  | none => exact has
  | some contents =>
      obtain ⟨file, isFile, differs, inRange, holds⟩ := has
      refine ⟨file, isFile, differs, ?_, ?_⟩
      · rw [Disk.size_setContents]
        exact inRange
      · rw [Disk.contentsOf_setContents_of_ne differs]
        exact holds

/-! ## Reading -/

theorem Sound.readPayloads (sound : store.Sound disk snapshot? payloads) :
    store.journal.readPayloads disk = .ok payloads := by
  obtain ⟨number, journal, -⟩ := sound.files
  exact journal.readPayloads

theorem Sound.readSnapshot (sound : store.Sound disk snapshot? payloads) :
    store.readSnapshot disk = snapshot?.toList.mapM store.settings.decodeDocument := by
  obtain ⟨number, -, has⟩ := sound.files
  cases snapshot? with
  | none =>
      rw [FileStore.readSnapshot, Disk.read, Disk.file?_of_absent has]
      rfl
  | some bytes =>
      obtain ⟨file, isFile, -, -, holds⟩ := has
      rw [FileStore.readSnapshot, Disk.read_of_get? isFile, holds, Option.toList_some,
        List.mapM_cons, List.mapM_nil]
      rfl

/-- A sound store is read as what the documents of its files describe. -/
theorem Sound.fold_eq (sound : store.Sound disk snapshot? payloads) :
    store.fold disk = (do
      let snapshot ← snapshot?.toList.mapM store.settings.decodeDocument
      let documents ← payloads.mapM store.settings.decodeDocument
      return (Graph.empty.applyDocuments snapshot).applyDocuments documents) := by
  rw [FileStore.fold, sound.readSnapshot, sound.readPayloads]
  rfl

/-- What a sound store is read as, once its documents are known. -/
theorem Sound.fold (sound : store.Sound disk snapshot? payloads) {snapshot : List Document}
    (snapshotRead : snapshot?.toList.mapM store.settings.decodeDocument = .ok snapshot)
    {documents : List Document}
    (read : payloads.mapM store.settings.decodeDocument = .ok documents) :
    store.fold disk =
      .ok ((Graph.empty.applyDocuments snapshot).applyDocuments documents) := by
  rw [sound.fold_eq, snapshotRead, read]
  rfl

/-- One more payload is read behind all that was read before. -/
theorem Sound.fold_append (sound : store.Sound disk snapshot? payloads) {graph : Graph Datum}
    (folds : store.fold disk = .ok graph) {appended : FileStore} {appendedDisk : Disk}
    {payload : Bytes} (appendedSound : appended.Sound appendedDisk snapshot? (payloads ++ [payload]))
    (sameSettings : appended.settings = store.settings) :
    appended.fold appendedDisk = (store.settings.decodeDocument payload).map graph.applyDocument := by
  rw [sound.fold_eq] at folds
  obtain ⟨snapshot, snapshotRead, folds⟩ := outcome_bind_eq_ok folds
  obtain ⟨documents, read, folds⟩ := outcome_bind_eq_ok folds
  cases folds
  rw [appendedSound.fold_eq, sameSettings, snapshotRead, List.mapM_append, read, List.mapM_cons,
    List.mapM_nil]
  cases decodes : store.settings.decodeDocument payload with
  | error failure => rfl
  | ok document =>
      simp only [bind, Except.bind, pure, Except.pure, Except.map, Graph.applyDocuments,
        List.foldl_append]
      rfl

/-- What a store is read as comes from documents that it holds. -/
theorem fold_eq_ok {graph : Graph Datum} (folds : store.fold disk = .ok graph) :
    ∃ snapshot payloads documents,
      store.readSnapshot disk = .ok snapshot ∧ store.journal.readPayloads disk = .ok payloads ∧
        payloads.mapM store.settings.decodeDocument = .ok documents ∧
        graph = (Graph.empty.applyDocuments snapshot).applyDocuments documents := by
  obtain ⟨snapshot, hasSnapshot, folds⟩ := outcome_bind_eq_ok folds
  obtain ⟨payloads, hasPayloads, folds⟩ := outcome_bind_eq_ok folds
  obtain ⟨documents, areDocuments, folds⟩ := outcome_bind_eq_ok folds
  cases folds
  exact ⟨snapshot, payloads, documents, hasSnapshot, hasPayloads, areDocuments, rfl⟩

theorem keyed_fold {graph : Graph Datum} (folds : store.fold disk = .ok graph) : graph.Keyed := by
  obtain ⟨snapshot, payloads, documents, -, -, -, rfl⟩ := fold_eq_ok folds
  exact (Graph.keyed_empty.applyDocuments snapshot).applyDocuments documents

/-- A graph that a store is read as comes from decoded documents. -/
theorem decoded_fold (folds : store.fold disk = .ok graph) : store.settings.Decoded graph := by
  obtain ⟨snapshot, payloads, documents, hasSnapshot, -, areDocuments, rfl⟩ := fold_eq_ok folds
  refine Settings.Decoded.applyDocuments ?_ areDocuments
  unfold readSnapshot at hasSnapshot
  split at hasSnapshot
  · obtain ⟨document, decodes, isSnapshot⟩ := outcome_bind_eq_ok hasSnapshot
    cases isSnapshot
    exact Settings.decoded_empty.applyDocument decodes
  · cases hasSnapshot
    exact Settings.decoded_empty
  · cases hasSnapshot

/-- A running store loads what it is read as. -/
theorem load_of_fold {graph : Graph Datum} (running : store.running = true)
    (folds : store.fold disk = .ok graph) {σ : Type} (lookup : Lookup σ) :
    store.load disk lookup = store.settings.resolveGraph lookup graph := by
  rw [load, if_pos running, folds]
  rfl

/-- A store that cannot be read loads nothing. -/
theorem load_of_fold_error {failure : Failure} (running : store.running = true)
    (unread : store.fold disk = .error failure) {σ : Type} (lookup : Lookup σ) (state : σ) :
    (store.load disk lookup).run state = .error failure := by
  rw [load, if_pos running, unread]
  rfl

/-- A store that loads is running and can be read. -/
theorem exists_fold_of_load {σ : Type} {lookup : Lookup σ} {before : σ}
    {result : Graph LiveValue × σ} (loads : (store.load disk lookup).run before = .ok result) :
    store.running = true ∧ ∃ graph, store.fold disk = .ok graph := by
  cases running : store.running with
  | false =>
      rw [load, running] at loads
      cases loads
  | true =>
      refine ⟨rfl, ?_⟩
      cases found : store.fold disk with
      | ok graph => exact ⟨graph, rfl⟩
      | error failure =>
          rw [load_of_fold_error running found] at loads
          cases loads

/-- A store that cannot be read does not list any ids either. -/
theorem storedIds_of_fold_error {failure : Failure} (unread : store.fold disk = .error failure) :
    store.storedIds disk = .error failure := by
  rw [storedIds, unread]
  rfl

/-- A store is folded into what it is read as. -/
theorem compact_of_fold {graph : Graph Datum} (folds : store.fold disk = .ok graph) (now : Int64) :
    FileStore.compact now (store, disk) =
      FileStore.replaceContents
        (store.settings.encodeDocument (.make .checkpoint now (Delta.ofGraph graph)))
        (store, disk) := by
  refine (bind_ok part_run).trans ((bind_ok disk_run).trans ?_)
  rw [folds]
  exact bind_ok ofExcept_ok

/-- Nothing is folded that cannot be read. -/
theorem compact_of_fold_error {failure : Failure} (unread : store.fold disk = .error failure)
    (now : Int64) : FileStore.compact now (store, disk) = (.error failure, store, disk) := by
  refine (bind_ok part_run).trans ((bind_ok disk_run).trans ?_)
  rw [unread]
  exact bind_error ofExcept_error

/-- Stores with the same settings, snapshot and payloads are read as the same. -/
theorem fold_congr {other : FileStore} {otherDisk : Disk} (sameSettings : other.settings = store.settings)
    (sameSnapshot : otherDisk.read other.snapshotPath = disk.read store.snapshotPath)
    (samePayloads : other.journal.readPayloads otherDisk = store.journal.readPayloads disk) :
    other.fold otherDisk = store.fold disk := by
  rw [FileStore.fold, FileStore.fold, readSnapshot, readSnapshot, sameSnapshot, sameSettings,
    samePayloads]

/-! ## Encoding what is to be written -/

section Encoding

variable (running : store.running = true)

include running

private theorem encoding_ok (encode : Settings → Outcome Bytes) {bytes : Bytes}
    (encoded : encode store.settings = .ok bytes)
    (next : FileStore → Bytes → StoreAction FileStore Unit) :
    (do
      let store ← StoreAction.part
      if store.running then
        let bytes ← MonadExcept.ofExcept (encode store.settings)
        next store bytes : StoreAction FileStore Unit) (store, disk) =
      next store bytes (store, disk) := by
  refine (bind_ok part_run).trans ?_
  rw [if_pos running, encoded]
  exact bind_ok ofExcept_ok

private theorem encoding_error (encode : Settings → Outcome Bytes) {failure : Failure}
    (refused : encode store.settings = .error failure)
    (next : FileStore → Bytes → StoreAction FileStore Unit) :
    (do
      let store ← StoreAction.part
      if store.running then
        let bytes ← MonadExcept.ofExcept (encode store.settings)
        next store bytes : StoreAction FileStore Unit) (store, disk) =
      (.error failure, store, disk) := by
  refine (bind_ok part_run).trans ?_
  rw [if_pos running, refused]
  exact bind_error ofExcept_error

/-- What becomes of a delta once it is encoded. -/
def takeDelta (now : Int64) (store : FileStore) (bytes : Bytes) : StoreAction FileStore Unit := do
  onJournal (Journal.append bytes)
  let threshold := store.options.compactAfter.toNat
  if 0 < threshold ∧ threshold ≤ (← part).journal.frames then FileStore.compact now

variable {cells : Cells} {now : Int64} {changes : Delta LiveValue} {whole : Graph LiveValue}
  {bytes : Bytes} {failure : Failure}

/-- A delta is encoded, then added to the journal. -/
theorem delta_of_encoded (encoded : store.settings.encodeDelta cells now changes = .ok bytes) :
    FileStore.delta cells now changes (store, disk) = takeDelta now store bytes (store, disk) :=
  encoding_ok running (fun chosen => chosen.encodeDelta cells now changes) encoded (takeDelta now)

/-- A delta that cannot be encoded is refused, and nothing changes. -/
theorem delta_of_refused (refused : store.settings.encodeDelta cells now changes = .error failure) :
    FileStore.delta cells now changes (store, disk) = (.error failure, store, disk) :=
  encoding_error running (fun chosen => chosen.encodeDelta cells now changes) refused
    (takeDelta now)

/-- A checkpoint is encoded, then put in the place of all contents. -/
theorem checkpoint_of_encoded
    (encoded : store.settings.encodeCheckpoint cells now whole = .ok bytes) :
    FileStore.checkpoint cells now whole (store, disk) =
      FileStore.replaceContents bytes (store, disk) :=
  encoding_ok running (fun chosen => chosen.encodeCheckpoint cells now whole) encoded
    fun _ => FileStore.replaceContents

/-- A checkpoint that cannot be encoded is refused, and nothing changes. -/
theorem checkpoint_of_refused
    (refused : store.settings.encodeCheckpoint cells now whole = .error failure) :
    FileStore.checkpoint cells now whole (store, disk) = (.error failure, store, disk) :=
  encoding_error running (fun chosen => chosen.encodeCheckpoint cells now whole) refused
    fun _ => FileStore.replaceContents

end Encoding

/-- A stopped store passes over a delta. -/
theorem delta_of_stopped {cells : Cells} {now : Int64} {changes : Delta LiveValue}
    (stopped : store.running = false) :
    FileStore.delta cells now changes (store, disk) = (.ok (), store, disk) := by
  refine (bind_ok part_run).trans ?_
  rw [stopped, if_neg nofun]
  rfl

/-- Nor does a checkpoint come to it. -/
theorem checkpoint_of_stopped {cells : Cells} {now : Int64} {whole : Graph LiveValue}
    (stopped : store.running = false) :
    FileStore.checkpoint cells now whole (store, disk) = (.ok (), store, disk) := by
  refine (bind_ok part_run).trans ?_
  rw [stopped, if_neg nofun]
  rfl

/-! ## Writing -/

/-- A payload goes to the end of the journal. -/
theorem Sound.append (sound : store.Sound disk snapshot? payloads) {payload : Bytes}
    (fits : payload.length < frameBound) :
    ∃ journal changed,
      onJournal (Journal.append payload) (store, disk) =
          (.ok (), { store with journal := journal }, changed) ∧
        journal.frames = payloads.length + 1 ∧
        Sound { store with journal := journal } changed snapshot? (payloads ++ [payload]) := by
  obtain ⟨number, journal, has⟩ := sound.files
  refine ⟨_, _, onJournal_run (Journal.append_run journal.undamaged journal.isOpen fits), ?_, ?_⟩
  · exact congrArg (· + 1) journal.counted
  · exact {
      running := sound.running
      path := sound.path
      directory := sound.directory.mono fun _ isDirectory => isDirectory
      files := ⟨number, journal.append fits, has.setContents _⟩ }

/-- A payload that is too large is refused, and nothing changes. -/
theorem Sound.append_tooLarge (sound : store.Sound disk snapshot? payloads) {payload : Bytes}
    (large : frameBound ≤ payload.length) :
    onJournal (Journal.append payload) (store, disk) =
      (.error (Journal.tooLarge payload), store, disk) := by
  obtain ⟨number, journal, -⟩ := sound.files
  exact onJournal_run (Journal.append_tooLarge journal.undamaged large)

/-- A snapshot is put in the place of the old one, and the journal stays. -/
theorem Housed.replaceSnapshot {number : Nat} (housed : store.Housed disk number) (bytes : Bytes) :
    disk.step (.replace store.snapshotPath bytes) = .ok (disk.newFile store.snapshotPath bytes) ∧
      store.Housed (disk.newFile store.snapshotPath bytes) number ∧
      HasSnapshot (disk.newFile store.snapshotPath bytes) store.snapshotPath number (some bytes) := by
  have notEntry : disk.entries.get? store.snapshotPath ≠ some .directory := by
    intro isDirectory
    have free := housed.free
    rw [Disk.isDirectory, isDirectory] at free
    cases free
  have larger : disk.contents.size < (disk.newFile store.snapshotPath bytes).contents.size := by
    rw [Disk.size_newFile]
    exact Nat.lt_succ_self _
  refine ⟨?_, ?_, disk.contents.size, Disk.get?_newFile_self, Nat.ne_of_gt housed.inRange, larger,
    Disk.contentsOf_newFile_new⟩
  · rw [Disk.step, housed.free]
    rfl
  · exact {
      running := housed.running
      path := housed.path
      directory := housed.directory.mono (Disk.keepsDirectories_newFile notEntry)
      isFile := (Disk.get?_newFile_of_ne housed.snapshotPath_ne).trans housed.isFile
      inRange := Nat.lt_trans housed.inRange larger
      free := Disk.isDirectory_of_get? Disk.get?_newFile_self }

/-- The journal is emptied by writing its file, whatever it held, and the snapshot stays. -/
theorem Housed.clear {number : Nat} (housed : store.Housed disk number)
    (has : HasSnapshot disk store.snapshotPath number snapshot?) :
    ∃ journal cleared,
      disk.step (.write store.journal.path []) = .ok cleared ∧
        onJournal Journal.clear (store, disk) =
          (.ok (), { store with journal := journal }, cleared) ∧
        Sound { store with journal := journal } cleared snapshot? [] := by
  have writes : disk.step (.write store.journal.path []) = .ok (disk.setContents number []) := by
    rw [Disk.step, Disk.file?_of_get? housed.isFile]
  refine ⟨_, _, writes, onJournal_run (Journal.clear_run housed.isFile), ?_⟩
  exact {
    running := housed.running
    path := housed.path
    directory := housed.directory.mono fun _ isDirectory => isDirectory
    files := ⟨number, Journal.sound_clear housed.isFile housed.inRange, has.setContents []⟩ }

theorem replaceContents_run {bytes : Bytes} {placed changed : Disk} {journal : Journal}
    (replaces : disk.step (.replace store.snapshotPath bytes) = .ok placed)
    (cleared : onJournal Journal.clear (store, placed) =
      (.ok (), { store with journal := journal }, changed)) :
    FileStore.replaceContents bytes (store, disk) =
      (.ok (), { store with journal := journal }, changed) :=
  (bind_ok part_run).trans ((bind_ok (step_ok _ replaces)).trans cleared)

/-- Whatever the files held, there are a new snapshot and an empty journal then. -/
theorem Housed.replaceContents {number : Nat} (housed : store.Housed disk number) (bytes : Bytes) :
    ∃ journal changed,
      FileStore.replaceContents bytes (store, disk) =
          (.ok (), { store with journal := journal }, changed) ∧
        Sound { store with journal := journal } changed (some bytes) [] := by
  obtain ⟨replaces, placedHoused, has⟩ := housed.replaceSnapshot bytes
  obtain ⟨journal, changed, -, cleared, clearedSound⟩ := placedHoused.clear has
  exact ⟨journal, changed, replaceContents_run replaces cleared, clearedSound⟩

theorem Sound.replaceSnapshot (sound : store.Sound disk snapshot? payloads) (bytes : Bytes) :
    ∃ placed, disk.step (.replace store.snapshotPath bytes) = .ok placed ∧
      store.Sound placed (some bytes) payloads := by
  obtain ⟨number, journal, has⟩ := sound.files
  obtain ⟨replaces, placedHoused, placedHas⟩ := (sound.housed journal has).replaceSnapshot bytes
  refine ⟨_, replaces, ?_⟩
  exact {
    running := sound.running
    path := sound.path
    directory := placedHoused.directory
    files := ⟨number, journal.newFile sound.snapshotPath_ne bytes, placedHas⟩ }

theorem Sound.clear (sound : store.Sound disk snapshot? payloads) :
    ∃ journal cleared,
      disk.step (.write store.journal.path []) = .ok cleared ∧
        onJournal Journal.clear (store, disk) =
          (.ok (), { store with journal := journal }, cleared) ∧
        Sound { store with journal := journal } cleared snapshot? [] := by
  obtain ⟨number, journal, has⟩ := sound.files
  exact (sound.housed journal has).clear has

/-- The new snapshot is in place and the journal is empty. -/
theorem Sound.replaceContents (sound : store.Sound disk snapshot? payloads) (bytes : Bytes) :
    ∃ journal placed changed,
      disk.step (.replace store.snapshotPath bytes) = .ok placed ∧
        placed.step (.write store.journal.path []) = .ok changed ∧
        FileStore.replaceContents bytes (store, disk) =
          (.ok (), { store with journal := journal }, changed) ∧
        store.Sound placed (some bytes) payloads ∧
        Sound { store with journal := journal } changed (some bytes) [] := by
  obtain ⟨placed, replaces, placedSound⟩ := sound.replaceSnapshot bytes
  obtain ⟨journal, changed, writes, cleared, clearedSound⟩ := placedSound.clear
  exact ⟨journal, placed, changed, replaces, writes, replaceContents_run replaces cleared,
    placedSound, clearedSound⟩

/-! ## Opening -/

theorem openStore_of_openAt {directory : String} (options : StoreOptions) {nowMs : Int}
    {made : Disk} (isMade : disk.makeDirectories directory = .ok made) {result : Outcome Unit}
    {journal : Journal} {opened : Disk}
    (opens : Journal.openAt nowMs (Journal.blank (pathIn directory journalName), made) =
      (result, journal, opened)) :
    openStore nowMs directory options disk =
      (result.map fun _ => ⟨directory, options, true, journal⟩, opened) := by
  have ran : (openIn nowMs).run.run (blank directory options, disk) =
      (result, ⟨directory, options, true, journal⟩, opened) := by
    refine (bind_ok part_run).trans ((bind_ok disk_run).trans ?_)
    have isDone : disk.makeDirectories (blank directory options).directory = .ok made := isMade
    rw [isDone]
    refine (bind_ok (show onDisk _ (.ok made) (blank directory options, disk) =
      (.ok made, blank directory options, disk) from rfl)).trans ?_
    refine (bind_ok (show setDisk made (blank directory options, disk) =
      (.ok (), blank directory options, made) from rfl)).trans ?_
    exact @onJournal_run (blank directory options) made _ _ _ _ _ opens
  rw [openStore, ran]

/-- A directory that is there, or can be made, and has neither a journal nor a snapshot in it. -/
def IsEmptyDirectory (disk : Disk) (directory : String) : Prop :=
  ∃ made, disk.makeDirectories directory = .ok made ∧
    made.entries.get? (pathIn directory journalName) = none ∧
    made.entries.get? (pathIn directory snapshotName) = none

theorem isEmptyDirectory_empty : IsEmptyDirectory Disk.empty "d" :=
  ⟨⟨#[], [("d", .directory)]⟩, by decide +kernel, by decide +kernel, by decide +kernel⟩

/-- In an empty directory, a store without contents is opened. -/
theorem sound_openStore_empty {directory : String} (options : StoreOptions) (nowMs : Int)
    (isEmpty : IsEmptyDirectory disk directory) :
    ∃ opened changed, openStore nowMs directory options disk = (.ok opened, changed) ∧
      opened.directory = directory ∧ opened.options = options ∧ opened.Sound changed none [] := by
  obtain ⟨made, isMade, noJournal, noSnapshot⟩ := isEmpty
  have opens := openStore_of_openAt options isMade
    (@Journal.openAt_absent (Journal.blank (pathIn directory journalName)) made nowMs noJournal)
  refine ⟨_, _, opens, rfl, rfl, ?_⟩
  have notEntry : made.entries.get? (pathIn directory journalName) ≠ some .directory := by
    rw [noJournal]
    simp
  refine {
    running := rfl
    path := rfl
    directory := (Disk.makeDirectories_ok isMade).2.mono (Disk.keepsDirectories_newFile notEntry)
    files := ⟨made.contents.size, ?_, ?_⟩ }
  · exact {
      isFile := Disk.get?_newFile_self
      inRange := by
        rw [Disk.size_newFile]
        exact Nat.lt_succ_self _
      isOpen := rfl
      undamaged := rfl
      contents := Disk.contentsOf_newFile_new
      fit := by simp
      counted := rfl }
  · change (made.newFile (pathIn directory journalName) []).entries.get?
      (pathIn directory snapshotName) = none
    rw [Disk.get?_newFile_of_ne (journalPath_ne_snapshotPath directory).symm]
    exact noSnapshot

/-- Over whole frames a store is opened, and the disk stays as it is; what the frames hold is not
looked at. -/
theorem openStore_joinFrames {directory : String} (there : disk.HasDirectory directory) {number : Nat}
    (isFile : disk.entries.get? (pathIn directory journalName) = some (.file number))
    (inRange : number < disk.contents.size) (contents : disk.contentsOf number = joinFrames payloads)
    (fit : ∀ payload ∈ payloads, payload.length < frameBound)
    (has : HasSnapshot disk (pathIn directory snapshotName) number snapshot?)
    (options : StoreOptions) (nowMs : Int) :
    ∃ opened, FileStore.openStore nowMs directory options disk = (.ok opened, disk) ∧
      opened.directory = directory ∧ opened.options = options ∧
      opened.Sound disk snapshot? payloads := by
  have scanned : scanFrames (disk.contentsOf number) =
      ⟨payloads, (joinFrames payloads).length, .clean⟩ := by
    rw [contents]
    exact scanFrames_joinFrames fit
  have opens := openStore_of_openAt options (Disk.makeDirectories_of_hasDirectory there)
    (@Journal.openAt_clean (Journal.blank (pathIn directory journalName)) disk number nowMs isFile _
      scanned rfl)
  refine ⟨_, opens, rfl, rfl, ?_⟩
  exact {
    running := rfl
    path := rfl
    directory := there
    files := ⟨number, {
      isFile := isFile
      inRange := inRange
      isOpen := rfl
      undamaged := rfl
      contents := contents
      fit := fit
      counted := rfl }, has⟩ }

/-- A sound store is opened again as it was, with whatever options. -/
theorem Sound.openStore (sound : store.Sound disk snapshot? payloads) (options : StoreOptions)
    (nowMs : Int) :
    ∃ opened, FileStore.openStore nowMs store.directory options disk = (.ok opened, disk) ∧
      opened.directory = store.directory ∧ opened.options = options ∧
      opened.Sound disk snapshot? payloads := by
  obtain ⟨number, journal, has⟩ := sound.files
  have isFile := journal.isFile
  rw [sound.path] at isFile
  exact openStore_joinFrames sound.directory isFile journal.inRange journal.contents journal.fit has
    options nowMs

end FileStore

end GraphCheckpoint.Store
