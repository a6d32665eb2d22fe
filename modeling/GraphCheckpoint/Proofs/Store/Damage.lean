import GraphCheckpoint.Proofs.RoundTrip
import GraphCheckpoint.Proofs.Store.Refinement

/-!
Contract: what a store does over a damaged journal.

Owns:
- `Request.refusal`, the answer to a request for as long as the journal is damaged;
- `FileStore.Damaged`, which every request but a checkpoint keeps, along with the disk;
- that a checkpoint brings the store back.

Does not own: which bytes are damaged.

Nothing that the store does looks behind the damage, so neither the journal nor the snapshot has to
hold anything in particular.
-/

namespace GraphCheckpoint.Store

open GraphCheckpoint.Encoding StoreAction

/-! ## Requests over a damaged journal -/

namespace Request

def isCheckpoint : Request → Bool
  | .checkpoint .. => true
  | .delta .. | .compact _ | .reopen .. => false

/-- The answer to a request other than a checkpoint, over a journal with damage that makes every
reading fail with the text. A delta without an end does not come to the journal. -/
def refusal (settings : Settings) (reason text : String) : Request → Outcome Unit
  | .delta cells _ changes =>
      match changes.convert cells.settling with
      | none => throw settings.endless
      | some _ => throw (Journal.refusal reason)
  | .compact _ => throw (.encoding text)
  | .checkpoint .. | .reopen .. => return

end Request

namespace FileStore

variable {store : FileStore} {disk : Disk} {reason text : String}

/-- A running store over a damaged journal, which it has found damaged; no reading succeeds. -/
structure Damaged (store : FileStore) (disk : Disk) (reason text : String) : Prop where
  files : ∃ number, store.Housed disk number ∧
    (scanFrames (disk.contentsOf number)).tail = .corrupt reason
  damage : store.journal.damage = some reason
  setAside : store.journal.setAside = none
  unread : store.fold disk = .error (.encoding text)

theorem Damaged.running (damaged : store.Damaged disk reason text) : store.running = true := by
  obtain ⟨number, housed, -⟩ := damaged.files
  exact housed.running

/-! ## Opening -/

theorem isFile_of_read {path : String} {bytes : Bytes} (found : disk.read path = .ok bytes) :
    ∃ number, disk.entries.get? path = some (.file number) ∧ disk.contentsOf number = bytes := by
  rw [Disk.read, Disk.file?] at found
  cases entry : disk.entries.get? path with
  | none =>
      rw [entry] at found
      cases found
  | some standing =>
      rw [entry] at found
      cases standing with
      | directory => cases found
      | file number => exact ⟨number, rfl, Except.ok.inj found⟩

/-- Damage is in bytes that are there, so the file has them. -/
theorem inRange_of_corrupt {number : Nat}
    (corrupt : (scanFrames (disk.contentsOf number)).tail = .corrupt reason) :
    number < disk.contents.size := by
  by_contra beyond
  have isEmpty : disk.contentsOf number = [] := by
    simp [Disk.contentsOf, Array.getD_eq_getD_getElem?, beyond]
  rw [isEmpty, scanFrames, scanFrom_nil] at corrupt
  cases corrupt

/-- Over a damaged journal the store is opened, and the disk stays as it is. -/
theorem openStore_damaged {directory : String} (options : StoreOptions) (nowMs : Int)
    (there : disk.HasDirectory directory) {number : Nat}
    (isFile : disk.entries.get? (pathIn directory journalName) = some (.file number))
    (corrupt : (scanFrames (disk.contentsOf number)).tail = .corrupt reason)
    (free : disk.isDirectory (pathIn directory snapshotName) = false) :
    ∃ opened, openStore nowMs directory options disk = (.ok opened, disk) ∧
      opened.directory = directory ∧ opened.options = options ∧ opened.Housed disk number ∧
      opened.journal.damage = some reason ∧ opened.journal.setAside = none := by
  have opens := openStore_of_openAt options (Disk.makeDirectories_of_hasDirectory there)
    (@Journal.openAt_corrupt (Journal.blank (pathIn directory journalName)) disk number nowMs
      isFile _ rfl reason corrupt)
  refine ⟨_, opens, rfl, rfl, ?_, rfl, rfl⟩
  exact {
    running := rfl
    path := rfl
    directory := there
    isFile := isFile
    inRange := inRange_of_corrupt corrupt
    free := free }

/-- A snapshot that is a file, or is not there, can only fail to be a document. -/
theorem readSnapshot_error (free : disk.isDirectory store.snapshotPath = false) {failure : Failure}
    (fails : store.readSnapshot disk = .error failure) : ∃ text, failure = .encoding text := by
  rw [readSnapshot, Disk.read, Disk.file?] at fails
  cases found : disk.entries.get? store.snapshotPath with
  | none =>
      rw [found] at fails
      cases fails
  | some entry =>
      rw [found] at fails
      cases entry with
      | directory =>
          rw [Disk.isDirectory, found] at free
          cases free
      | file number =>
          cases decodes : store.settings.decodeDocument (disk.contentsOf number) with
          | error unread =>
              obtain ⟨text, rfl⟩ := Settings.decodeDocument_error decodes
              simp only [Except.map, decodes] at fails
              cases fails
              exact ⟨text, rfl⟩
          | ok document =>
              simp only [Except.map, decodes] at fails
              cases fails

/-- A store with a damaged journal cannot be read, whatever its snapshot is. -/
theorem fold_damaged (damage : store.journal.damage = some reason)
    (free : disk.isDirectory store.snapshotPath = false) :
    ∃ text, store.fold disk = .error (.encoding text) := by
  cases read : store.readSnapshot disk with
  | error failure =>
      obtain ⟨text, rfl⟩ := readSnapshot_error free read
      refine ⟨text, ?_⟩
      rw [FileStore.fold, read]
      rfl
  | ok snapshot =>
      refine ⟨"corrupt journal: " ++ reason, ?_⟩
      rw [FileStore.fold, read, Journal.readPayloads_damaged damage]
      rfl

/-! ## One request -/

/-- The request is refused, and leaves the damage and the disk as they are. -/
def Withstands (settings : Settings) (request : Request) (store : FileStore) (disk : Disk)
    (reason text : String) : Prop :=
  ∃ after, request.perform (store, disk) = (request.refusal settings reason text, after, disk) ∧
    after.settings = settings ∧ after.Damaged disk reason text

/-- No delta comes into the journal. -/
theorem Damaged.delta (damaged : store.Damaged disk reason text) (cells : Cells) (now : Int64)
    (changes : Delta LiveValue) :
    Withstands store.settings (.delta cells now changes) store disk reason text := by
  refine ⟨store, ?_, rfl, damaged⟩
  cases isSettled : changes.convert cells.settling with
  | none =>
      rw [Request.refusal, isSettled]
      exact delta_of_refused damaged.running (Settings.encodeDelta_of_endless isSettled)
  | some settled =>
      rw [Request.refusal, isSettled]
      have encoded := @Settings.encodeDelta_of_settled store.settings cells now changes settled
        isSettled
      refine (delta_of_encoded damaged.running encoded).trans ?_
      exact bind_error (onJournal_run (Journal.append_damaged damaged.damage))

theorem Damaged.compact (damaged : store.Damaged disk reason text) (now : Int64) :
    Withstands store.settings (.compact now) store disk reason text :=
  ⟨store, compact_of_fold_error damaged.unread now, rfl, damaged⟩

/-- The damage is found again at the next opening. -/
theorem Damaged.reopen (damaged : store.Damaged disk reason text) (nowMs : Int)
    (durability : Durability) (compactAfter : UInt64) :
    Withstands store.settings (.reopen nowMs durability compactAfter) store disk reason text := by
  obtain ⟨number, housed, corrupt⟩ := damaged.files
  have isFile := housed.isFile
  rw [housed.path] at isFile
  obtain ⟨opened, opens, there, hasOptions, openedHoused, damage, setAside⟩ :=
    openStore_damaged ⟨durability, compactAfter, store.settings⟩ nowMs housed.directory isFile
      corrupt housed.free
  have sameSettings : opened.settings = store.settings := by
    rw [FileStore.settings, hasOptions]
  -- A reading fails at the snapshot or at the journal, and both are what they were.
  have sameSnapshot : disk.read opened.snapshotPath = disk.read store.snapshotPath := by
    rw [snapshotPath, there, ← snapshotPath]
  have samePayloads : opened.journal.readPayloads disk = store.journal.readPayloads disk := by
    rw [Journal.readPayloads_damaged damage, Journal.readPayloads_damaged damaged.damage]
  refine ⟨opened, ?_, sameSettings, ⟨number, openedHoused, corrupt⟩, damage, setAside,
    (fold_congr sameSettings sameSnapshot samePayloads).trans damaged.unread⟩
  have again : FileStore.openStore nowMs store.stop.directory
      ⟨durability, compactAfter, store.stop.settings⟩ disk = (.ok opened, disk) := opens
  simp only [Request.perform, again]
  rfl

/-- Every request but a checkpoint is refused, and leaves the damage and the disk as they are. -/
theorem Damaged.withstands (damaged : store.Damaged disk reason text) {request : Request}
    (other : request.isCheckpoint = false) :
    Withstands store.settings request store disk reason text := by
  cases request with
  | delta cells now changes => exact damaged.delta cells now changes
  | checkpoint cells now whole => cases other
  | compact now => exact damaged.compact now
  | reopen nowMs durability compactAfter => exact damaged.reopen nowMs durability compactAfter

/-! ## Runs -/

/-- So is a whole run of such requests, from the first to the last. -/
theorem Damaged.run (damaged : store.Damaged disk reason text) {requests : List Request}
    (others : ∀ request ∈ requests, request.isCheckpoint = false) :
    ∃ after, Request.run requests (store, disk) =
        (requests.map (Request.refusal store.settings reason text), after, disk) ∧
      after.settings = store.settings ∧ after.Damaged disk reason text := by
  induction requests generalizing store with
  | nil => exact ⟨store, rfl, rfl, damaged⟩
  | cons request rest inductionHypothesis =>
      obtain ⟨middle, performed, sameSettings, middleDamaged⟩ :=
        damaged.withstands (others request List.mem_cons_self)
      obtain ⟨after, ran, still, afterDamaged⟩ := inductionHypothesis middleDamaged
        fun another member => others another (List.mem_cons_of_mem request member)
      refine ⟨after, ?_, still.trans sameSettings, afterDamaged⟩
      rw [Request.run, performed]
      simp only [ran, sameSettings, List.map_cons]

/-- What is seen of a store that has stopped over a damaged journal. -/
structure FailStop (store : FileStore) (disk : Disk) (reason text : String) : Prop where
  running : store.running = true
  damage : store.journal.damage = some reason
  setAside : store.journal.setAside = none
  storedIds : store.storedIds disk = .error (.encoding text)
  loads : ∀ {σ : Type} (lookup : Lookup σ) (state : σ),
    (store.load disk lookup).run state = .error (.encoding text)

theorem Damaged.failStop (damaged : store.Damaged disk reason text) :
    store.FailStop disk reason text where
  running := damaged.running
  damage := damaged.damage
  setAside := damaged.setAside
  storedIds := storedIds_of_fold_error damaged.unread
  loads := load_of_fold_error damaged.running damaged.unread

/-! ## After a checkpoint -/

/-- The document of a delta goes behind the others; the journal is folded if it is long enough then. -/
theorem Sound.delta_run {snapshot? : Option Bytes} {payloads : List Bytes}
    (sound : store.Sound disk snapshot? payloads) {cells : Cells} {now : Int64}
    {changes : Delta LiveValue} {settled : Delta SettledValue}
    (isSettled : changes.convert cells.settling = some settled)
    (short : (store.settings.encodeDocument (store.settings.documentOfDelta now settled)).length <
      frameBound) :
    ∃ taken changed,
      FileStore.delta cells now changes (store, disk) =
          (if 0 < store.options.compactAfter.toNat ∧
              store.options.compactAfter.toNat ≤ payloads.length + 1 then FileStore.compact now
            else return : StoreAction FileStore Unit) (taken, changed) ∧
        taken.Sound changed snapshot? (payloads ++
          [store.settings.encodeDocument (store.settings.documentOfDelta now settled)]) := by
  obtain ⟨journal, changed, appended, counted, appendedSound⟩ := sound.append short
  have encoded := @Settings.encodeDelta_of_settled store.settings cells now changes settled isSettled
  refine ⟨_, changed, (delta_of_encoded sound.running encoded).trans ?_, appendedSound⟩
  rw [← counted]
  exact (bind_ok appended).trans (bind_ok part_run)

/-- What is seen of a store without damage and with an empty journal, whatever its snapshot is. -/
structure Mended (settings : Settings) (store : FileStore) (disk : Disk) : Prop where
  running : store.running = true
  undamaged : store.journal.damage = none
  /-- Every delta that fits into a frame comes into the journal, also one that cannot be read back. -/
  takes : ∀ {cells : Cells} {now : Int64} {changes : Delta LiveValue}
      {normal : Delta SettledValue}, changes.NormalForm cells normal →
    (settings.encodeDocument (settings.documentOfDelta now normal)).length < frameBound →
    ∃ taken changed,
      FileStore.delta cells now changes (store, disk) =
          (if 0 < store.options.compactAfter.toNat ∧ store.options.compactAfter.toNat ≤ 1 then
              FileStore.compact now
            else return : StoreAction FileStore Unit) (taken, changed) ∧
        taken.journal.readPayloads changed =
          .ok [settings.encodeDocument (settings.documentOfDelta now normal)]

/-- What is seen of a store that holds a graph. -/
structure Restored (settings : Settings) (store : FileStore) (disk : Disk)
    (graph : Graph SettledValue) : Prop where
  storedIds : store.storedIds disk = .ok graph.ids
  loads : ∀ {σ : Type} {lookup : Lookup σ} {kept : σ → Prop} {state : σ},
    settings.Restores lookup kept graph.typeNames
      (graph.valueReferences Value.referencesOfEntries) → kept state →
    ∃ loaded last, (store.load disk lookup).run state = .ok (loaded, last) ∧
      loaded.byIds = graph.lifted.byIds
  serves : ∀ {requests : List Request}, Request.ValidRun settings graph requests →
    ∃ after changed,
      Request.run requests (store, disk) =
          (requests.map (Request.answer settings), after, changed) ∧
        after.Refines settings changed (requests.foldl (Request.fold settings) graph)

theorem Sound.mended {snapshot? : Option Bytes} (sound : store.Sound disk snapshot? []) :
    store.Mended store.settings disk where
  running := sound.running
  undamaged := by
    obtain ⟨number, journal, -⟩ := sound.files
    exact journal.undamaged
  takes := by
    intro cells now changes normal isNormal short
    obtain ⟨taken, changed, ran, takenSound⟩ :=
      sound.delta_run (Delta.convert_settling_iff.mpr isNormal) short
    exact ⟨taken, changed, ran, takenSound.readPayloads⟩

theorem Refines.restored {settings : Settings} {graph : Graph SettledValue}
    (refines : store.Refines settings disk graph) : store.Restored settings disk graph where
  storedIds := refines.storedIds
  loads := by
    intro σ lookup kept state restores isKept
    obtain ⟨loaded, last, ran, -, same⟩ := refines.load restores.named restores.resolves isKept
    exact ⟨loaded, last, ran, same⟩
  serves := refines.run

/-- A checkpoint takes the place of all contents, whatever they were. -/
theorem Housed.checkpoint {number : Nat} (housed : store.Housed disk number) {cells : Cells}
    {now : Int64} {whole : Graph LiveValue} {normal : Graph SettledValue}
    (isNormal : whole.NormalForm cells normal) :
    ∃ after changed,
      FileStore.checkpoint cells now whole (store, disk) = (.ok (), after, changed) ∧
        after.Mended store.settings changed ∧
        (store.settings.Admits (store.settings.documentOfGraph now normal) →
          after.Restored store.settings changed (Graph.empty.apply (Delta.ofGraph normal))) := by
  obtain ⟨journal, changed, ran, sound⟩ := housed.replaceContents
    (store.settings.encodeDocument (store.settings.documentOfGraph now normal))
  have encoded := @Settings.encodeCheckpoint_of_settled store.settings cells now whole normal
    (Graph.convert_settling_iff.mpr isNormal)
  exact ⟨_, changed, (checkpoint_of_encoded housed.running encoded).trans ran, sound.mended,
    fun admitted => (refines_of_snapshot rfl sound admitted).restored⟩

/-- So it takes the damage away. -/
theorem Damaged.checkpoint (damaged : store.Damaged disk reason text) {cells : Cells} {now : Int64}
    {whole : Graph LiveValue} {normal : Graph SettledValue}
    (isNormal : whole.NormalForm cells normal) :
    ∃ after changed,
      FileStore.checkpoint cells now whole (store, disk) = (.ok (), after, changed) ∧
        after.Mended store.settings changed ∧
        (store.settings.Admits (store.settings.documentOfGraph now normal) →
          after.Restored store.settings changed (Graph.empty.apply (Delta.ofGraph normal))) := by
  obtain ⟨_, housed, -⟩ := damaged.files
  exact housed.checkpoint isNormal

/-- Whatever a damaged journal and the snapshot beside it hold, a store is opened over them. Until a
checkpoint comes, it refuses every delta, reads nothing and folds nothing, in every run and however
often it is opened again; it goes on telling of the damage, and the disk stays as it was found. Any
checkpoint takes the damage away, and deltas come into the journal again. Where its document is within
the limits, the store loads the graph, each record under its own id and in normal form. -/
theorem fail_stop_until_checkpoint {directory : String} {options : StoreOptions} {nowMs : Int}
    {bytes : Bytes} (there : disk.HasDirectory directory)
    (found : disk.read (pathIn directory journalName) = .ok bytes)
    (corrupt : (scanFrames bytes).tail = .corrupt reason)
    (free : disk.isDirectory (pathIn directory snapshotName) = false) :
    ∃ opened text, openStore nowMs directory options disk = (.ok opened, disk) ∧
      ∀ requests : List Request, (∀ request ∈ requests, request.isCheckpoint = false) →
        ∃ store,
          Request.run requests (opened, disk) =
              (requests.map (Request.refusal options.settings reason text), store, disk) ∧
            store.FailStop disk reason text ∧
            ∀ {cells : Cells} {now : Int64} {whole : Graph LiveValue} {normal : Graph SettledValue},
              whole.NormalForm cells normal →
              ∃ after changed,
                FileStore.checkpoint cells now whole (store, disk) = (.ok (), after, changed) ∧
                  after.Mended options.settings changed ∧
                  (options.settings.Admits (options.settings.documentOfGraph now normal) →
                    after.Restored options.settings changed
                      (Graph.empty.apply (Delta.ofGraph normal))) := by
  obtain ⟨number, isFile, rfl⟩ := isFile_of_read found
  obtain ⟨opened, opens, -, hasOptions, housed, damage, setAside⟩ :=
    openStore_damaged options nowMs there isFile corrupt free
  obtain ⟨text, unread⟩ := fold_damaged damage housed.free
  have damaged : opened.Damaged disk reason text :=
    ⟨⟨number, housed, corrupt⟩, damage, setAside, unread⟩
  have openedSettings : opened.settings = options.settings := by
    rw [FileStore.settings, hasOptions]
  refine ⟨opened, text, opens, fun requests others => ?_⟩
  obtain ⟨store, ran, sameSettings, storeDamaged⟩ := damaged.run others
  rw [openedSettings] at ran sameSettings
  refine ⟨store, ran, storeDamaged.failStop, fun isNormal => ?_⟩
  rw [← sameSettings]
  exact storeDamaged.checkpoint isNormal

section Sample

private def damagedOptions : StoreOptions := ⟨.sync, 0, ⟨.json, .empty⟩⟩

/-- The journal ends its one frame with another length than it begins with, and the snapshot is no
document. -/
private def damagedDisk : Disk :=
  ⟨#[[0, 0, 0, 0, 1, 0, 0, 0], [255]],
    [("d", .directory), ("d/mementos.journal", .file 0), ("d/mementos.snapshot", .file 1)]⟩

private def mendingGraph {V : Type} (attributes : Table V) : Graph V :=
  ⟨[("a", ⟨⟨"a", "T", none, [], attributes, []⟩, none, [], [], [], [], none⟩)], [], []⟩

private def refusedRequests : List Request :=
  [.delta ⟨#[.pending]⟩ 1 (Delta.ofGraph (mendingGraph [("later", .deferred ⟨0⟩)])), .compact 2,
    .reopen 3 .none 1, .delta .empty 4 Delta.empty]

private theorem normalForm_mendingGraph :
    (mendingGraph [("count", .integer 1), ("later", .deferred ⟨0⟩)]).NormalForm ⟨#[.pending]⟩
      (mendingGraph [("count", .integer 1)]) :=
  Graph.convert_settling_iff.mp rfl

private theorem regular_mendingGraph {floats : Prop} :
    (mendingGraph [("count", .integer 1)] : Graph SettledValue).Regular floats := by
  refine ⟨?_, ?_, ?_, List.pairwise_singleton _ _, .nil, .nil⟩
  · intro entry member
    rw [List.mem_singleton.mp member]
    exact ⟨rfl, ⟨.nil, trivial⟩, ⟨List.pairwise_singleton _ _, trivial, trivial⟩, .nil⟩
  · exact List.forall_mem_nil _
  · exact List.forall_mem_nil _

/-- A store that is opened again over the damage before the checkpoint comes. -/
theorem fail_stop_until_checkpoint_sample :
    ∃ opened text, openStore 0 "d" damagedOptions damagedDisk = (.ok opened, damagedDisk) ∧
      ∃ store,
        Request.run refusedRequests (opened, damagedDisk) =
            (refusedRequests.map
              (Request.refusal damagedOptions.settings (trailerReason 0 0 1) text),
              store, damagedDisk) ∧
          store.FailStop damagedDisk (trailerReason 0 0 1) text ∧
          ∃ after changed,
            FileStore.checkpoint ⟨#[.pending]⟩ 5
                (mendingGraph [("count", .integer 1), ("later", .deferred ⟨0⟩)])
                (store, damagedDisk) = (.ok (), after, changed) ∧
              after.Mended damagedOptions.settings changed ∧
              after.Restored damagedOptions.settings changed
                (mendingGraph [("count", .integer 1)]) := by
  have there : damagedDisk.HasDirectory "d" := by
    unfold Disk.HasDirectory
    decide +kernel
  have corrupt : (scanFrames [0, 0, 0, 0, 1, 0, 0, 0]).tail = .corrupt (trailerReason 0 0 1) := by
    decide +kernel
  obtain ⟨opened, text, opens, refuses⟩ := @fail_stop_until_checkpoint damagedDisk
    (trailerReason 0 0 1) "d" damagedOptions 0 [0, 0, 0, 0, 1, 0, 0, 0] there (by decide +kernel)
    corrupt (by decide +kernel)
  obtain ⟨store, ran, failStop, mends⟩ := refuses refusedRequests (by decide)
  obtain ⟨after, changed, taken, mended, restored⟩ :=
    @mends ⟨#[.pending]⟩ 5 _ _ normalForm_mendingGraph
  have admitted : damagedOptions.settings.Admits
      (damagedOptions.settings.documentOfGraph 5 (mendingGraph [("count", .integer 1)])) :=
    Settings.admits_documentOfGraph (Delta.regular_ofGraph regular_mendingGraph)
      (by decide +kernel) nofun
  have own : Graph.empty.apply (Delta.ofGraph (mendingGraph [("count", .integer 1)])) =
      (mendingGraph [("count", .integer 1)] : Graph SettledValue) :=
    Graph.apply_ofGraph (@regular_mendingGraph True).keyed
  rw [own] at restored
  exact ⟨opened, text, opens, store, ran, failStop, after, changed, taken, mended,
    restored admitted⟩

end Sample

end FileStore

end GraphCheckpoint.Store
