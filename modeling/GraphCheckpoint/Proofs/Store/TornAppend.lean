import GraphCheckpoint.Proofs.Codec
import GraphCheckpoint.Proofs.Encoding.JsonBytes
import GraphCheckpoint.Proofs.Store.Reachable

/-!
Contract: what becomes of a store whose process died in the middle of an append.

Owns:
- `FileStore.tornAppend`, the disk that such a process leaves;
- `FileStore.Recovers`, the opening that loses nothing but the unfinished frame;
- `FileStore.Refuses`, the opening that takes the unfinished frame for damage;
- which cuts lead to which.

Does not own: appends that are finished.

The bytes of a delta may look like a frame. A cut right behind such bytes is refused; in JSON they
are too rare to matter, since a length written with visible characters is longer than the document.
-/

namespace GraphCheckpoint.Store

open GraphCheckpoint.Encoding StoreAction

namespace Disk

variable {disk changed : Disk} {path other : String} {number : Nat}

theorem read_of_same (sameEntry : changed.entries.get? path = disk.entries.get? path)
    (sameContents : ∀ number, disk.entries.get? path = some (.file number) →
      changed.contentsOf number = disk.contentsOf number) : changed.read path = disk.read path := by
  rw [read, read, file?, file?, sameEntry]
  cases found : disk.entries.get? path with
  | none => rfl
  | some entry =>
      cases entry with
      | directory => rfl
      | file number => exact congrArg Except.ok (sameContents number found)

theorem read_setContents_self (wellFormed : disk.WellFormed)
    (isFile : disk.entries.get? path = some (.file number)) (bytes : Bytes) :
    (disk.setContents number bytes).read path = .ok bytes := by
  rw [read_of_get? (show (disk.setContents number bytes).entries.get? path = _ from isFile),
    contentsOf_setContents_self (wellFormed.inRange path number isFile)]

theorem read_setContents_of_ne (wellFormed : disk.WellFormed)
    (isFile : disk.entries.get? path = some (.file number)) (differs : other ≠ path)
    (bytes : Bytes) : (disk.setContents number bytes).read other = disk.read other := by
  refine read_of_same rfl fun another isOther => contentsOf_setContents_of_ne fun same => ?_
  subst same
  exact differs (wellFormed.apart other path another isOther isFile)

theorem write_ok (notDirectory : disk.isDirectory path = false) (bytes : Bytes) :
    ∃ changed, disk.step (.write path bytes) = .ok changed := by
  rw [Disk.step]
  cases found : disk.entries.get? path with
  | none => exact ⟨_, by rw [file?_of_absent found]⟩
  | some entry =>
      cases entry with
      | directory =>
          rw [isDirectory, found] at notDirectory
          cases notDirectory
      | file number => exact ⟨_, by rw [file?_of_get? found]⟩

end Disk

namespace Journal

variable {journal : Journal} {disk : Disk} {number : Nat} {payloads : List Bytes} {payload : Bytes}
  {cut : Nat}

/-- The whole frames stay in the journal, and what is taken for an unfinished append goes to a file of
its own. -/
theorem openAt_cutsBack {path : String} (wellFormed : disk.WellFormed)
    (isFile : disk.entries.get? path = some (.file number)) {left : Bytes}
    (contents : disk.contentsOf number = joinFrames payloads ++ left)
    (fit : ∀ payload ∈ payloads, payload.length < frameBound)
    (scanned : scanFrames (joinFrames payloads ++ left) =
      ⟨payloads, (joinFrames payloads).length, .torn⟩)
    (nowMs : Int) (noDirectory : disk.isDirectory (sidePath path nowMs) = false) :
    ∃ recovered,
      openAt nowMs (blank path, disk) =
        (.ok (), ⟨path, some number, payloads.length, none, some (sidePath path nowMs)⟩,
          recovered) ∧
        disk.Evolves recovered ∧
        Sound ⟨path, some number, payloads.length, none, some (sidePath path nowMs)⟩ recovered
          number payloads ∧
        recovered.read (sidePath path nowMs) = .ok left ∧
        ∀ other, other ≠ path → other ≠ sidePath path nowMs →
          recovered.read other = disk.read other := by
  obtain ⟨aside, setsAside⟩ := @Disk.write_ok disk (sidePath path nowMs) noDirectory
    ((disk.contentsOf number).drop (joinFrames payloads).length)
  have asideEvolves := Disk.Evolves.step setsAside
  obtain ⟨tail, others⟩ := Disk.read_of_write wellFormed setsAside
  have notSide := FileStore.sidePath_ne_path path nowMs
  obtain ⟨sameEntry, keepsContents⟩ := others path notSide.symm
  obtain ⟨inRange, asideContents⟩ := keepsContents number isFile
  have asideIsFile : aside.entries.get? path = some (.file number) := sameEntry.trans isFile
  have whole : (aside.contentsOf number).take (joinFrames payloads).length =
      joinFrames payloads := by
    rw [asideContents, contents]
    exact List.take_left' rfl
  have behind : (disk.contentsOf number).drop (joinFrames payloads).length = left := by
    rw [contents]
    exact List.drop_left' rfl
  have opens := @openAt_torn (blank path) disk number nowMs isFile _
    ((congrArg scanFrames contents).trans scanned) rfl aside setsAside asideIsFile
  rw [whole] at opens
  rw [behind] at tail
  refine ⟨aside.setContents number (joinFrames payloads), opens,
    asideEvolves.trans (Disk.evolves_setContents number _), ?_, ?_,
    fun other notJournal notTail => ?_⟩
  · exact {
      isFile := asideIsFile
      inRange := by
        rw [Disk.size_setContents]
        exact inRange
      isOpen := rfl
      undamaged := rfl
      contents := Disk.contentsOf_setContents_self inRange
      fit := fit
      counted := rfl }
  · rw [Disk.read_setContents_of_ne (asideEvolves.wellFormed wellFormed) asideIsFile notSide, tail]
  · obtain ⟨otherEntry, otherContents⟩ := others other notTail
    calc (aside.setContents number (joinFrames payloads)).read other = aside.read other :=
          Disk.read_setContents_of_ne (asideEvolves.wellFormed wellFormed) asideIsFile notJournal _
      _ = disk.read other :=
          Disk.read_of_same otherEntry fun another isOther => (otherContents another isOther).2

/-- What is left of a frame that hides no other is set aside. -/
theorem Sound.openAt_take_frame (sound : journal.Sound disk number payloads)
    (wellFormed : disk.WellFormed) (fits : payload.length < frameBound) (begun : 0 < cut)
    (notAll : cut < (frame payload).length) (noFrame : ¬ HidesFrame ((frame payload).take cut))
    (nowMs : Int) (noDirectory : disk.isDirectory (sidePath journal.path nowMs) = false) :
    ∃ recovered,
      openAt nowMs (blank journal.path,
          disk.setContents number (joinFrames payloads ++ (frame payload).take cut)) =
        (.ok (), ⟨journal.path, some number, payloads.length, none,
          some (sidePath journal.path nowMs)⟩, recovered) ∧
        recovered.WellFormed ∧
        Sound ⟨journal.path, some number, payloads.length, none,
          some (sidePath journal.path nowMs)⟩ recovered number payloads ∧
        recovered.read (sidePath journal.path nowMs) = .ok ((frame payload).take cut) ∧
        ∀ other, other ≠ journal.path → other ≠ sidePath journal.path nowMs →
          recovered.read other = disk.read other := by
  let torn := disk.setContents number (joinFrames payloads ++ (frame payload).take cut)
  have tornWellFormed : torn.WellFormed := wellFormed.setContents number _
  have scanned : scanFrames (joinFrames payloads ++ (frame payload).take cut) =
      ⟨payloads, (joinFrames payloads).length, .torn⟩ := by
    rw [scanFrames_cut sound.fit fits begun notAll,
      if_neg (mt (endsWithWholeFrame_iff _).mp noFrame)]
  obtain ⟨recovered, opens, evolves, recoveredSound, tail, others⟩ :=
    @openAt_cutsBack torn number payloads journal.path tornWellFormed sound.isFile _
      (Disk.contentsOf_setContents_self sound.inRange) sound.fit scanned nowMs noDirectory
  exact ⟨recovered, opens, evolves.wellFormed tornWellFormed, recoveredSound, tail,
    fun other notJournal notTail => (others other notJournal notTail).trans
      (Disk.read_setContents_of_ne wellFormed sound.isFile notJournal _)⟩

/-- What is left of a frame that hides another is taken for damage. -/
theorem Sound.openAt_take_frame_of_hidesFrame (sound : journal.Sound disk number payloads)
    (fits : payload.length < frameBound) (begun : 0 < cut) (notAll : cut < (frame payload).length)
    (hides : HidesFrame ((frame payload).take cut)) (nowMs : Int) :
    openAt nowMs (blank journal.path,
        disk.setContents number (joinFrames payloads ++ (frame payload).take cut)) =
      (.ok (), ⟨journal.path, none, payloads.length,
        some (overrunReason (joinFrames payloads).length payload.length), none⟩,
        disk.setContents number (joinFrames payloads ++ (frame payload).take cut)) := by
  let torn := disk.setContents number (joinFrames payloads ++ (frame payload).take cut)
  have contents : torn.contentsOf number = joinFrames payloads ++ (frame payload).take cut :=
    Disk.contentsOf_setContents_self sound.inRange
  have scanned : scanFrames (torn.contentsOf number) = ⟨payloads, (joinFrames payloads).length,
      .corrupt (overrunReason (joinFrames payloads).length payload.length)⟩ := by
    rw [contents, scanFrames_cut sound.fit fits begun notAll,
      if_pos ((endsWithWholeFrame_iff _).mpr hides)]
  exact @openAt_corrupt (blank journal.path) torn number nowMs sound.isFile _ scanned _ rfl

end Journal

namespace FileStore

variable {store : FileStore} {disk : Disk} {payload : Bytes} {cut : Nat}

/-- The disk that is left where an append ends after some bytes of its frame. -/
def tornAppend (store : FileStore) (disk : Disk) (payload : Bytes) (cut : Nat) : Disk :=
  match store.journal.openFile with
  | none => disk
  | some number => disk.setContents number (disk.contentsOf number ++ (frame payload).take cut)

/-- Path of the file that takes the unfinished frame. -/
def tailPath (store : FileStore) (nowMs : Int) : String := Journal.sidePath store.journal.path nowMs

/-- One more frame does not fill the journal up to the threshold. -/
def HasRoom (store : FileStore) : Prop :=
  ¬ (0 < store.options.compactAfter.toNat ∧
    store.options.compactAfter.toNat ≤ store.journal.frames + 1)

/-- A delta with this payload is accepted, and its frame is put behind what the journal holds. -/
def Takes (store : FileStore) (disk : Disk) (cells : Cells) (now : Int64)
    (changes : Delta LiveValue) (payload : Bytes) : Prop :=
  ∃ after changed journal, disk.read store.journal.path = .ok journal ∧
    FileStore.delta cells now changes (store, disk) = (.ok (), after, changed) ∧
    changed.read store.journal.path = .ok (journal ++ frame payload)

/-- After the opening, everything is as it was before the append, and what was left of the frame is
in a file of its own. -/
structure Recovers (store : FileStore) (disk : Disk) (nowMs : Int) (left : Bytes)
    (opened : FileStore) (recovered : Disk) : Prop where
  undamaged : opened.journal.damage = none
  journal : recovered.read store.journal.path = disk.read store.journal.path
  setAside : opened.journal.setAside = some (store.tailPath nowMs)
  tail : recovered.read (store.tailPath nowMs) = .ok left
  loads : ∀ {σ : Type} (lookup : Lookup σ), opened.load recovered lookup = store.load disk lookup
  accepts : ∀ cells now changes payload, opened.HasRoom →
    opened.settings.encodeDelta cells now changes = .ok payload → payload.length < frameBound →
      opened.Takes recovered cells now changes payload

/-- After the opening, the disk is as it was found, and the store neither loads nor takes deltas. -/
structure Refuses (torn : Disk) (reason : String) (opened : FileStore) (found : Disk) : Prop where
  damaged : opened.journal.damage = some reason
  untouched : found = torn
  loads : ∀ {σ : Type} (lookup : Lookup σ) (state : σ),
    ∃ failure, (opened.load found lookup).run state = .error failure
  refuses : ∀ cells now changes,
    ∃ failure, FileStore.delta cells now changes (opened, found) = (.error failure, opened, found)

/-- Stores with the same settings, snapshot and payloads load the same. -/
theorem load_congr {other : FileStore} {otherDisk : Disk} (running : store.running = other.running)
    (sameSettings : other.settings = store.settings)
    (sameSnapshot : otherDisk.read other.snapshotPath = disk.read store.snapshotPath)
    (samePayloads : other.journal.readPayloads otherDisk = store.journal.readPayloads disk)
    {σ : Type} (lookup : Lookup σ) : other.load otherDisk lookup = store.load disk lookup := by
  rw [load, load, running, fold_congr sameSettings sameSnapshot samePayloads, sameSettings]

/-! ## Taking and refusing -/

/-- A store with an undamaged journal takes every delta that is not too large. -/
theorem takes_of_sound {number : Nat} {payloads : List Bytes} (wellFormed : disk.WellFormed)
    (running : store.running = true) (sound : store.journal.Sound disk number payloads)
    (hasRoom : store.HasRoom) {cells : Cells} {now : Int64} {changes : Delta LiveValue}
    (encoded : store.settings.encodeDelta cells now changes = .ok payload)
    (fits : payload.length < frameBound) : store.Takes disk cells now changes payload := by
  refine ⟨{ store with journal := { store.journal with frames := store.journal.frames + 1 } },
    disk.setContents number (disk.contentsOf number ++ frame payload), disk.contentsOf number,
    Disk.read_of_get? sound.isFile, ?_, Disk.read_setContents_self wellFormed sound.isFile _⟩
  refine (delta_of_encoded running encoded).trans ?_
  refine (bind_ok (onJournal_run (Journal.append_run sound.undamaged sound.isOpen fits))).trans ?_
  refine (bind_ok part_run).trans ?_
  rw [if_neg hasRoom]
  rfl

/-- A running store with a damaged journal neither loads nor takes deltas. -/
theorem refuses_of_damaged {reason : String} (running : store.running = true)
    (damaged : store.journal.damage = some reason) : Refuses disk reason store disk where
  damaged := damaged
  untouched := rfl
  loads := by
    intro σ lookup state
    have unread := @Journal.readPayloads_damaged store.journal disk reason damaged
    have noFold : ∃ failure, store.fold disk = .error failure := by
      cases snapshot : store.readSnapshot disk with
      | error failure =>
          refine ⟨failure, ?_⟩
          rw [FileStore.fold, snapshot]
          rfl
      | ok documents =>
          refine ⟨.encoding ("corrupt journal: " ++ reason), ?_⟩
          rw [FileStore.fold, snapshot]
          simp only [bind, Except.bind, unread]
    obtain ⟨failure, failed⟩ := noFold
    exact ⟨failure, load_of_fold_error running failed lookup state⟩
  refuses := by
    intro cells now changes
    cases encoded : store.settings.encodeDelta cells now changes with
    | error failure => exact ⟨failure, delta_of_refused running encoded⟩
    | ok payload =>
        have refused := @Journal.append_damaged store.journal disk payload reason damaged
        exact ⟨Journal.refusal reason,
          (delta_of_encoded running encoded).trans (bind_error (onJournal_run refused))⟩

/-! ## The opening behind a torn append -/

section Opening

variable {number : Nat} {payloads : List Bytes}

theorem tornAppend_of_sound (sound : store.journal.Sound disk number payloads) :
    store.tornAppend disk payload cut =
      disk.setContents number (joinFrames payloads ++ (frame payload).take cut) := by
  simp only [tornAppend, sound.isOpen, sound.contents]

/-- What is left of a frame that hides no other is set aside, and all else is as before. -/
theorem recovers_tornAppend (consistent : store.Consistent disk) (running : store.running = true)
    (sound : store.journal.Sound disk number payloads) (fits : payload.length < frameBound)
    (begun : 0 < cut) (notAll : cut < (frame payload).length)
    (noFrame : ¬ HidesFrame ((frame payload).take cut)) {options : StoreOptions}
    (sameSettings : options.settings = store.settings) (nowMs : Int)
    (noDirectory : disk.isDirectory (store.tailPath nowMs) = false) :
    ∃ opened recovered,
      openStore nowMs store.directory options (store.tornAppend disk payload cut) =
          (.ok opened, recovered) ∧
        store.Recovers disk nowMs ((frame payload).take cut) opened recovered := by
  have ready := consistent.ready running
  have path := ready.journal.hasPath
  obtain ⟨recovered, opens, wellFormed, recoveredSound, tail, others⟩ :=
    sound.openAt_take_frame consistent.wellFormed fits begun notAll noFrame nowMs noDirectory
  rw [← tornAppend_of_sound sound] at opens
  have there : (store.tornAppend disk payload cut).HasDirectory store.directory := by
    rw [tornAppend_of_sound sound]
    exact ready.directory.mono fun _ => id
  rw [path] at opens
  have opensStore := openStore_of_openAt options
    (Disk.makeDirectories_of_hasDirectory there) opens
  rw [← path] at opensStore
  let opened : FileStore := ⟨store.directory, options, true,
    ⟨store.journal.path, some number, payloads.length, none, some (store.tailPath nowMs)⟩⟩
  refine ⟨opened, recovered, opensStore, {
    undamaged := rfl
    journal := ?_
    setAside := rfl
    tail := tail
    loads := ?_
    accepts := ?_ }⟩
  · rw [Disk.read_of_get? recoveredSound.isFile, recoveredSound.contents,
      Disk.read_of_get? sound.isFile, sound.contents]
  · intro σ lookup
    refine @load_congr store disk opened recovered running sameSettings ?_ ?_ σ lookup
    · refine others store.snapshotPath ?_ ?_
      · rw [path]
        exact (journalPath_ne_snapshotPath store.directory).symm
      · exact (sidePath_ne_snapshotPath store.directory store.journal.path nowMs).symm
    · exact recoveredSound.readPayloads.trans sound.readPayloads.symm
  · intro cells now changes next hasRoom encoded nextFits
    exact takes_of_sound wellFormed rfl recoveredSound hasRoom encoded nextFits

/-- What is left of a frame that hides another is taken for damage. -/
theorem refuses_tornAppend (consistent : store.Consistent disk) (running : store.running = true)
    (sound : store.journal.Sound disk number payloads) (fits : payload.length < frameBound)
    (begun : 0 < cut) (notAll : cut < (frame payload).length)
    (hides : HidesFrame ((frame payload).take cut)) (options : StoreOptions) (nowMs : Int) :
    ∃ opened found,
      openStore nowMs store.directory options (store.tornAppend disk payload cut) =
          (.ok opened, found) ∧
        Refuses (store.tornAppend disk payload cut)
          (overrunReason (joinFrames payloads).length payload.length) opened found := by
  have ready := consistent.ready running
  have path := ready.journal.hasPath
  have opens := sound.openAt_take_frame_of_hidesFrame fits begun notAll hides nowMs
  rw [← tornAppend_of_sound sound] at opens
  have there : (store.tornAppend disk payload cut).HasDirectory store.directory := by
    rw [tornAppend_of_sound sound]
    exact ready.directory.mono fun _ => id
  rw [path] at opens
  exact ⟨_, _, openStore_of_openAt options (Disk.makeDirectories_of_hasDirectory there) opens,
    refuses_of_damaged rfl rfl⟩

/-- A store dies in the middle of an append of a delta that it would have taken. The opening that
follows loses nothing but the unfinished frame, unless what is left of that frame ends with the image
of another frame; then it reports damage, and neither loads nor takes deltas. In JSON no frame of
less than half a gigabyte has such an image in it. -/
theorem openStore_tornAppend (reachable : store.Reachable disk) (running : store.running = true)
    (undamaged : store.journal.damage = none) (hasRoom : store.HasRoom) {cells : Cells}
    {now : Int64} {changes : Delta LiveValue}
    (encoded : store.settings.encodeDelta cells now changes = .ok payload)
    (fits : payload.length < frameBound) (begun : 0 < cut) (notAll : cut < (frame payload).length)
    {options : StoreOptions} (sameSettings : options.settings = store.settings) (nowMs : Int)
    (noDirectory : disk.isDirectory (store.tailPath nowMs) = false) :
    store.Takes disk cells now changes payload ∧
      ∃ opened found journal,
        openStore nowMs store.directory options (store.tornAppend disk payload cut) =
            (.ok opened, found) ∧
          disk.read store.journal.path = .ok journal ∧
          (¬ HidesFrame ((frame payload).take cut) →
            store.Recovers disk nowMs ((frame payload).take cut) opened found) ∧
          (HidesFrame ((frame payload).take cut) →
            Refuses (store.tornAppend disk payload cut)
              (overrunReason journal.length payload.length) opened found) ∧
          (store.settings.format = .json → payload.length < blankLength →
            ¬ HidesFrame ((frame payload).take cut)) := by
  have consistent := reachable.consistent
  obtain ⟨number, payloads, sound⟩ := (consistent.ready running).journal.sound undamaged
  have visible : store.settings.format = .json → payload.length < blankLength →
      ¬ HidesFrame ((frame payload).take cut) := by
    intro isFormat short
    obtain ⟨document, isDocument⟩ : ∃ document, payload = store.settings.encodeDocument document := by
      rw [Settings.encodeDelta] at encoded
      cases isDocument : store.settings.deltaDocument cells now changes with
      | error failure =>
          rw [isDocument] at encoded
          cases encoded
      | ok document =>
          rw [isDocument] at encoded
          cases encoded
          exact ⟨document, rfl⟩
    refine not_hidesFrame_take_frame (fun byte member => ?_) short notAll
    rw [isDocument, Settings.encodeDocument, Settings.printNode, isFormat] at member
    exact Json.isVisible_print document.toNode byte member
  refine ⟨takes_of_sound consistent.wellFormed running sound hasRoom encoded fits, ?_⟩
  have journal : disk.read store.journal.path = .ok (joinFrames payloads) := by
    rw [Disk.read_of_get? sound.isFile, sound.contents]
  by_cases hides : HidesFrame ((frame payload).take cut)
  · obtain ⟨opened, found, opens, refuses⟩ := refuses_tornAppend consistent running sound fits begun
      notAll hides options nowMs
    exact ⟨opened, found, _, opens, journal, absurd hides, fun _ => refuses, visible⟩
  · obtain ⟨opened, recovered, opens, recovers⟩ := recovers_tornAppend consistent running sound fits
      begun notAll hides sameSettings nowMs noDirectory
    exact ⟨opened, recovered, _, opens, journal, fun _ => recovers, fun hidden => absurd hidden hides,
      visible⟩

end Opening

/-! ## A cut that is refused -/

section Float

private def floatOptions : StoreOptions := ⟨.sync, 0, ⟨.messagePack, .empty⟩⟩

/-- A new store in the directory `d`. -/
private def floatStore : FileStore :=
  ⟨"d", floatOptions, true, ⟨"d/mementos.journal", some 0, 0, none, none⟩⟩

private def floatDisk : Disk := ⟨#[[]], [("d", .directory), ("d/mementos.journal", .file 0)]⟩

/-- Writes the float zero, whose eight zero bytes are the frame of an empty payload. -/
private def floatDelta (δ : Type) : Delta (Value Handle δ) :=
  ⟨[EntityMemento.mapCommon (Common.withAttribute "a" (.float ⟨0⟩)) (EntityMemento.blank "e" "T")],
    [], [], [], [], []⟩

private def floatPayload : Bytes :=
  floatStore.settings.encodeDocument
    (floatStore.settings.documentOfDelta 1000000000000 (floatDelta Empty))

/-- The cut is right behind the zero bytes. -/
theorem openStore_tornAppend_float :
    ∃ opened found,
      openStore 1 "d" floatOptions (floatStore.tornAppend floatDisk floatPayload 134) =
          (.ok opened, found) ∧
        Refuses (floatStore.tornAppend floatDisk floatPayload 134)
          "frame at offset 0 claims 207 bytes but whole frames follow it" opened found := by
  have reachable : floatStore.Reachable floatDisk :=
    @Reachable.opened 0 "d" floatOptions Disk.empty floatStore floatDisk Disk.wellFormed_empty
      (by decide +kernel)
  have encoded : floatStore.settings.encodeDelta Cells.empty 1000000000000 (floatDelta CellId) =
      .ok floatPayload := Settings.encodeDelta_of_settled rfl
  have hasRoom : floatStore.HasRoom := by
    unfold HasRoom
    decide
  have isLength : floatPayload.length = 207 := by decide +kernel
  have isFrameLength : (frame floatPayload).length = 215 := by rw [length_frame, isLength]; rfl
  have hides : HidesFrame ((frame floatPayload).take 134) :=
    (endsWithWholeFrame_iff _).mp (by decide +kernel)
  obtain ⟨-, opened, found, journal, opens, isJournal, -, refuses, -⟩ :=
    @openStore_tornAppend floatStore floatDisk floatPayload 134 reachable rfl rfl hasRoom
      Cells.empty 1000000000000 (floatDelta CellId) encoded (by rw [isLength]; decide) (by decide)
      (by rw [isFrameLength]; decide) floatOptions rfl 1 (by decide +kernel)
  have isEmpty : floatDisk.read floatStore.journal.path = .ok [] := by decide +kernel
  rw [isEmpty] at isJournal
  cases isJournal
  have refused := refuses hides
  rw [isLength] at refused
  exact ⟨opened, found, opens, refused⟩

end Float

end FileStore

end GraphCheckpoint.Store
