import GraphCheckpoint.Proofs.Store.Request

/-!
Contract: the states that a file store comes to, whatever its directory held before.

Owns:
- `Disk.Evolves`, what every operation keeps of the disk;
- `FileStore.Ready`, what a running store and its journal file have in common;
- `FileStore.Reachable`, the states behind any opening and any requests, with any results;
- that a running store in such a state is ready.

Does not own: what the documents of a store say.

A store may be opened over a journal that is damaged or torn. Requests may fail, and a stopped store
may still be asked to fold its journal.
-/

namespace GraphCheckpoint.Store

open GraphCheckpoint.Encoding StoreAction

/-! ## What every operation keeps of the disk -/

namespace Disk

variable {disk changed : Disk}

/-- Entries go on naming files of their own, and directories stay. -/
structure Evolves (before after : Disk) : Prop where
  wellFormed : before.WellFormed → after.WellFormed
  keeps : before.KeepsDirectories after

theorem Evolves.refl (disk : Disk) : disk.Evolves disk := ⟨id, fun _ => id⟩

theorem Evolves.trans {before between after : Disk} (first : before.Evolves between)
    (second : between.Evolves after) : before.Evolves after where
  wellFormed := fun wellFormed => second.wellFormed (first.wellFormed wellFormed)
  keeps := fun path isDirectory => second.keeps path (first.keeps path isDirectory)

theorem evolves_setContents (number : Nat) (bytes : Bytes) :
    disk.Evolves (disk.setContents number bytes) where
  wellFormed := fun wellFormed => wellFormed.setContents number bytes
  keeps := fun _ isDirectory => isDirectory

theorem evolves_newFile {path : String} (bytes : Bytes)
    (notDirectory : disk.entries.get? path ≠ some .directory) :
    disk.Evolves (disk.newFile path bytes) where
  wellFormed := fun wellFormed => wellFormed.newFile path bytes
  keeps := keepsDirectories_newFile notDirectory

theorem get?_of_file?_missing {path : String} (isMissing : disk.file? path = .error .missing) :
    disk.entries.get? path = none := by
  unfold file? at isMissing
  split at isMissing
  · assumption
  · cases isMissing
  · cases isMissing

theorem Evolves.step {diskStep : DiskStep} (steps : disk.step diskStep = .ok changed) :
    disk.Evolves changed := by
  cases diskStep with
  | replace path bytes =>
      rw [Disk.step] at steps
      split at steps
      · cases steps
      · rename_i notDirectory
        cases steps
        refine evolves_newFile bytes fun isDirectory => notDirectory ?_
        rw [Disk.isDirectory, isDirectory]
        rfl
  | write path bytes =>
      rw [Disk.step] at steps
      split at steps
      · cases steps
        exact evolves_setContents _ _
      · rename_i isMissing
        cases steps
        refine evolves_newFile bytes ?_
        rw [get?_of_file?_missing isMissing]
        simp
      · cases steps
  | cut path length =>
      rw [Disk.step] at steps
      cases found : disk.file? path with
      | error fault =>
          rw [found] at steps
          cases steps
      | ok number =>
          rw [found] at steps
          cases steps
          exact evolves_setContents _ _
  | append number bytes =>
      cases steps
      exact evolves_setContents _ _

/-- A file that is written holds the bytes, and nothing else changes. -/
theorem read_of_write (wellFormed : disk.WellFormed) {path : String} {bytes : Bytes}
    (writes : disk.step (.write path bytes) = .ok changed) :
    changed.read path = .ok bytes ∧ ∀ other, other ≠ path →
      changed.entries.get? other = disk.entries.get? other ∧
        ∀ number, disk.entries.get? other = some (.file number) →
          number < changed.contents.size ∧ changed.contentsOf number = disk.contentsOf number := by
  rw [Disk.step] at writes
  cases found : disk.entries.get? path with
  | none =>
      rw [file?_of_absent found] at writes
      cases writes
      refine ⟨?_, fun other differs => ⟨get?_newFile_of_ne differs, fun number isFile => ⟨?_, ?_⟩⟩⟩
      · rw [read_of_get? get?_newFile_self, contentsOf_newFile_new]
      · rw [size_newFile]
        exact Nat.lt_succ_of_lt (wellFormed.inRange other number isFile)
      · exact contentsOf_newFile_old (wellFormed.inRange other number isFile)
  | some entry =>
      cases entry with
      | directory =>
          rw [file?, found] at writes
          cases writes
      | file written =>
          have inRange := wellFormed.inRange path written found
          rw [file?_of_get? found] at writes
          cases writes
          refine ⟨?_, fun other differs => ⟨rfl, fun number isFile => ⟨?_, ?_⟩⟩⟩
          · rw [read_of_get? (show (disk.setContents written bytes).entries.get? path = _ from found),
              contentsOf_setContents_self inRange]
          · rw [size_setContents]
            exact wellFormed.inRange other number isFile
          · refine contentsOf_setContents_of_ne fun same => ?_
            subst same
            exact differs (wellFormed.apart other path number isFile found)

theorem Evolves.openForAppend {path : String} {number : Nat}
    (opens : disk.openForAppend path = .ok (number, changed)) : disk.Evolves changed := by
  unfold Disk.openForAppend at opens
  split at opens
  · cases opens
    exact Evolves.refl disk
  · rename_i isMissing
    cases opens
    refine evolves_newFile [] ?_
    rw [get?_of_file?_missing isMissing]
    simp
  · cases opens

end Disk

/-! ## Relations that operations keep to -/

namespace StoreAction

variable {S α β : Type} {related : S × Disk → S × Disk → Prop}

/-- Wherever the operation begins, it ends at a related state, also when it fails. -/
def Within (related : S × Disk → S × Disk → Prop) (action : StoreAction S α) : Prop :=
  ∀ before, related before (action before).2

theorem Within.bind (trans : ∀ one two three, related one two → related two three →
      related one three) {action : StoreAction S α} {next : α → StoreAction S β}
    (first : Within related action) (second : ∀ result, Within related (next result)) :
    Within related (action >>= next) := by
  intro before
  have within := first before
  rcases ran : action before with ⟨result, after⟩
  rw [ran] at within
  cases result with
  | ok result =>
      rw [bind_ok ran]
      exact trans _ _ _ within (second result after)
  | error failure =>
      rw [bind_error ran]
      exact within

/-- The operation evolves the disk. -/
abbrev Evolving (action : StoreAction S α) : Prop :=
  Within (fun before after => before.2.Evolves after.2) action

theorem Evolving.bind {action : StoreAction S α} {next : α → StoreAction S β}
    (first : Evolving action) (second : ∀ result, Evolving (next result)) :
    Evolving (action >>= next) :=
  @Within.bind S α β (fun before after => before.2.Evolves after.2)
    (fun _ _ _ => Disk.Evolves.trans) action next first second

theorem evolving_of_run {action : StoreAction S α} (stays : ∀ before, (action before).2.2 = before.2) :
    Evolving action := by
  intro before
  rw [stays before]
  exact Disk.Evolves.refl _

theorem evolving_part : Evolving (part : StoreAction S S) := evolving_of_run fun _ => rfl

theorem evolving_setPart (other : S) : Evolving (setPart other) := evolving_of_run fun _ => rfl

theorem evolving_ofExcept (outcome : Outcome α) :
    Evolving (MonadExcept.ofExcept outcome : StoreAction S α) := by
  cases outcome <;> exact evolving_of_run fun _ => rfl

/-- A step is done, or the operation fails where it stands. -/
theorem step_cases (label : String) (diskStep : DiskStep) (part : S) (disk : Disk) :
    (∃ fault, step label diskStep (part, disk) = (.error fault, part, disk)) ∨
      ∃ changed, disk.step diskStep = .ok changed ∧
        step label diskStep (part, disk) = (.ok (), part, changed) := by
  cases steps : disk.step diskStep with
  | ok changed => exact Or.inr ⟨changed, rfl, step_ok label steps⟩
  | error fault =>
      refine Or.inl ⟨.io (label ++ ": " ++ fault.reason), ?_⟩
      refine (bind_ok disk_run).trans ?_
      rw [steps]
      rfl

theorem evolving_step (label : String) (diskStep : DiskStep) :
    Evolving (step label diskStep : StoreAction S Unit) := by
  rintro ⟨part, disk⟩
  rcases step_cases label diskStep part disk with ⟨fault, ran⟩ | ⟨changed, steps, ran⟩
  · rw [ran]
    exact Disk.Evolves.refl disk
  · rw [ran]
    exact Disk.Evolves.step steps

end StoreAction

namespace Journal

theorem evolving_openFileOf (label : String) : Evolving (openFileOf label) := by
  rintro ⟨journal, disk⟩
  cases opens : disk.openForAppend journal.path with
  | ok opened =>
      rw [openFileOf_run label opens]
      exact Disk.Evolves.openForAppend opens
  | error fault =>
      have ran : openFileOf label (journal, disk) =
          (.error (.io (label ++ ": " ++ fault.reason)), journal, disk) := by
        refine (bind_ok part_run).trans ((bind_ok disk_run).trans ?_)
        rw [opens]
        rfl
      rw [ran]
      exact Disk.Evolves.refl disk

/-- A frame is added at the end of the open file, or the operation fails where it stands. -/
theorem append_cases (payload : Bytes) (journal : Journal) (disk : Disk) :
    (∃ failure, append payload (journal, disk) = (.error failure, journal, disk)) ∨
      ∃ number, journal.damage = none ∧ journal.openFile = some number ∧
        payload.length < frameBound := by
  cases damaged : journal.damage with
  | some reason => exact Or.inl ⟨refusal reason, append_damaged damaged⟩
  | none =>
      by_cases large : frameBound ≤ payload.length
      · exact Or.inl ⟨_, append_tooLarge damaged large⟩
      · cases isOpen : journal.openFile with
        | some number => exact Or.inr ⟨number, rfl, rfl, Nat.not_le.mp large⟩
        | none =>
            have small : ¬ 0x100000000 ≤ payload.length := large
            refine Or.inl ⟨.invalidState "journal is closed", (bind_ok part_run).trans ?_⟩
            simp only [damaged, isOpen, if_neg small]
            rfl

theorem evolving_append (payload : Bytes) : Evolving (append payload) := by
  rintro ⟨journal, disk⟩
  rcases append_cases payload journal disk with
    ⟨failure, ran⟩ | ⟨number, undamaged, isOpen, fits⟩
  · rw [ran]
    exact Disk.Evolves.refl disk
  · rw [append_run undamaged isOpen fits]
    exact Disk.evolves_setContents _ _

theorem evolving_clear : Evolving clear := by
  refine Evolving.bind (evolving_of_run fun _ => rfl) fun _ => evolving_part.bind fun journal => ?_
  refine (evolving_step _ _).bind fun _ => (evolving_openFileOf _).bind fun _ => ?_
  exact evolving_part.bind fun _ => evolving_setPart _

theorem evolving_openAt (nowMs : Int) : Evolving (openAt nowMs) := by
  refine evolving_part.bind fun journal => Evolving.bind (evolving_of_run fun _ => rfl) fun disk => ?_
  refine (evolving_ofExcept _).bind fun bytes => (evolving_setPart _).bind fun _ => ?_
  split
  · exact evolving_part.bind fun _ => evolving_setPart _
  · have setsAside : Evolving (setTailAside nowMs bytes (scanFrames bytes).wholeLength) :=
      evolving_part.bind fun _ => (evolving_step _ _).bind fun _ => (evolving_step _ _).bind
        fun _ => evolving_setPart _
    exact setsAside.bind fun _ => evolving_openFileOf _
  · exact evolving_openFileOf _

/-! ## Journals that have been opened -/

/-- The path names a file, which holds whole frames unless the journal is known to be damaged. -/
structure Ready (path : String) (journal : Journal) (disk : Disk) : Prop where
  hasPath : journal.path = path
  isFile : ∃ number, disk.entries.get? path = some (.file number)
  sound : journal.damage = none → ∃ number payloads, journal.Sound disk number payloads

variable {path : String} {journal : Journal} {disk : Disk}

theorem Ready.append (ready : journal.Ready path disk) (payload : Bytes) :
    Ready path (Journal.append payload (journal, disk)).2.1
      (Journal.append payload (journal, disk)).2.2 := by
  rcases append_cases payload journal disk with ⟨failure, ran⟩ | ⟨opened, undamaged, isOpen, fits⟩
  · rw [ran]
    exact ready
  · obtain ⟨number, payloads, sound⟩ := ready.sound undamaged
    rw [append_run undamaged sound.isOpen fits]
    exact ⟨ready.hasPath, ready.isFile, fun _ => ⟨number, _, sound.append fits⟩⟩

theorem Ready.clear (ready : journal.Ready path disk) (wellFormed : disk.WellFormed) :
    Ready path (Journal.clear (journal, disk)).2.1 (Journal.clear (journal, disk)).2.2 := by
  obtain ⟨number, isFile⟩ := ready.isFile
  have named : disk.entries.get? journal.path = some (.file number) := by
    rw [ready.hasPath]
    exact isFile
  rw [clear_run named]
  exact ⟨ready.hasPath, ⟨number, isFile⟩, fun _ =>
    ⟨number, [], sound_clear named (wellFormed.inRange _ _ named)⟩⟩

/-- Another file is put in the place of a path that is not the journal's. -/
theorem Ready.newFile (ready : journal.Ready path disk) {other : String} (differs : path ≠ other)
    (bytes : Bytes) : journal.Ready path (disk.newFile other bytes) where
  hasPath := ready.hasPath
  isFile := by
    obtain ⟨number, isFile⟩ := ready.isFile
    exact ⟨number, (Disk.get?_newFile_of_ne differs).trans isFile⟩
  sound := by
    intro undamaged
    obtain ⟨number, payloads, sound⟩ := ready.sound undamaged
    exact ⟨number, payloads, sound.newFile (ready.hasPath ▸ differs) bytes⟩

/-- An unfinished frame that cannot be set aside fails the opening, and the disk stays as it is. -/
theorem openAt_refused (nowMs : Int) {number : Nat}
    (isFile : disk.entries.get? journal.path = some (.file number)) {scan : JournalScan}
    (scanned : scanFrames (disk.contentsOf number) = scan) (torn : scan.tail = .torn)
    {fault : DiskFault}
    (refused : disk.step (.write (sidePath journal.path nowMs)
      ((disk.contentsOf number).drop scan.wholeLength)) = .error fault) :
    ∃ failure left, openAt nowMs (journal, disk) = (.error failure, left, disk) := by
  refine ⟨.io ("set aside torn journal tail: " ++ fault.reason),
    { journal with frames := scan.payloads.length },
    (bind_ok part_run).trans ((bind_ok disk_run).trans ?_)⟩
  rw [readBytes_of_isFile isFile]
  refine (bind_ok ofExcept_ok).trans ?_
  rw [scanned]
  refine (bind_ok (setPart_run _)).trans ?_
  rw [torn]
  refine bind_error ((bind_ok part_run).trans (bind_error ((bind_ok disk_run).trans ?_)))
  rw [refused]
  rfl

/-- A directory in the place of the journal fails the opening. -/
theorem openAt_directory (nowMs : Int)
    (isDirectory : disk.entries.get? journal.path = some .directory) :
    ∃ failure, openAt nowMs (journal, disk) = (.error failure, journal, disk) := by
  let failure := Failure.io ("read journal: " ++ DiskFault.isDirectory.reason)
  have refused : readBytes disk journal.path = .error failure := by
    rw [readBytes, Disk.read, Disk.file?, isDirectory]
    rfl
  refine ⟨failure, (bind_ok part_run).trans ((bind_ok disk_run).trans ?_)⟩
  rw [refused]
  exact bind_error ofExcept_error

theorem ready_openAt_of_absent {nowMs : Int} {opened : Journal} {changed : Disk}
    (absent : disk.entries.get? path = none)
    (opens : openAt nowMs (blank path, disk) = (.ok (), opened, changed)) :
    opened.Ready path changed := by
  rw [openAt_absent nowMs absent] at opens
  cases opens
  refine ⟨rfl, ⟨_, Disk.get?_newFile_self⟩, fun _ => ⟨disk.contents.size, [], ?_⟩⟩
  exact {
    isFile := Disk.get?_newFile_self
    inRange := by
      rw [Disk.size_newFile]
      exact Nat.lt_succ_self _
    isOpen := rfl
    undamaged := rfl
    contents := Disk.contentsOf_newFile_new
    fit := by simp
    counted := rfl }

/-- An unfinished frame cannot be set aside, and the disk stays as it is; or it is, and the journal's
file is cut to its whole frames. -/
theorem openAt_torn_cases (nowMs : Int) (wellFormed : disk.WellFormed) {number : Nat}
    (isFile : disk.entries.get? path = some (.file number)) {scan : JournalScan}
    (scanned : scanFrames (disk.contentsOf number) = scan) (isTail : scan.tail = .torn) :
    (∃ failure left, openAt nowMs (blank path, disk) = (.error failure, left, disk)) ∨
      ∃ aside : Disk, aside.entries.get? path = some (.file number) ∧
        number < aside.contents.size ∧
        aside.contentsOf number = disk.contentsOf number ∧
        openAt nowMs (blank path, disk) =
          (.ok (), ⟨path, some number, scan.payloads.length, none, some (sidePath path nowMs)⟩,
            aside.setContents number ((aside.contentsOf number).take scan.wholeLength)) := by
  have isJournal : disk.entries.get? (blank path).path = some (.file number) := isFile
  cases setsAside : disk.step (.write (sidePath path nowMs)
      ((disk.contentsOf number).drop scan.wholeLength)) with
  | error fault => exact Or.inl (openAt_refused nowMs isJournal scanned isTail setsAside)
  | ok aside =>
      obtain ⟨keepsEntry, keepsContents⟩ := (Disk.read_of_write wellFormed setsAside).2 path
        (FileStore.sidePath_ne_path path nowMs).symm
      obtain ⟨stillInRange, sameContents⟩ := keepsContents number isFile
      rw [isFile] at keepsEntry
      exact Or.inr ⟨aside, keepsEntry, stillInRange, sameContents,
        openAt_torn nowMs isJournal scanned isTail setsAside keepsEntry⟩

/-- Where an unfinished frame has been set aside, the whole frames are left. -/
theorem ready_openAt_of_torn {nowMs : Int} (wellFormed : disk.WellFormed) {opened : Journal}
    {changed : Disk} {number : Nat} (isFile : disk.entries.get? path = some (.file number))
    {scan : JournalScan} (scanned : scanFrames (disk.contentsOf number) = scan)
    (isTail : scan.tail = .torn)
    (taken : (disk.contentsOf number).take scan.wholeLength = joinFrames scan.payloads)
    (fit : ∀ payload ∈ scan.payloads, payload.length < frameBound)
    (opens : openAt nowMs (blank path, disk) = (.ok (), opened, changed)) :
    opened.Ready path changed := by
  rcases openAt_torn_cases nowMs wellFormed isFile scanned isTail with
    ⟨failure, left, failed⟩ | ⟨aside, keepsEntry, stillInRange, sameContents, came⟩
  · rw [failed] at opens
    cases opens
  · rw [came] at opens
    cases opens
    refine ⟨rfl, ⟨number, keepsEntry⟩, fun _ => ⟨number, scan.payloads, ?_⟩⟩
    exact {
      isFile := keepsEntry
      inRange := by
        rw [Disk.size_setContents]
        exact stillInRange
      isOpen := rfl
      undamaged := rfl
      contents := by
        rw [Disk.contentsOf_setContents_self stillInRange, sameContents, taken]
      fit := fit
      counted := rfl }

/-- A journal that has been opened is ready, whatever was found in its file. -/
theorem ready_openAt {nowMs : Int} (wellFormed : disk.WellFormed) {opened : Journal}
    {changed : Disk} (opens : openAt nowMs (blank path, disk) = (.ok (), opened, changed)) :
    opened.Ready path changed := by
  cases found : disk.entries.get? path with
  | none => exact ready_openAt_of_absent found opens
  | some entry =>
      cases entry with
      | directory =>
          obtain ⟨failure, failed⟩ := @openAt_directory (blank path) disk nowMs found
          rw [failed] at opens
          cases opens
      | file number =>
          have isFile : disk.entries.get? (blank path).path = some (.file number) := found
          obtain ⟨passed, inside, whole, taken, fit, clean⟩ :=
            scanFrom_sound 0 (disk.contentsOf number)
          generalize scanned : scanFrom 0 (disk.contentsOf number) = scan at whole taken fit clean
          rw [Nat.zero_add] at whole
          cases isTail : scan.tail with
          | clean =>
              rw [openAt_clean nowMs isFile scanned isTail] at opens
              cases opens
              refine ⟨rfl, ⟨number, found⟩, fun _ => ⟨number, scan.payloads, ?_⟩⟩
              rw [clean isTail, List.take_length] at taken
              exact {
                isFile := found
                inRange := wellFormed.inRange path number found
                isOpen := rfl
                undamaged := rfl
                contents := taken
                fit := fit
                counted := rfl }
          | corrupt reason =>
              rw [openAt_corrupt nowMs isFile scanned isTail] at opens
              cases opens
              exact ⟨rfl, ⟨number, found⟩, fun undamaged => by cases undamaged⟩
          | torn =>
              rw [← whole] at taken
              exact ready_openAt_of_torn wellFormed found scanned isTail taken fit opens

end Journal

/-! ## Stores that have been opened -/

namespace FileStore

variable {store : FileStore} {disk : Disk}

/-- The directory is there, and the journal in it is ready. -/
structure Ready (store : FileStore) (disk : Disk) : Prop where
  directory : disk.HasDirectory store.directory
  journal : store.journal.Ready (pathIn store.directory journalName) disk

/-- The disk evolves, and a store that was ready is ready again. -/
structure Continues (before after : FileStore × Disk) : Prop where
  disk : before.2.Evolves after.2
  running : after.1.running = before.1.running
  ready : before.2.WellFormed → before.1.Ready before.2 → after.1.Ready after.2

theorem Continues.refl (state : FileStore × Disk) : Continues state state :=
  ⟨Disk.Evolves.refl _, rfl, fun _ => id⟩

theorem Continues.trans {one two three : FileStore × Disk} (first : Continues one two)
    (second : Continues two three) : Continues one three where
  disk := first.disk.trans second.disk
  running := second.running.trans first.running
  ready := fun wellFormed ready =>
    second.ready (first.disk.wellFormed wellFormed) (first.ready wellFormed ready)

/-- The operation leads every store to one that it continues as. -/
abbrev Continuing {α : Type} (action : StoreAction FileStore α) : Prop := Within Continues action

theorem Continuing.bind {α β : Type} {action : StoreAction FileStore α}
    {next : α → StoreAction FileStore β} (first : Continuing action)
    (second : ∀ result, Continuing (next result)) : Continuing (action >>= next) :=
  @Within.bind FileStore α β Continues (fun _ _ _ => Continues.trans) action next first second

theorem continuing_of_run {α : Type} {action : StoreAction FileStore α}
    (stays : ∀ before, (action before).2 = before) : Continuing action := by
  intro before
  rw [stays before]
  exact Continues.refl before

theorem continuing_ofExcept {α : Type} (outcome : Outcome α) :
    Continuing (MonadExcept.ofExcept outcome : StoreAction FileStore α) := by
  cases outcome <;> exact continuing_of_run fun _ => rfl

theorem continuing_part : Continuing part := continuing_of_run fun _ => rfl

theorem continuing_onJournal {α : Type} {action : StoreAction Journal α} (evolving : Evolving action)
    (ready : ∀ {path journal disk}, disk.WellFormed → journal.Ready path disk →
      Journal.Ready path (action (journal, disk)).2.1 (action (journal, disk)).2.2) :
    Continuing (onJournal action) := by
  rintro ⟨store, disk⟩
  have evolves := evolving (store.journal, disk)
  refine ⟨evolves, rfl, fun wellFormed storeReady => ⟨?_, ready wellFormed storeReady.journal⟩⟩
  exact storeReady.directory.mono evolves.keeps

/-- The snapshot is not put in place, and nothing changes; or the journal is emptied behind it. -/
theorem replaceContents_cases (bytes : Bytes) (store : FileStore) (disk : Disk) :
    (∃ failure, replaceContents bytes (store, disk) = (.error failure, store, disk)) ∨
      ∃ changed, disk.step (.replace store.snapshotPath bytes) = .ok changed ∧
        replaceContents bytes (store, disk) = onJournal Journal.clear (store, changed) := by
  have started : replaceContents bytes (store, disk) =
      (step "rename snapshot" (.replace store.snapshotPath bytes) >>= fun _ =>
        onJournal Journal.clear) (store, disk) := bind_ok part_run
  rw [started]
  rcases step_cases "rename snapshot" (.replace store.snapshotPath bytes) store disk with
    ⟨failure, ran⟩ | ⟨changed, steps, ran⟩
  · exact Or.inl ⟨failure, bind_error ran⟩
  · exact Or.inr ⟨changed, steps, bind_ok ran⟩

/-- A snapshot is a new file. -/
theorem eq_newFile_of_replace {path : String} {bytes : Bytes} {changed : Disk}
    (steps : disk.step (.replace path bytes) = .ok changed) : changed = disk.newFile path bytes := by
  rw [Disk.step] at steps
  split at steps
  · cases steps
  · exact (Except.ok.inj steps).symm

theorem continuing_replaceContents (bytes : Bytes) : Continuing (replaceContents bytes) := by
  rintro ⟨store, disk⟩
  rcases replaceContents_cases bytes store disk with ⟨failure, ran⟩ | ⟨changed, steps, ran⟩
  · rw [ran]
    exact Continues.refl _
  · rw [ran]
    have clears : Continuing (onJournal Journal.clear) :=
      continuing_onJournal Journal.evolving_clear fun wellFormed ready => ready.clear wellFormed
    have evolves := Disk.Evolves.step steps
    have placed : Continues (store, disk) (store, changed) := by
      refine ⟨evolves, rfl, fun _ ready => ⟨ready.directory.mono evolves.keeps, ?_⟩⟩
      rw [eq_newFile_of_replace steps]
      exact ready.journal.newFile (journalPath_ne_snapshotPath store.directory) bytes
    exact placed.trans (clears (store, changed))

theorem continuing_compact (now : Int64) : Continuing (compact now) := by
  refine continuing_part.bind fun store => Continuing.bind (continuing_of_run fun _ => rfl) fun _ => ?_
  exact (continuing_ofExcept _).bind fun _ => continuing_replaceContents _

theorem continuing_delta (cells : Cells) (now : Int64) (changes : Delta LiveValue) :
    Continuing (delta cells now changes) := by
  refine continuing_part.bind fun store => ?_
  split
  · refine (continuing_ofExcept _).bind fun bytes => Continuing.bind ?_ fun _ => ?_
    · exact continuing_onJournal (Journal.evolving_append bytes) fun _ ready => ready.append bytes
    · refine continuing_part.bind fun current => ?_
      split
      · exact continuing_compact now
      · exact continuing_of_run fun _ => rfl
  · exact continuing_of_run fun _ => rfl

theorem continuing_checkpoint (cells : Cells) (now : Int64) (graph : Graph LiveValue) :
    Continuing (checkpoint cells now graph) := by
  refine continuing_part.bind fun store => ?_
  split
  · exact (continuing_ofExcept _).bind fun _ => continuing_replaceContents _
  · exact continuing_of_run fun _ => rfl

/-! ## Opening -/

/-- An opening fails where it stands, or comes to the journal in the directory that it made. -/
theorem openStore_cases (nowMs : Int) (directory : String) (options : StoreOptions) (disk : Disk) :
    (∃ failure, openStore nowMs directory options disk = (.error failure, disk)) ∨
      ∃ made result journal changed, disk.makeDirectories directory = .ok made ∧
        Journal.openAt nowMs (Journal.blank (pathIn directory journalName), made) =
          (result, journal, changed) ∧
        openStore nowMs directory options disk =
          (result.map fun _ => ⟨directory, options, true, journal⟩, changed) := by
  cases isMade : disk.makeDirectories directory with
  | error fault =>
      let failure := Failure.io ("create store directory " ++ directory ++ ": " ++ fault.reason)
      have failed : (openIn nowMs).run.run (blank directory options, disk) =
          (.error failure, blank directory options, disk) := by
        refine (bind_ok part_run).trans ((bind_ok disk_run).trans ?_)
        have refused : disk.makeDirectories (blank directory options).directory = .error fault :=
          isMade
        rw [refused]
        rfl
      refine Or.inl ⟨failure, ?_⟩
      rw [openStore, failed]
      rfl
  | ok made =>
      exact Or.inr ⟨made, _, _, _, rfl, rfl, openStore_of_openAt options isMade rfl⟩

/-- A store that has been opened runs, with the options it was opened with. -/
theorem opened_with {nowMs : Int} {directory : String} {options : StoreOptions} {changed : Disk}
    (opens : openStore nowMs directory options disk = (.ok store, changed)) :
    store.running = true ∧ store.options = options := by
  rcases openStore_cases nowMs directory options disk with
    ⟨failure, failed⟩ | ⟨made, outcome, journal, after, -, -, came⟩
  · rw [failed] at opens
    cases opens
  · rw [came] at opens
    cases outcome with
    | error failure => cases opens
    | ok done =>
        cases opens
        exact ⟨rfl, rfl⟩

/-- An opening evolves the disk, and a store that has been opened is ready, whatever its directory
held. -/
theorem openStore_continues {nowMs : Int} {directory : String} {options : StoreOptions}
    {result : Outcome FileStore} {changed : Disk} (wellFormed : disk.WellFormed)
    (opens : openStore nowMs directory options disk = (result, changed)) :
    changed.WellFormed ∧ ∀ store, result = .ok store → store.Ready changed := by
  rcases openStore_cases nowMs directory options disk with
    ⟨failure, failed⟩ | ⟨made, outcome, journal, after, isMade, opened, came⟩
  · rw [failed] at opens
    cases opens
    exact ⟨wellFormed, nofun⟩
  · rw [came] at opens
    cases opens
    have there := (Disk.makeDirectories_ok isMade).2
    have madeWellFormed := wellFormed.makeDirectories isMade
    have evolves := Journal.evolving_openAt nowMs
      (Journal.blank (pathIn directory journalName), made)
    rw [opened] at evolves
    refine ⟨evolves.wellFormed madeWellFormed, fun store isOpened => ?_⟩
    cases outcome with
    | error failure => cases isOpened
    | ok result =>
        cases isOpened
        exact ⟨there.mono evolves.keeps, Journal.ready_openAt madeWellFormed opened⟩

/-! ## Reachable states -/

/-- The states of a store and the disk from its opening on. The store may be opened on whatever disk,
be asked for anything with any result, and be stopped. -/
inductive Reachable : FileStore → Disk → Prop where
  | opened {nowMs : Int} {directory : String} {options : StoreOptions} {before : Disk}
      {store : FileStore} {disk : Disk} (wellFormed : before.WellFormed)
      (opens : openStore nowMs directory options before = (.ok store, disk)) :
      Reachable store disk
  | asked {store : FileStore} {disk : Disk} (request : Request) (before : Reachable store disk) :
      Reachable (request.perform (store, disk)).2.1 (request.perform (store, disk)).2.2
  | stopped {store : FileStore} {disk : Disk} (before : Reachable store disk) :
      Reachable store.stop disk

/-- Files are apart from each other, and a running store is ready. -/
structure Consistent (store : FileStore) (disk : Disk) : Prop where
  wellFormed : disk.WellFormed
  ready : store.running = true → store.Ready disk

theorem Consistent.continues {after : FileStore × Disk} (consistent : store.Consistent disk)
    (continues : Continues (store, disk) after) : after.1.Consistent after.2 where
  wellFormed := continues.disk.wellFormed consistent.wellFormed
  ready := fun running =>
    continues.ready consistent.wellFormed (consistent.ready (continues.running.symm.trans running))

/-- Every request keeps the store consistent, whatever comes of it. -/
theorem Consistent.perform (consistent : store.Consistent disk) (request : Request) :
    (request.perform (store, disk)).2.1.Consistent (request.perform (store, disk)).2.2 := by
  cases request with
  | delta cells now changes => exact consistent.continues (continuing_delta cells now changes _)
  | checkpoint cells now graph => exact consistent.continues (continuing_checkpoint cells now graph _)
  | compact now => exact consistent.continues (continuing_compact now _)
  | reopen nowMs durability compactAfter =>
      rcases opens : openStore nowMs store.stop.directory
        ⟨durability, compactAfter, store.stop.settings⟩ disk with ⟨result, changed⟩
      obtain ⟨wellFormed, ready⟩ := openStore_continues consistent.wellFormed opens
      simp only [Request.perform, opens]
      cases result with
      | ok opened => exact ⟨wellFormed, fun _ => ready opened rfl⟩
      | error failure => exact ⟨wellFormed, fun running => nomatch running⟩

/-- Every reachable store is consistent. -/
theorem Reachable.consistent (reachable : store.Reachable disk) : store.Consistent disk := by
  induction reachable with
  | opened wellFormed opens =>
      obtain ⟨changedWellFormed, ready⟩ := openStore_continues wellFormed opens
      exact ⟨changedWellFormed, fun _ => ready _ rfl⟩
  | asked request _ inductionHypothesis => exact inductionHypothesis.perform request
  | stopped _ inductionHypothesis =>
      exact ⟨inductionHypothesis.wellFormed, fun running => nomatch running⟩

end FileStore

end GraphCheckpoint.Store
