import GraphCheckpoint.Proofs.Store.Disk
import GraphCheckpoint.Proofs.Store.Frame
import GraphCheckpoint.Proofs.Stateful

/-!
Contract: what every operation of a journal leaves of the journal and its file.

Owns:
- the parts of operations;
- `Journal.Sound`, an open journal whose file holds the frames of given payloads;
- opening, appending, reading back and emptying, each with the journal and the disk it leaves.

Does not own: what the payloads mean.
-/

namespace GraphCheckpoint.Store

open GraphCheckpoint.Encoding

namespace StoreAction

variable {S α : Type} {part : S} {disk : Disk}

theorem part_run : StoreAction.part (part, disk) = (.ok part, part, disk) := rfl

theorem disk_run : StoreAction.disk (part, disk) = (.ok disk, part, disk) := rfl

theorem setPart_run (other : S) : setPart other (part, disk) = (.ok (), other, disk) := rfl

theorem ofExcept_ok {result : α} :
    (MonadExcept.ofExcept (Except.ok result : Outcome α) : StoreAction S α) (part, disk) =
      (.ok result, part, disk) := rfl

theorem ofExcept_error {failure : Failure} :
    (MonadExcept.ofExcept (Except.error failure : Outcome α) : StoreAction S α) (part, disk) =
      (.error failure, part, disk) := rfl

theorem step_ok {diskStep : DiskStep} {changed : Disk} (label : String)
    (steps : disk.step diskStep = .ok changed) :
    step label diskStep (part, disk) = (.ok (), part, changed) := by
  refine (bind_ok disk_run).trans ?_
  rw [steps]
  rfl

end StoreAction

open StoreAction

namespace Journal

variable {journal : Journal} {disk : Disk} {number : Nat} {payloads : List Bytes}
  {payload : Bytes}

/-- An open journal without damage, whose file holds the frames of the payloads and nothing else. -/
structure Sound (journal : Journal) (disk : Disk) (number : Nat) (payloads : List Bytes) :
    Prop where
  isFile : disk.entries.get? journal.path = some (.file number)
  inRange : number < disk.contents.size
  isOpen : journal.openFile = some number
  undamaged : journal.damage = none
  contents : disk.contentsOf number = joinFrames payloads
  fit : ∀ payload ∈ payloads, payload.length < frameBound
  counted : journal.frames = payloads.length

theorem readBytes_of_isFile {path : String} (isFile : disk.entries.get? path = some (.file number)) :
    readBytes disk path = .ok (disk.contentsOf number) := by
  rw [readBytes, Disk.read_of_get? isFile]

theorem readBytes_of_absent {path : String} (absent : disk.entries.get? path = none) :
    readBytes disk path = .ok [] := by
  rw [readBytes, Disk.read, Disk.file?_of_absent absent]
  rfl

/-- A sound journal gives its payloads. -/
theorem Sound.readPayloads (sound : journal.Sound disk number payloads) :
    journal.readPayloads disk = .ok payloads := by
  have scanned : readBytes disk journal.path = .ok (joinFrames payloads) := by
    rw [readBytes_of_isFile sound.isFile, sound.contents]
  simp only [Journal.readPayloads, sound.undamaged, scanned, bind, Except.bind,
    scanFrames_joinFrames sound.fit]
  rfl

/-- A damaged journal gives nothing. -/
theorem readPayloads_damaged {reason : String} (damaged : journal.damage = some reason) :
    journal.readPayloads disk = .error (.encoding ("corrupt journal: " ++ reason)) := by
  rw [Journal.readPayloads, damaged]

/-! ## Appending -/

theorem append_run (undamaged : journal.damage = none) (isOpen : journal.openFile = some number)
    (fits : payload.length < frameBound) :
    append payload (journal, disk) =
      (.ok (), { journal with frames := journal.frames + 1 },
        disk.setContents number (disk.contentsOf number ++ frame payload)) := by
  have small : ¬ 0x100000000 ≤ payload.length := Nat.not_le.mpr fits
  refine (bind_ok part_run).trans ?_
  simp only [undamaged, isOpen, if_neg small]
  rfl

/-- The failure of a frame whose length has no four bytes. -/
def tooLarge (payload : Bytes) : Failure :=
  .storage ("journal frame of " ++ toString payload.length ++ " bytes is too large")

/-- A frame that is too large leaves everything as it is. -/
theorem append_tooLarge (undamaged : journal.damage = none) (large : frameBound ≤ payload.length) :
    append payload (journal, disk) = (.error (tooLarge payload), journal, disk) := by
  have isLarge : 0x100000000 ≤ payload.length := large
  refine (bind_ok part_run).trans ?_
  simp only [undamaged, if_pos isLarge]
  rfl

/-- The failure of a frame that a damaged journal does not take. -/
def refusal (reason : String) : Failure :=
  .storage ("journal is corrupt, refusing to append: " ++ reason)

/-- A damaged journal takes no frame. -/
theorem append_damaged {reason : String} (damaged : journal.damage = some reason) :
    append payload (journal, disk) = (.error (refusal reason), journal, disk) := by
  refine (bind_ok part_run).trans ?_
  simp only [damaged]
  rfl

theorem joinFrames_append (payloads : List Bytes) (payload : Bytes) :
    joinFrames (payloads ++ [payload]) = joinFrames payloads ++ frame payload := by
  simp [joinFrames]

theorem Sound.append (sound : journal.Sound disk number payloads)
    (fits : payload.length < frameBound) :
    Sound { journal with frames := journal.frames + 1 }
      (disk.setContents number (disk.contentsOf number ++ frame payload)) number
      (payloads ++ [payload]) where
  isFile := sound.isFile
  inRange := by
    rw [Disk.size_setContents]
    exact sound.inRange
  isOpen := sound.isOpen
  undamaged := sound.undamaged
  contents := by
    rw [Disk.contentsOf_setContents_self sound.inRange, sound.contents, joinFrames_append]
  fit := by
    intro other member
    rcases List.mem_append.mp member with old | new
    · exact sound.fit other old
    · rw [List.mem_singleton.mp new]
      exact fits
  counted := by
    rw [List.length_append, List.length_singleton, ← sound.counted]

/-- A new file of another path leaves the journal as it is. -/
theorem Sound.newFile (sound : journal.Sound disk number payloads) {other : String}
    (differs : journal.path ≠ other) (bytes : Bytes) :
    journal.Sound (disk.newFile other bytes) number payloads where
  isFile := (Disk.get?_newFile_of_ne differs).trans sound.isFile
  inRange := by
    rw [Disk.size_newFile]
    exact Nat.lt_succ_of_lt sound.inRange
  isOpen := sound.isOpen
  undamaged := sound.undamaged
  contents := (Disk.contentsOf_newFile_old sound.inRange).trans sound.contents
  fit := sound.fit
  counted := sound.counted

/-! ## Emptying -/

theorem openFileOf_run (label : String) {opened : Disk}
    (opens : disk.openForAppend journal.path = .ok (number, opened)) :
    openFileOf label (journal, disk) =
      (.ok (), { journal with openFile := some number }, opened) := by
  refine (bind_ok part_run).trans ((bind_ok disk_run).trans ?_)
  rw [opens]
  rfl

theorem openForAppend_of_isFile {path : String}
    (isFile : disk.entries.get? path = some (.file number)) :
    disk.openForAppend path = .ok (number, disk) := by
  rw [Disk.openForAppend, Disk.file?_of_get? isFile]

theorem openForAppend_of_absent {path : String} (absent : disk.entries.get? path = none) :
    disk.openForAppend path = .ok (disk.contents.size, disk.newFile path []) := by
  rw [Disk.openForAppend, Disk.file?_of_absent absent]

/-- Emptying takes the damage away, too. -/
theorem clear_run (isFile : disk.entries.get? journal.path = some (.file number)) :
    clear (journal, disk) =
      (.ok (), { journal with openFile := some number, frames := 0, damage := none },
        disk.setContents number []) := by
  have writes : disk.step (.write journal.path []) = .ok (disk.setContents number []) := by
    rw [Disk.step, Disk.file?_of_get? isFile]
  have opens : (disk.setContents number []).openForAppend journal.path =
      .ok (number, disk.setContents number []) := openForAppend_of_isFile isFile
  have closed : (modify fun (state : Journal × Disk) =>
      ({ state.1 with openFile := none }, state.2) : StoreAction Journal Unit) (journal, disk) =
        (.ok (), { journal with openFile := none }, disk) := rfl
  refine (bind_ok closed).trans ((bind_ok part_run).trans ?_)
  refine (bind_ok (step_ok _ writes)).trans ?_
  have reopened := @openFileOf_run { journal with openFile := none } _ number "reopen journal" _ opens
  exact (bind_ok reopened).trans (bind_ok part_run)

theorem sound_clear (isFile : disk.entries.get? journal.path = some (.file number))
    (inRange : number < disk.contents.size) :
    Sound { journal with openFile := some number, frames := 0, damage := none }
      (disk.setContents number []) number [] where
  isFile := isFile
  inRange := by
    rw [Disk.size_setContents]
    exact inRange
  isOpen := rfl
  undamaged := rfl
  contents := Disk.contentsOf_setContents_self inRange
  fit := by simp
  counted := rfl

/-! ## Opening -/

/-- Where there is no journal, an empty one is made. -/
theorem openAt_absent (nowMs : Int) (absent : disk.entries.get? journal.path = none) :
    openAt nowMs (journal, disk) =
      (.ok (), { journal with frames := 0, openFile := some disk.contents.size },
        disk.newFile journal.path []) := by
  have scanned : scanFrames [] = ⟨[], 0, .clean⟩ := scanFrom_nil 0
  refine (bind_ok part_run).trans ((bind_ok disk_run).trans ?_)
  rw [readBytes_of_absent absent]
  refine (bind_ok ofExcept_ok).trans ?_
  rw [scanned]
  refine (bind_ok (setPart_run _)).trans ?_
  exact openFileOf_run _ (openForAppend_of_absent absent)

/-- A journal of whole frames is opened as it is. -/
theorem openAt_clean (nowMs : Int) (isFile : disk.entries.get? journal.path = some (.file number))
    {scan : JournalScan} (scanned : scanFrames (disk.contentsOf number) = scan)
    (clean : scan.tail = .clean) :
    openAt nowMs (journal, disk) =
      (.ok (), { journal with frames := scan.payloads.length, openFile := some number }, disk) := by
  refine (bind_ok part_run).trans ((bind_ok disk_run).trans ?_)
  rw [readBytes_of_isFile isFile]
  refine (bind_ok ofExcept_ok).trans ?_
  rw [scanned]
  refine (bind_ok (setPart_run _)).trans ?_
  rw [clean]
  exact openFileOf_run _ (openForAppend_of_isFile isFile)

/-- A damaged journal is left as it is found, and closed. -/
theorem openAt_corrupt (nowMs : Int)
    (isFile : disk.entries.get? journal.path = some (.file number)) {scan : JournalScan}
    (scanned : scanFrames (disk.contentsOf number) = scan) {reason : String}
    (corrupt : scan.tail = .corrupt reason) :
    openAt nowMs (journal, disk) =
      (.ok (), { journal with frames := scan.payloads.length, damage := some reason }, disk) := by
  refine (bind_ok part_run).trans ((bind_ok disk_run).trans ?_)
  rw [readBytes_of_isFile isFile]
  refine (bind_ok ofExcept_ok).trans ?_
  rw [scanned]
  refine (bind_ok (setPart_run _)).trans ?_
  rw [corrupt]
  exact bind_ok part_run

/-- An unfinished frame is set aside and cut off the journal. -/
theorem openAt_torn (nowMs : Int) (isFile : disk.entries.get? journal.path = some (.file number))
    {scan : JournalScan} (scanned : scanFrames (disk.contentsOf number) = scan) (torn : scan.tail = .torn)
    {aside : Disk}
    (setsAside : disk.step (.write (sidePath journal.path nowMs)
      ((disk.contentsOf number).drop scan.wholeLength)) = .ok aside)
    (keeps : aside.entries.get? journal.path = some (.file number)) :
    openAt nowMs (journal, disk) =
      (.ok (),
        { journal with
          frames := scan.payloads.length
          setAside := some (sidePath journal.path nowMs)
          openFile := some number },
        aside.setContents number ((aside.contentsOf number).take scan.wholeLength)) := by
  have cuts : aside.step (.cut journal.path scan.wholeLength) =
      .ok (aside.setContents number ((aside.contentsOf number).take scan.wholeLength)) := by
    rw [Disk.step, Disk.file?_of_get? keeps]
    rfl
  refine (bind_ok part_run).trans ((bind_ok disk_run).trans ?_)
  rw [readBytes_of_isFile isFile]
  refine (bind_ok ofExcept_ok).trans ?_
  rw [scanned]
  refine (bind_ok (setPart_run _)).trans ?_
  rw [torn]
  have set : setTailAside nowMs (disk.contentsOf number) scan.wholeLength
      ({ journal with frames := scan.payloads.length }, disk) =
        (.ok (), { journal with
          frames := scan.payloads.length
          setAside := some (sidePath journal.path nowMs) },
          aside.setContents number ((aside.contentsOf number).take scan.wholeLength)) := by
    refine (bind_ok part_run).trans ?_
    refine (bind_ok (step_ok _ setsAside)).trans ?_
    exact bind_ok (step_ok _ cuts)
  refine (bind_ok set).trans ?_
  exact openFileOf_run _ (openForAppend_of_isFile keeps)

end Journal

end GraphCheckpoint.Store
