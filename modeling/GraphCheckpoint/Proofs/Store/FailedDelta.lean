import GraphCheckpoint.Proofs.Store.TornAppend
import GraphCheckpoint.Proofs.Store.Undecodable

/-!
Contract: what a delta that fails leaves of the store.

Owns:
- `FileStore.Strands`, the one case in which such a delta stays in the journal;
- `FileStore.Stranded`, what is found of it there;
- that in any other case nothing changes.

Does not own: deltas that succeed.

A folding that is due comes behind the append, and reads the whole store for it. So it may fail at
something that was there before, or at the new document itself, when the frame is already written;
the caller cannot tell that from a delta that was refused.
-/

namespace GraphCheckpoint.Store

open GraphCheckpoint.Encoding StoreAction

namespace FileStore

variable {store : FileStore} {disk : Disk} {number : Nat} {payloads : List Bytes} {payload : Bytes}
  {cells : Cells} {now : Int64} {changes : Delta LiveValue} {failure : Failure}

/-! ## One more payload -/

/-- The store with one more frame in its journal. -/
def appended (store : FileStore) : FileStore :=
  { store with journal := { store.journal with frames := store.journal.frames + 1 } }

/-- The disk with one more frame in a file. -/
def appendedDisk (disk : Disk) (number : Nat) (payload : Bytes) : Disk :=
  disk.setContents number (disk.contentsOf number ++ frame payload)

/-- A new payload does not touch the snapshot. -/
theorem read_snapshot_appendedDisk (consistent : store.Consistent disk)
    (running : store.running = true) (sound : store.journal.Sound disk number payloads) :
    (appendedDisk disk number payload).read store.snapshotPath = disk.read store.snapshotPath := by
  refine Disk.read_setContents_of_ne consistent.wellFormed sound.isFile ?_ _
  rw [(consistent.ready running).journal.hasPath]
  exact (journalPath_ne_snapshotPath store.directory).symm

/-- It is read behind all that was there. -/
theorem fold_appended (consistent : store.Consistent disk) (running : store.running = true)
    (sound : store.journal.Sound disk number payloads) (fits : payload.length < frameBound) :
    store.appended.fold (appendedDisk disk number payload) = do
      let graph ← store.fold disk
      let document ← store.settings.decodeDocument payload
      return graph.applyDocument document := by
  have sameSnapshot : store.appended.readSnapshot (appendedDisk disk number payload) =
      store.readSnapshot disk := by
    rw [readSnapshot, readSnapshot]
    have same := @read_snapshot_appendedDisk store disk number payloads payload consistent running
      sound
    rw [show store.appended.snapshotPath = store.snapshotPath from rfl, same]
    rfl
  have morePayloads : store.appended.journal.readPayloads (appendedDisk disk number payload) =
      .ok (payloads ++ [payload]) := (sound.append fits).readPayloads
  have sameSettings : store.appended.settings = store.settings := rfl
  rw [FileStore.fold, FileStore.fold, sameSnapshot, morePayloads, sound.readPayloads, sameSettings]
  cases store.readSnapshot disk with
  | error failure => rfl
  | ok snapshot =>
      simp only [bind, Except.bind, List.mapM_append, List.mapM_cons, List.mapM_nil]
      cases payloads.mapM store.settings.decodeDocument with
      | error failure => rfl
      | ok documents =>
          cases store.settings.decodeDocument payload with
          | error failure => rfl
          | ok document =>
              simp only [pure, Except.pure, Graph.applyDocuments, List.foldl_append]
              rfl

/-- Where no directory is in the place of the snapshot, a reading can only fail at a document. -/
theorem fold_error (sound : store.journal.Sound disk number payloads)
    (free : disk.isDirectory store.snapshotPath = false)
    (unread : store.fold disk = .error failure) : ∃ text, failure = .encoding text := by
  rw [FileStore.fold, sound.readPayloads] at unread
  cases read : store.readSnapshot disk with
  | error other =>
      rw [read] at unread
      cases unread
      exact readSnapshot_error free read
  | ok snapshot =>
      rw [read] at unread
      cases decoded : payloads.mapM store.settings.decodeDocument with
      | error other =>
          simp only [bind, Except.bind, decoded] at unread
          cases unread
          obtain ⟨bytes, -, notDecoded⟩ := exists_mem_of_mapM_error decoded
          exact Settings.decodeDocument_error notDecoded
      | ok documents =>
          simp only [bind, Except.bind, decoded] at unread
          cases unread

/-- What can be read has no directory in the place of its snapshot. -/
theorem free_of_fold {graph : Graph Datum} (folds : store.fold disk = .ok graph) :
    disk.isDirectory store.snapshotPath = false := by
  obtain ⟨snapshot, -, -, read, -⟩ := fold_eq_ok folds
  cases found : disk.entries.get? store.snapshotPath with
  | none => exact Disk.isDirectory_of_absent found
  | some entry =>
      cases entry with
      | file file => exact Disk.isDirectory_of_get? found
      | directory =>
          rw [readSnapshot, Disk.read, Disk.file?, found] at read
          cases read

/-! ## Deltas that fail -/

/-- The delta can be encoded and framed and the journal takes it, and the folding that is due then
fails: at something that was stored before, or at the new document. -/
structure Strands (store : FileStore) (disk : Disk) (cells : Cells) (now : Int64)
    (changes : Delta LiveValue) (payload : Bytes) (failure : Failure) : Prop where
  running : store.running = true
  undamaged : store.journal.damage = none
  encoded : store.settings.encodeDelta cells now changes = .ok payload
  fits : payload.length < frameBound
  isDue : ¬ store.HasRoom
  unread : store.fold disk = .error failure ∨
    (∃ graph, store.fold disk = .ok graph) ∧
      store.settings.decodeDocument payload = .error failure

/-- The delta has failed, and its frame is in the journal nevertheless. No reading gets past it. -/
structure Stranded (store : FileStore) (disk : Disk) (payload : Bytes) (failure : Failure)
    (after : FileStore) (changed : Disk) : Prop where
  snapshot : changed.read store.snapshotPath = disk.read store.snapshotPath
  journal : ∃ bytes, disk.read store.journal.path = .ok bytes ∧
    changed.read store.journal.path = .ok (bytes ++ frame payload)
  counted : after.journal.frames = store.journal.frames + 1
  unread : after.fold changed = .error failure
  /-- The failure is none of the disk. -/
  encoding : disk.isDirectory store.snapshotPath = false → ∃ text, failure = .encoding text

/-- What has been appended is folded if there is no room for more. -/
theorem takeDelta_run (sound : store.journal.Sound disk number payloads)
    (fits : payload.length < frameBound) :
    takeDelta now store payload (store, disk) =
      (if 0 < store.options.compactAfter.toNat ∧
          store.options.compactAfter.toNat ≤ store.journal.frames + 1 then FileStore.compact now
        else return : StoreAction FileStore Unit)
          (store.appended, appendedDisk disk number payload) := by
  refine (bind_ok (onJournal_run (Journal.append_run sound.undamaged sound.isOpen fits))).trans ?_
  exact bind_ok part_run

/-- What can be read after the append is folded without a failure. -/
theorem compact_appended (consistent : store.Consistent disk) (running : store.running = true)
    (sound : store.journal.Sound disk number payloads) {graph : Graph Datum}
    (folds : store.appended.fold (appendedDisk disk number payload) = .ok graph) (now : Int64) :
    ∃ after changed, FileStore.compact now (store.appended, appendedDisk disk number payload) =
      (.ok (), after, changed) := by
  have ready := consistent.ready running
  have housed : store.appended.Housed (appendedDisk disk number payload) number := {
    running := running
    path := ready.journal.hasPath
    directory := ready.directory.mono fun _ => id
    isFile := sound.isFile
    inRange := by
      rw [appendedDisk, Disk.size_setContents]
      exact sound.inRange
    free := free_of_fold folds }
  obtain ⟨journal, changed, replaced, -⟩ := housed.replaceContents
    (store.settings.encodeDocument (.make .checkpoint now (Delta.ofGraph graph)))
  exact ⟨_, _, (compact_of_fold folds now).trans replaced⟩

theorem Strands.fails (strands : store.Strands disk cells now changes payload failure)
    (consistent : store.Consistent disk) :
    ∃ after changed,
      FileStore.delta cells now changes (store, disk) = (.error failure, after, changed) ∧
        store.Stranded disk payload failure after changed := by
  obtain ⟨number, payloads, sound⟩ :=
    (consistent.ready strands.running).journal.sound strands.undamaged
  have unread : store.appended.fold (appendedDisk disk number payload) = .error failure := by
    rw [fold_appended consistent strands.running sound strands.fits]
    rcases strands.unread with before | ⟨⟨graph, folds⟩, notDecoded⟩
    · rw [before]
      rfl
    · rw [folds, notDecoded]
      rfl
  have encoding : disk.isDirectory store.snapshotPath = false → ∃ text, failure = .encoding text :=
    fun free => strands.unread.elim (fold_error sound free) fun new =>
      Settings.decodeDocument_error new.2
  refine ⟨store.appended, appendedDisk disk number payload, ?_, {
    snapshot := read_snapshot_appendedDisk consistent strands.running sound
    journal := ⟨_, Disk.read_of_get? sound.isFile,
      Disk.read_setContents_self consistent.wellFormed sound.isFile _⟩
    counted := rfl
    unread := unread
    encoding := encoding }⟩
  rw [delta_of_encoded strands.running strands.encoded, takeDelta_run sound strands.fits,
    if_pos (Decidable.not_not.mp strands.isDue)]
  exact compact_of_fold_error unread now

/-- What makes the reading fail that a folding begins with. -/
theorem unread_of_fold_appended (consistent : store.Consistent disk) (running : store.running = true)
    (sound : store.journal.Sound disk number payloads) (fits : payload.length < frameBound)
    (unread : store.appended.fold (appendedDisk disk number payload) = .error failure) :
    store.fold disk = .error failure ∨
      (∃ graph, store.fold disk = .ok graph) ∧
        store.settings.decodeDocument payload = .error failure := by
  rw [fold_appended consistent running sound fits] at unread
  cases folds : store.fold disk with
  | error other =>
      rw [folds] at unread
      cases unread
      exact Or.inl rfl
  | ok graph =>
      refine Or.inr ⟨⟨graph, rfl⟩, ?_⟩
      rw [folds] at unread
      cases decoded : store.settings.decodeDocument payload with
      | error other =>
          simp only [bind, Except.bind, decoded] at unread
          cases unread
          rfl
      | ok document =>
          simp only [bind, Except.bind, decoded] at unread
          cases unread

/-- A delta that comes into the journal fails at the folding only. -/
theorem strands_of_takeDelta (consistent : store.Consistent disk) (running : store.running = true)
    (sound : store.journal.Sound disk number payloads)
    (encoded : store.settings.encodeDelta cells now changes = .ok payload)
    (fits : payload.length < frameBound) {state : FileStore × Disk}
    (fails : takeDelta now store payload (store, disk) = (.error failure, state)) :
    store.Strands disk cells now changes payload failure := by
  rw [takeDelta_run sound fits] at fails
  by_cases isDue : 0 < store.options.compactAfter.toNat ∧
      store.options.compactAfter.toNat ≤ store.journal.frames + 1
  · rw [if_pos isDue] at fails
    cases folds : store.appended.fold (appendedDisk disk number payload) with
    | ok graph =>
        obtain ⟨after, changed, compacts⟩ := compact_appended consistent running sound folds now
        rw [compacts] at fails
        cases fails
    | error other =>
        rw [compact_of_fold_error folds] at fails
        cases fails
        exact {
          running := running
          undamaged := sound.undamaged
          encoded := encoded
          fits := fits
          isDue := not_not_intro isDue
          unread := unread_of_fold_appended consistent running sound fits folds }
  · rw [if_neg isDue] at fails
    cases fails

/-- A delta that fails otherwise has changed nothing. -/
theorem unchanged_of_not_strands (consistent : store.Consistent disk) {after : FileStore}
    {changed : Disk}
    (fails : FileStore.delta cells now changes (store, disk) = (.error failure, after, changed))
    (otherwise : ∀ payload, ¬ store.Strands disk cells now changes payload failure) :
    after = store ∧ changed = disk := by
  have unchanged : ∀ {other}, (Except.error other, store, disk) =
      ((.error failure, after, changed) : Outcome Unit × FileStore × Disk) →
        after = store ∧ changed = disk := by
    intro other same
    cases same
    exact ⟨rfl, rfl⟩
  cases running : store.running with
  | false =>
      rw [delta_of_stopped running] at fails
      cases fails
  | true =>
      cases encoded : store.settings.encodeDelta cells now changes with
      | error refusal => exact unchanged ((delta_of_refused running encoded).symm.trans fails)
      | ok payload =>
          have taken := (delta_of_encoded running encoded).symm.trans fails
          cases damage : store.journal.damage with
          | some reason =>
              exact unchanged ((bind_error (onJournal_run
                (Journal.append_damaged damage))).symm.trans taken)
          | none =>
              obtain ⟨number, payloads, sound⟩ := (consistent.ready running).journal.sound damage
              by_cases fits : payload.length < frameBound
              · exact absurd (strands_of_takeDelta consistent running sound encoded fits taken)
                  (otherwise payload)
              · exact unchanged ((bind_error (onJournal_run
                  (Journal.append_tooLarge damage (Nat.not_lt.mp fits)))).symm.trans taken)

/-- A delta that fails has changed nothing, but in one case: it came into the journal, and the folding
that was due then failed, at something older or at the new document itself. Then the snapshot is as it
was, the frame stays behind all that the journal held, and is counted. -/
theorem delta_error (reachable : store.Reachable disk) (cells : Cells) (now : Int64)
    (changes : Delta LiveValue) :
    (∀ payload failure, store.Strands disk cells now changes payload failure →
      ∃ after changed,
        FileStore.delta cells now changes (store, disk) = (.error failure, after, changed) ∧
          store.Stranded disk payload failure after changed) ∧
      ∀ failure after changed,
        FileStore.delta cells now changes (store, disk) = (.error failure, after, changed) →
        (∀ payload, ¬ store.Strands disk cells now changes payload failure) →
          after = store ∧ changed = disk :=
  ⟨fun _ _ strands => strands.fails reachable.consistent,
    fun _ _ _ fails => unchanged_of_not_strands reachable.consistent fails⟩

section Sample

private def foldingOptions : StoreOptions := ⟨.sync, 1, ⟨.json, .empty⟩⟩

/-- One frame, with a payload that is no document. -/
private def foldingDisk : Disk :=
  ({ Disk.empty with entries := Disk.empty.entries.insert "d" .directory } : Disk).newFile
    "d/mementos.journal" (joinFrames [[33]])

private def foldingStore : FileStore :=
  ⟨"d", foldingOptions, true, ⟨"d/mementos.journal", some 0, 1, none, none⟩⟩

private def lateDelta (δ : Type) : Delta (Value Handle δ) :=
  ⟨[EntityMemento.blank "e" "T"], [], [], [], [], []⟩

private def latePayload : Bytes :=
  foldingStore.settings.encodeDocument
    (foldingStore.settings.documentOfDelta 1 (lateDelta Empty))

/-- The delta comes behind the payload that nobody can read, and is reported as not taken. -/
theorem delta_error_sample :
    ∃ text after changed,
      FileStore.delta .empty 1 (lateDelta CellId) (foldingStore, foldingDisk) =
          (.error (.encoding text), after, changed) ∧
        changed.read "d/mementos.journal" = .ok (joinFrames [[33]] ++ frame latePayload) ∧
        after.journal.frames = 2 := by
  have reachable : foldingStore.Reachable foldingDisk :=
    @Reachable.opened 0 "d" foldingOptions foldingDisk foldingStore foldingDisk
      ((Disk.wellFormed_empty.insertDirectory "d").newFile "d/mementos.journal" _)
      (by decide +kernel)
  have unread : (foldingStore.fold foldingDisk).isOk = false := by decide +kernel
  have isShort : latePayload.length < frameBound := by decide +kernel
  have encoded : foldingStore.settings.encodeDelta Cells.empty 1 (lateDelta CellId) =
      .ok latePayload := Settings.encodeDelta_of_settled rfl
  cases folds : foldingStore.fold foldingDisk with
  | ok graph =>
      rw [folds] at unread
      cases unread
  | error failure =>
      have strands : foldingStore.Strands foldingDisk .empty 1 (lateDelta CellId) latePayload
          failure := {
        running := rfl
        undamaged := rfl
        encoded := encoded
        fits := isShort
        isDue := by
          unfold HasRoom
          decide
        unread := Or.inl folds }
      obtain ⟨after, changed, fails, stranded⟩ :=
        (delta_error reachable .empty 1 (lateDelta CellId)).1 latePayload failure strands
      obtain ⟨text, rfl⟩ := stranded.encoding (by decide +kernel)
      obtain ⟨bytes, isJournal, grown⟩ := stranded.journal
      have held : foldingDisk.read foldingStore.journal.path = .ok (joinFrames [[33]]) := by
        decide +kernel
      rw [held] at isJournal
      cases isJournal
      exact ⟨text, after, changed, fails, grown, stranded.counted⟩

end Sample

end FileStore

end GraphCheckpoint.Store
