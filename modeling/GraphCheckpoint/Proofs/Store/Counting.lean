import GraphCheckpoint.Proofs.Store.FailedDelta
import GraphCheckpoint.Proofs.Store.Framing

/-!
Contract: the number of frames that a store keeps beside its journal file.

Owns:
- `Journal.Tallies`, what a journal and its file have in common while the store is open or stopped;
- that every reachable store tallies;
- that replacing all contents leaves an empty journal, and that a delta leaves room in it.

Does not own: what becomes of damage, or what the payloads say.

The number is kept by hand: set at the opening, counted up by an append, set back when the journal is
emptied. A stopped store has closed its journal, but may still fold it, which opens it again.
-/

namespace GraphCheckpoint.Store

open GraphCheckpoint.Encoding StoreAction

/-! ## Journals that may be closed -/

namespace Journal

variable {path : String} {journal : Journal} {disk : Disk}

/-- A journal is ready; or it is closed, and would be ready if its file were open. -/
inductive Tallies (path : String) (journal : Journal) (disk : Disk) : Prop
  | opened (ready : journal.Ready path disk)
  | closed (isClosed : journal.openFile = none) (number : Nat)
      (ready : Ready path { journal with openFile := some number } disk)

theorem Tallies.hasPath (tallies : journal.Tallies path disk) : journal.path = path := by
  cases tallies with
  | opened ready => exact ready.hasPath
  | closed isClosed number ready => exact ready.hasPath

theorem Tallies.isFile (tallies : journal.Tallies path disk) :
    ∃ number, disk.entries.get? path = some (.file number) := by
  cases tallies with
  | opened ready => exact ready.isFile
  | closed isClosed number ready => exact ready.isFile

/-- The file holds whole frames and nothing else, as many as have been counted. -/
structure CountsFrames (path : String) (journal : Journal) (disk : Disk) (payloads : List Bytes) :
    Prop where
  holds : disk.read path = .ok (joinFrames payloads)
  fit : ∀ payload ∈ payloads, payload.length < frameBound
  counted : journal.frames = payloads.length

/-- What counts frames is scanned into these frames, without a tail. -/
theorem CountsFrames.scanned {payloads : List Bytes}
    (counts : journal.CountsFrames path disk payloads) :
    scanFrames (joinFrames payloads) = ⟨payloads, (joinFrames payloads).length, .clean⟩ :=
  scanFrames_joinFrames counts.fit

theorem Ready.countsFrames (ready : journal.Ready path disk) (undamaged : journal.damage = none) :
    ∃ payloads, journal.CountsFrames path disk payloads := by
  obtain ⟨number, payloads, sound⟩ := ready.sound undamaged
  refine ⟨payloads, ?_, sound.fit, sound.counted⟩
  rw [← ready.hasPath, Disk.read_of_get? sound.isFile, sound.contents]

theorem Tallies.countsFrames (tallies : journal.Tallies path disk)
    (undamaged : journal.damage = none) : ∃ payloads, journal.CountsFrames path disk payloads := by
  cases tallies with
  | opened ready => exact ready.countsFrames undamaged
  | closed isClosed number ready =>
      obtain ⟨payloads, counts⟩ := ready.countsFrames undamaged
      exact ⟨payloads, counts.holds, counts.fit, counts.counted⟩

/-- Closing a journal does not touch its file. -/
theorem Tallies.close (tallies : journal.Tallies path disk) :
    Tallies path { journal with openFile := none } disk := by
  cases tallies with
  | closed isClosed number ready => exact .closed rfl number ready
  | opened ready =>
      obtain ⟨number, isFile⟩ := ready.isFile
      refine .closed rfl number ⟨ready.hasPath, ready.isFile, fun undamaged => ?_⟩
      obtain ⟨other, payloads, sound⟩ := ready.sound undamaged
      have isSame : other = number := by
        have named := sound.isFile
        rw [ready.hasPath, isFile] at named
        cases named
        rfl
      subst isSame
      exact ⟨other, payloads, { sound with isOpen := rfl }⟩

/-- A new file in another place leaves it as it is. -/
theorem Tallies.newFile (tallies : journal.Tallies path disk) {other : String}
    (differs : path ≠ other) (bytes : Bytes) : journal.Tallies path (disk.newFile other bytes) := by
  cases tallies with
  | opened ready => exact .opened (ready.newFile differs bytes)
  | closed isClosed number ready => exact .closed isClosed number (ready.newFile differs bytes)

/-- A journal without frames and without damage, and its empty file. -/
structure Emptied (path : String) (journal : Journal) (disk : Disk) : Prop where
  empty : disk.read path = .ok []
  counted : journal.frames = 0
  undamaged : journal.damage = none

/-- Emptying opens the journal, whether it was open or not. -/
theorem Tallies.clear (tallies : journal.Tallies path disk) (wellFormed : disk.WellFormed) :
    ∃ cleared changed, Journal.clear (journal, disk) = (.ok (), cleared, changed) ∧
      cleared.Ready path changed ∧ cleared.Emptied path changed := by
  obtain ⟨number, isFile⟩ := tallies.isFile
  have named : disk.entries.get? journal.path = some (.file number) := by
    rw [tallies.hasPath]
    exact isFile
  have sound := sound_clear named (wellFormed.inRange _ _ named)
  refine ⟨_, _, clear_run named, ⟨tallies.hasPath, ⟨number, isFile⟩, fun _ => ⟨number, [], sound⟩⟩,
    ?_, rfl, rfl⟩
  rw [← tallies.hasPath, Disk.read_of_get? sound.isFile, sound.contents]
  rfl

/-- Where the journal's file is there, an opening that fails leaves the disk as it is: it fails at an
unfinished frame, which cannot be set aside. -/
theorem eq_of_openAt_error {nowMs : Int} (wellFormed : disk.WellFormed)
    (isFile : ∃ number, disk.entries.get? path = some (.file number)) {failure : Failure}
    {left : Journal} {changed : Disk}
    (fails : openAt nowMs (blank path, disk) = (.error failure, left, changed)) :
    changed = disk := by
  obtain ⟨number, named⟩ := isFile
  have isJournal : disk.entries.get? (blank path).path = some (.file number) := named
  cases isTail : (scanFrames (disk.contentsOf number)).tail with
  | clean =>
      rw [openAt_clean nowMs isJournal rfl isTail] at fails
      cases fails
  | corrupt reason =>
      rw [openAt_corrupt nowMs isJournal rfl isTail] at fails
      cases fails
  | torn =>
      rcases openAt_torn_cases nowMs wellFormed named rfl isTail with
        ⟨failure, left, failed⟩ | ⟨aside, -, -, -, came⟩
      · rw [failed] at fails
        cases fails
        rfl
      · rw [came] at fails
        cases fails

end Journal

/-! ## Stores -/

namespace FileStore

variable {store : FileStore} {disk : Disk}

/-- The files are apart, the directory is there, and the journal in it tallies. -/
structure Tallied (store : FileStore) (disk : Disk) : Prop where
  wellFormed : disk.WellFormed
  directory : disk.HasDirectory store.directory
  journal : store.journal.Tallies (pathIn store.directory journalName) disk

theorem Consistent.tallied (consistent : store.Consistent disk) (running : store.running = true) :
    store.Tallied disk where
  wellFormed := consistent.wellFormed
  directory := (consistent.ready running).directory
  journal := .opened (consistent.ready running).journal

theorem Tallied.stop (tallied : store.Tallied disk) : store.stop.Tallied disk where
  wellFormed := tallied.wellFormed
  directory := tallied.directory
  journal := tallied.journal.close

/-- The journal of the store is empty, and so is its file. -/
abbrev Emptied (store : FileStore) (disk : Disk) : Prop :=
  store.journal.Emptied (pathIn store.directory journalName) disk

/-- Replacing all contents fails where it stands, or it leaves an empty journal. -/
theorem Tallied.replaceContents_cases (tallied : store.Tallied disk) (bytes : Bytes) :
    (∃ failure, replaceContents bytes (store, disk) = (.error failure, store, disk)) ∨
      ∃ after changed, replaceContents bytes (store, disk) = (.ok (), after, changed) ∧
        after.Tallied changed ∧ after.Emptied changed := by
  rcases FileStore.replaceContents_cases bytes store disk with failed | ⟨placed, steps, ran⟩
  · exact Or.inl failed
  · have evolves := Disk.Evolves.step steps
    have wellFormed := evolves.wellFormed tallied.wellFormed
    have placedTallies : store.journal.Tallies (pathIn store.directory journalName) placed := by
      rw [eq_newFile_of_replace steps]
      exact tallied.journal.newFile (journalPath_ne_snapshotPath store.directory) bytes
    obtain ⟨cleared, changed, clears, ready, emptied⟩ := placedTallies.clear wellFormed
    have further := Journal.evolving_clear (store.journal, placed)
    rw [clears] at further
    refine Or.inr ⟨_, _, ran.trans (onJournal_run clears), ?_, emptied⟩
    exact ⟨further.wellFormed wellFormed,
      (tallied.directory.mono evolves.keeps).mono further.keeps, .opened ready⟩

/-- So does a folding, whether the store runs or not. -/
theorem Tallied.compact_cases (tallied : store.Tallied disk) (now : Int64) :
    (∃ failure, compact now (store, disk) = (.error failure, store, disk)) ∨
      ∃ after changed, compact now (store, disk) = (.ok (), after, changed) ∧
        after.Tallied changed ∧ after.Emptied changed := by
  cases folds : store.fold disk with
  | error failure => exact Or.inl ⟨failure, compact_of_fold_error folds now⟩
  | ok graph =>
      rw [compact_of_fold folds now]
      exact tallied.replaceContents_cases _

/-- Opening a store again in its directory may fail, but not without leaving the disk as it was. -/
theorem Tallied.eq_of_openStore_error (tallied : store.Tallied disk) {nowMs : Int}
    {options : StoreOptions} {failure : Failure} {changed : Disk}
    (fails : openStore nowMs store.directory options disk = (.error failure, changed)) :
    changed = disk := by
  rcases openStore_cases nowMs store.directory options disk with
    ⟨other, failed⟩ | ⟨made, outcome, journal, after, isMade, opened, came⟩
  · rw [failed] at fails
    cases fails
    rfl
  · rw [Disk.makeDirectories_of_hasDirectory tallied.directory] at isMade
    cases isMade
    rw [came] at fails
    cases outcome with
    | ok done => cases fails
    | error refusal =>
        cases fails
        exact Journal.eq_of_openAt_error tallied.wellFormed tallied.journal.isFile opened

/-- A request that leaves the store running leaves it consistent. Otherwise it came to a stopped store,
over which deltas and checkpoints are passed; or the store was to be opened again and could not be. -/
theorem Tallied.perform (tallied : store.Tallied disk) (consistent : store.Consistent disk)
    (request : Request) :
    (request.perform (store, disk)).2.1.Tallied (request.perform (store, disk)).2.2 := by
  cases runs : (request.perform (store, disk)).2.1.running with
  | true => exact (consistent.perform request).tallied runs
  | false =>
      cases request with
      | delta cells now changes =>
          have stopped := (continuing_delta cells now changes (store, disk)).running.symm.trans runs
          rw [Request.perform, delta_of_stopped stopped]
          exact tallied
      | checkpoint cells now graph =>
          have stopped :=
            (continuing_checkpoint cells now graph (store, disk)).running.symm.trans runs
          rw [Request.perform, checkpoint_of_stopped stopped]
          exact tallied
      | compact now =>
          rw [Request.perform]
          rcases tallied.compact_cases now with ⟨failure, failed⟩ | ⟨after, changed, ran, kept, -⟩
          · rw [failed]
            exact tallied
          · rw [ran]
            exact kept
      | reopen nowMs durability compactAfter =>
          rcases opens : openStore nowMs store.stop.directory
            ⟨durability, compactAfter, store.stop.settings⟩ disk with ⟨outcome, changed⟩
          simp only [Request.perform, opens] at runs ⊢
          cases outcome with
          | ok opened =>
              have stopped := (opened_with opens).1.symm.trans runs
              cases stopped
          | error failure =>
              rw [tallied.stop.eq_of_openStore_error opens]
              exact tallied.stop

/-- Every reachable store tallies, running or not. -/
theorem Reachable.tallied (reachable : store.Reachable disk) : store.Tallied disk := by
  induction reachable with
  | opened wellFormed opens =>
      exact (Reachable.opened wellFormed opens).consistent.tallied (opened_with opens).1
  | asked request before inductionHypothesis =>
      exact inductionHypothesis.perform before.consistent request
  | stopped _ inductionHypothesis => exact inductionHypothesis.stop

/-! ## What successful requests leave -/

variable {cells : Cells} {now : Int64} {after : FileStore} {changed : Disk}

/-- A checkpoint that has been taken leaves no frame. -/
theorem Tallied.checkpoint_emptied (tallied : store.Tallied disk) (running : store.running = true)
    {graph : Graph LiveValue}
    (ran : checkpoint cells now graph (store, disk) = (.ok (), after, changed)) :
    after.Emptied changed := by
  cases encoded : store.settings.encodeCheckpoint cells now graph with
  | error failure => exact nomatch (checkpoint_of_refused running encoded).symm.trans ran
  | ok bytes =>
      rw [checkpoint_of_encoded running encoded] at ran
      rcases tallied.replaceContents_cases bytes with
        ⟨failure, failed⟩ | ⟨other, otherDisk, came, -, emptied⟩
      · exact nomatch failed.symm.trans ran
      · cases came.symm.trans ran
        exact emptied

/-- Nor does a folding that has succeeded. -/
theorem Tallied.compact_emptied (tallied : store.Tallied disk)
    (ran : compact now (store, disk) = (.ok (), after, changed)) : after.Emptied changed := by
  rcases tallied.compact_cases now with ⟨failure, failed⟩ | ⟨other, otherDisk, came, -, emptied⟩
  · exact nomatch failed.symm.trans ran
  · cases came.symm.trans ran
    exact emptied

/-- A payload that has been taken leaves fewer frames than the threshold: either the folding was not
due, or it has succeeded. -/
theorem Consistent.frames_lt_of_takeDelta (consistent : store.Consistent disk)
    (running : store.running = true) {payload : Bytes}
    (threshold : 0 < store.options.compactAfter.toNat)
    (ran : takeDelta now store payload (store, disk) = (.ok (), after, changed)) :
    after.journal.frames < store.options.compactAfter.toNat := by
  obtain ⟨written, ⟨middle, middleDisk⟩, appends, ran⟩ := bind_eq_ok ran
  have middleTallied : middle.Tallied middleDisk := by
    have continues := continuing_onJournal (Journal.evolving_append payload)
      (fun _ ready => ready.append payload) (store, disk)
    rw [appends] at continues
    exact (consistent.continues continues).tallied (continues.running.trans running)
  obtain ⟨current, between, isCurrent, ran⟩ := bind_eq_ok ran
  cases isCurrent
  split at ran
  · rw [(middleTallied.compact_emptied ran).counted]
    exact threshold
  · rename_i notDue
    cases ran
    exact Nat.not_le.mp fun reached => notDue ⟨threshold, reached⟩

/-- So does a delta that a running store has taken. -/
theorem Consistent.frames_lt_of_delta (consistent : store.Consistent disk)
    (running : store.running = true) {changes : Delta LiveValue}
    (threshold : 0 < store.options.compactAfter.toNat)
    (ran : FileStore.delta cells now changes (store, disk) = (.ok (), after, changed)) :
    after.journal.frames < store.options.compactAfter.toNat := by
  cases encoded : store.settings.encodeDelta cells now changes with
  | error failure => exact nomatch (delta_of_refused running encoded).symm.trans ran
  | ok payload =>
      rw [delta_of_encoded running encoded] at ran
      exact consistent.frames_lt_of_takeDelta running threshold ran

/-- The journal is whole frames, and the number beside it counts them, in every state of a store that
reports no damage. A folding that succeeds leaves it empty, and so does a checkpoint that a running
store has taken; a stopped store passes over checkpoints. Where foldings are due at a threshold, a delta
that a running store has taken leaves fewer frames than that. -/
theorem counts_whole_frames (reachable : store.Reachable disk) :
    (store.journal.damage = none → ∃ payloads,
      disk.read (pathIn store.directory journalName) = .ok (joinFrames payloads) ∧
        scanFrames (joinFrames payloads) = ⟨payloads, (joinFrames payloads).length, .clean⟩ ∧
        store.journal.frames = payloads.length) ∧
      (∀ now after changed, compact now (store, disk) = (.ok (), after, changed) →
        after.Emptied changed) ∧
      (∀ cells now graph after changed,
        checkpoint cells now graph (store, disk) = (.ok (), after, changed) →
          if store.running then after.Emptied changed else after = store ∧ changed = disk) ∧
      ∀ cells now changes after changed, store.running = true →
        0 < store.options.compactAfter.toNat →
        FileStore.delta cells now changes (store, disk) = (.ok (), after, changed) →
          after.journal.frames < store.options.compactAfter.toNat := by
  have tallied := reachable.tallied
  refine ⟨fun undamaged => ?_, fun _ _ _ ran => tallied.compact_emptied ran,
    fun _ _ _ _ _ ran => ?_, fun _ _ _ _ _ running threshold ran =>
      reachable.consistent.frames_lt_of_delta running threshold ran⟩
  · obtain ⟨payloads, counts⟩ := tallied.journal.countsFrames undamaged
    exact ⟨payloads, counts.holds, counts.scanned, counts.counted⟩
  · split
    · rename_i running
      exact tallied.checkpoint_emptied running ran
    · rename_i stopped
      rw [checkpoint_of_stopped (Bool.eq_false_iff.mpr stopped)] at ran
      cases ran
      exact ⟨rfl, rfl⟩

section Sample

private def thresholdOptions : StoreOptions := ⟨.sync, 2, ⟨.json, .empty⟩⟩

private def emptyDirectory : Disk :=
  { Disk.empty with entries := Disk.empty.entries.insert "d" .directory }

/-- Two whole frames, and the beginning of a third one. -/
private def interruptedDisk : Disk :=
  emptyDirectory.newFile "d/mementos.journal" (joinFrames [[33], [34]] ++ [9, 0, 0, 0, 33])

/-- The beginning has gone into a file of its own. -/
private def mendedDisk : Disk :=
  (emptyDirectory.newFile "d/mementos.journal" (joinFrames [[33], [34]])).newFile
    "d/mementos.journal.7.tail" [9, 0, 0, 0, 33]

private def mendedStore : FileStore :=
  ⟨"d", thresholdOptions, true,
    ⟨"d/mementos.journal", some 0, 2, none, some "d/mementos.journal.7.tail"⟩⟩

private theorem reachable_mended : mendedStore.Reachable mendedDisk :=
  @Reachable.opened 7 "d" thresholdOptions interruptedDisk mendedStore mendedDisk
    ((Disk.wellFormed_empty.insertDirectory "d").newFile "d/mementos.journal" _)
    (by decide +kernel)

/-- The store counts the two frames, and none after a checkpoint. -/
theorem counts_whole_frames_sample :
    mendedStore.Reachable mendedDisk ∧
      (∃ payloads, mendedDisk.read "d/mementos.journal" = .ok (joinFrames payloads) ∧
        payloads.length = 2) ∧
      ∃ after changed,
        checkpoint .empty 1 Graph.empty (mendedStore, mendedDisk) = (.ok (), after, changed) ∧
          after.Emptied changed := by
  obtain ⟨counts, -, checkpoints, -⟩ := counts_whole_frames reachable_mended
  obtain ⟨payloads, holds, -, counted⟩ := counts rfl
  have isJournal : pathIn mendedStore.directory journalName = "d/mementos.journal" := by
    decide +kernel
  rw [isJournal] at holds
  have succeeds : (checkpoint .empty 1 Graph.empty (mendedStore, mendedDisk)).1 = .ok () := by
    decide +kernel
  rcases ran : checkpoint .empty 1 Graph.empty (mendedStore, mendedDisk) with
    ⟨outcome, after, changed⟩
  rw [ran] at succeeds
  cases succeeds
  exact ⟨reachable_mended, ⟨payloads, holds, counted.symm⟩, after, changed, rfl,
    checkpoints _ _ _ _ _ ran⟩

/-- Once the store has been stopped, a checkpoint succeeds and leaves the two frames. -/
theorem checkpoint_of_stopped_leaves_frames :
    ¬ ∀ (store : FileStore) (disk : Disk) (cells : Cells) (now : Int64) (graph : Graph LiveValue)
        (after : FileStore) (changed : Disk), store.Reachable disk →
      checkpoint cells now graph (store, disk) = (.ok (), after, changed) →
        after.Emptied changed := by
  intro empties
  have emptied := empties mendedStore.stop mendedDisk .empty 1 Graph.empty mendedStore.stop
    mendedDisk (.stopped reachable_mended) (checkpoint_of_stopped rfl)
  exact nomatch emptied.counted

end Sample

end FileStore

end GraphCheckpoint.Store
