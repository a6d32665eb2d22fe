import GraphCheckpoint.Proofs.Placeholders
import GraphCheckpoint.Proofs.Store.Compaction
import GraphCheckpoint.Proofs.Store.Memory
import GraphCheckpoint.Proofs.Store.TornAppend

/-!
Contract: whether a store still loads once it has accepted a delta.

Owns:
- `FileStore.Loads`, a file store that loads its graph with placeholders;
- what an accepted delta leaves of a file store, with and without room for one more frame;
- which deltas leave a store that loads, for both kinds of stores.

Does not own: which trees are readable.

A store writes whatever it is given. It looks at the bytes only when it loads them.
-/

namespace GraphCheckpoint.Store

open GraphCheckpoint.Encoding StoreAction

namespace FileStore

variable {store after : FileStore} {disk changed : Disk} {graph : Graph Datum}

/-- The store loads its graph with a placeholder for every reference. -/
def Loads (store : FileStore) (disk : Disk) : Prop :=
  ∀ slots, ∃ result, (store.load disk PlaceholderLookup.resolver).run (.start slots) = .ok result

theorem loads_iff (running : store.running = true) :
    store.Loads disk ↔ ∃ graph, store.fold disk = .ok graph := by
  constructor
  · intro loads
    obtain ⟨result, loaded⟩ := loads .empty
    exact (exists_fold_of_load loaded).2
  · rintro ⟨graph, folds⟩ slots
    obtain ⟨loaded, last, ran, -, -⟩ := store.settings.resolveGraph_placeholders graph slots
    refine ⟨(loaded, last), ?_⟩
    rw [load_of_fold running folds]
    exact ran

/-! ## Accepted deltas -/

/-- What an accepted delta did: its document went to the end of the journal, and where there was no
room for its frame the journal was folded. -/
theorem delta_run {snapshot? : Option Bytes} {payloads : List Bytes}
    (sound : store.Sound disk snapshot? payloads) {cells : Cells} {now : Int64}
    {delta : Delta LiveValue}
    (accepted : FileStore.delta cells now delta (store, disk) = (.ok (), after, changed)) :
    ∃ document journal appended,
      store.settings.deltaDocument cells now delta = .ok document ∧
        (store.settings.encodeDocument document).length < frameBound ∧
        Sound { store with journal := journal } appended snapshot?
          (payloads ++ [store.settings.encodeDocument document]) ∧
        (store.HasRoom → after = { store with journal := journal } ∧ changed = appended) ∧
        (¬ store.HasRoom →
          compact now ({ store with journal := journal }, appended) = (.ok (), after, changed)) := by
  have counted : store.journal.frames = payloads.length := by
    obtain ⟨number, journal, -⟩ := sound.files
    exact journal.counted
  obtain ⟨same, between, isPart, accepted⟩ := bind_eq_ok accepted
  cases isPart
  rw [if_pos sound.running] at accepted
  obtain ⟨bytes, between, encoded, accepted⟩ := bind_eq_ok accepted
  cases isDocument : store.settings.deltaDocument cells now delta with
  | error failure =>
      rw [Settings.encodeDelta, isDocument] at encoded
      cases encoded
  | ok document =>
      rw [Settings.encodeDelta, isDocument] at encoded
      cases encoded
      by_cases large : frameBound ≤ (store.settings.encodeDocument document).length
      · rw [bind_error (sound.append_tooLarge large)] at accepted
        cases accepted
      · have short := Nat.not_le.mp large
        obtain ⟨journal, appended, ran, frames, appendedSound⟩ := sound.append short
        rw [bind_ok ran] at accepted
        refine ⟨document, journal, appended, rfl, short, appendedSound, fun hasRoom => ?_,
          fun noRoom => ?_⟩
        · have notFull : ¬ (0 < store.options.compactAfter.toNat ∧
              store.options.compactAfter.toNat ≤ journal.frames) := by
            rw [frames, ← counted]
            exact hasRoom
          rw [bind_ok part_run, if_neg notFull] at accepted
          cases accepted
          exact ⟨rfl, rfl⟩
        · have full : 0 < store.options.compactAfter.toNat ∧
              store.options.compactAfter.toNat ≤ journal.frames := by
            rw [frames, ← counted]
            exact Decidable.not_not.mp noRoom
          rw [bind_ok part_run, if_pos full] at accepted
          exact accepted

/-- What has to be readable for a store to load once it has accepted a delta. -/
structure LoadsIff (store : FileStore) (folded : Graph Datum) (document : Document)
    (after : FileStore) (changed : Disk) : Prop where
  /-- The document stands in the journal. -/
  withRoom : store.HasRoom → (after.Loads changed ↔ store.settings.Readable document.toNode)
  /-- The document has been read, and the journal with it was folded. -/
  withoutRoom : ¬ store.HasRoom → ∃ reread,
    store.settings.decodeDocument (store.settings.encodeDocument document) = .ok reread ∧
      ((store.settings.format = .messagePack → Document.Few (folded.applyDocument reread)) →
        (after.Loads changed ↔ store.settings.ReadsGraph (folded.applyDocument reread)))

theorem loadsIff_of_accepted (reachable : store.Reachable disk) (running : store.running = true)
    (undamaged : store.journal.damage = none) (loads : store.Loads disk) {cells : Cells}
    {now : Int64} {delta : Delta LiveValue} (cellsRegular : cells.Regular True)
    (regular : delta.Regular True)
    (accepted : FileStore.delta cells now delta (store, disk) = (.ok (), after, changed)) :
    ∃ document folded,
      store.settings.deltaDocument cells now delta = .ok document ∧
        store.fold disk = .ok folded ∧ store.LoadsIff folded document after changed := by
  obtain ⟨folded, folds⟩ := (loads_iff running).mp loads
  obtain ⟨snapshot?, payloads, sound⟩ :=
    reachable.consistent.sound_of_fold running undamaged folds
  obtain ⟨document, journal, appended, isDocument, short, appendedSound, withRoom, withoutRoom⟩ :=
    delta_run sound accepted
  obtain ⟨content, isContent, rfl⟩ := Settings.deltaDocument_eq_ok isDocument
  have documentRegular : (Document.make .delta now content).Regular True :=
    ⟨Nat.le_refl _, Settings.regular_of_convert_writing cellsRegular regular isContent⟩
  have reads := Settings.exists_decodeDocument_iff documentRegular
    (Settings.fits_of_length_encodeDocument short)
  have appendedFold := sound.fold_append folds appendedSound rfl
  refine ⟨_, folded, isDocument, folds, fun hasRoom => ?_, fun full => ?_⟩
  · obtain ⟨rfl, rfl⟩ := withRoom hasRoom
    rw [loads_iff appendedSound.running, appendedFold, ← reads]
    generalize store.settings.decodeDocument _ = outcome
    cases outcome <;> simp [Except.map]
  · have compacted := withoutRoom full
    cases decodes : store.settings.decodeDocument
        (store.settings.encodeDocument (.make .delta now content)) with
    | error failure =>
        -- the journal cannot be folded, so that the delta is not accepted
        rw [decodes] at appendedFold
        have failed : compact now ({ store with journal := journal }, appended) =
            (.error failure, { store with journal := journal }, appended) := by
          refine (bind_ok part_run).trans ((bind_ok disk_run).trans ?_)
          rw [appendedFold]
          exact bind_error ofExcept_error
        rw [failed] at compacted
        cases compacted
    | ok reread =>
        rw [decodes] at appendedFold
        have holds : Holds store.settings (folded.applyDocument reread)
            { store with journal := journal } appended := ⟨rfl, ⟨_, _, appendedSound⟩, appendedFold⟩
        refine ⟨reread, rfl, fun few => ?_⟩
        rw [loads_iff (holds.running_of_compact compacted)]
        exact holds.exists_fold_iff few compacted

end FileStore

/-! ## Both kinds of stores -/

/-- A store of either kind that loads accepts a delta. It goes on loading exactly where what it has
written can be read again. -/
theorem loads_after_accepted_delta {cells : Cells} {now : Int64} {delta : Delta LiveValue}
    (cellsRegular : cells.Regular True) (regular : delta.Regular True) :
    (∀ {store after : FileStore} {disk changed : Disk}, store.Reachable disk →
      store.running = true → store.journal.damage = none → store.Loads disk →
      FileStore.delta cells now delta (store, disk) = (.ok (), after, changed) →
      ∃ document folded,
        store.settings.deltaDocument cells now delta = .ok document ∧
          store.fold disk = .ok folded ∧ store.LoadsIff folded document after changed) ∧
    ∀ {store after : MemoryStore}, store.running = true → store.Loads →
      store.delta cells delta = .ok after →
      ∃ content,
        delta.convert (store.settings.writing cells) = some content ∧
          ((store.settings.format = .messagePack → Document.FittingRecords content) →
            (after.Loads ↔ after.Readable content)) := by
  refine ⟨fun reachable running undamaged loads accepted =>
    FileStore.loadsIff_of_accepted reachable running undamaged loads cellsRegular regular
      accepted, fun running loads taken => ?_⟩
  obtain ⟨content, isContent, -⟩ := MemoryStore.delta_run running taken
  refine ⟨content, isContent, fun fits => ?_⟩
  exact (MemoryStore.loads_after_delta_iff running loads
    (Settings.regular_of_convert_writing cellsRegular regular isContent) fits isContent taken).2

/-! ## A float that JSON has no number for -/

section NotANumber

private def numberOptions : StoreOptions := ⟨.sync, 0, ⟨.json, .empty⟩⟩

private def numberStore : FileStore :=
  ⟨"d", numberOptions, true, ⟨"d/mementos.journal", some 0, 0, none, none⟩⟩

private def numberDisk : Disk := ⟨#[[]], [("d", .directory), ("d/mementos.journal", .file 0)]⟩

private def notANumber : Binary64 := ⟨0x7ff8000000000000⟩

/-- Writes an entity with the float. -/
private def numberDelta (ρ δ : Type) : Delta (Value ρ δ) :=
  ⟨[EntityMemento.mapCommon (Common.withAttribute "a" (.float notANumber))
    (EntityMemento.blank "e" "T")], [], [], [], [], []⟩

private theorem regular_numberDelta : (numberDelta Handle CellId).Regular True := by
  refine ⟨?_, ?_, ?_, ?_, ?_, ?_⟩
  · intro memento member
    rw [List.mem_singleton.mp member]
    exact ⟨⟨.nil, trivial⟩, ⟨List.pairwise_singleton _ _, trivial, trivial⟩, .nil⟩
  · exact fun _ member => absurd member List.not_mem_nil
  · exact fun _ member => absurd member List.not_mem_nil
  · exact .nil
  · exact .nil
  · exact .nil

private theorem convert_numberDelta :
    (numberDelta Handle CellId).convert (numberOptions.settings.writing .empty) =
      some (numberDelta Reference Empty) := rfl

private theorem not_readable_of_notANumber {node : Node} (member : notANumber ∈ node.floats) :
    ¬ numberOptions.settings.Readable node :=
  Settings.not_readable_of_not_isFinite rfl member (by decide +kernel)

/-- The delta is accepted by a new store of either kind, and then nothing is loaded any more. -/
theorem loads_after_accepted_delta_notANumber :
    (∃ after changed,
      FileStore.openStore 0 "d" numberOptions Disk.empty = (.ok numberStore, numberDisk) ∧
        numberStore.Loads numberDisk ∧
        FileStore.delta .empty 0 (numberDelta Handle CellId) (numberStore, numberDisk) =
          (.ok (), after, changed) ∧
        ¬ after.Loads changed) ∧
    ∃ after,
      (MemoryStore.make numberOptions.settings).Loads ∧
        (MemoryStore.make numberOptions.settings).delta .empty (numberDelta Handle CellId) =
          .ok after ∧
        ¬ after.Loads := by
  obtain ⟨inFile, inMemory⟩ := @loads_after_accepted_delta .empty 0 (numberDelta Handle CellId)
    Cells.regular_empty regular_numberDelta
  constructor
  · have opens : FileStore.openStore 0 "d" numberOptions Disk.empty =
        (.ok numberStore, numberDisk) := by decide +kernel
    have reachable := FileStore.Reachable.opened Disk.wellFormed_empty opens
    have loads : numberStore.Loads numberDisk :=
      (FileStore.loads_iff rfl).mpr ⟨_, outcome_eq_ok_getD (by decide +kernel) Graph.empty⟩
    have hasRoom : numberStore.HasRoom := by
      unfold FileStore.HasRoom
      decide
    have isDocument : numberStore.settings.deltaDocument .empty 0 (numberDelta Handle CellId) =
        .ok (.make .delta 0 (numberDelta Reference Empty)) := by
      rw [Settings.deltaDocument]
      exact congrArg (fun content => numberStore.settings.written content >>= _) convert_numberDelta
    have encoded : numberStore.settings.encodeDelta .empty 0 (numberDelta Handle CellId) =
        .ok (numberStore.settings.encodeDocument (.make .delta 0 (numberDelta Reference Empty))) := by
      rw [Settings.encodeDelta, isDocument]
      rfl
    obtain ⟨number, payloads, sound⟩ :=
      (reachable.consistent.ready rfl).journal.sound rfl
    obtain ⟨after, changed, -, -, accepted, -⟩ := FileStore.takes_of_sound
      reachable.consistent.wellFormed rfl sound hasRoom encoded (by decide +kernel)
    obtain ⟨document, folded, isWritten, -, loadsIff⟩ :=
      inFile reachable rfl rfl loads accepted
    cases isDocument.symm.trans isWritten
    refine ⟨after, changed, opens, loads, accepted, fun loadsAgain => ?_⟩
    exact not_readable_of_notANumber (by decide +kernel)
      ((loadsIff.withRoom hasRoom).mp loadsAgain)
  · have loads : (MemoryStore.make numberOptions.settings).Loads :=
      (MemoryStore.loads_iff rfl).mpr ⟨_, rfl⟩
    obtain ⟨after, taken⟩ : ∃ after, (MemoryStore.make numberOptions.settings).delta .empty
        (numberDelta Handle CellId) = .ok after := ⟨_, rfl⟩
    obtain ⟨content, isContent, readableIff⟩ := inMemory rfl loads taken
    cases convert_numberDelta.symm.trans isContent
    refine ⟨after, loads, taken, fun loadsAgain => ?_⟩
    have readable := (readableIff fun isFormat => by cases isFormat).mp loadsAgain
    obtain ⟨found, isFound, isAfter⟩ := MemoryStore.delta_run rfl taken
    cases convert_numberDelta.symm.trans isFound
    have entity := readable.entities _ (List.mem_singleton.mpr rfl)
    rw [isAfter] at entity
    exact not_readable_of_notANumber (by decide +kernel) (entity (List.mem_singleton.mpr rfl))

end NotANumber

end GraphCheckpoint.Store
