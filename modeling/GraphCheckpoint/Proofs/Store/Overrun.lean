import GraphCheckpoint.Proofs.Store.TornAppend
import GraphCheckpoint.Proofs.Store.Undecodable

/-!
Contract: what becomes of a journal in which a length runs past the end, with whole frames behind it.

Owns:
- `Overrun`, the bytes that begin with such a length;
- the verdict on them: damage where they end with a whole frame, else an append cut short;
- the opening that follows either verdict, and what it takes out of the journal.

Does not own: how a length comes to be wrong.

The verdict looks at the last bytes only. So the beginning of one more frame is enough to have all
whole frames before it taken for a part of one append that was never finished.
-/

namespace GraphCheckpoint.Store

open GraphCheckpoint.Encoding

/-- Bytes that begin with a length which runs past their end, with whole frames behind it, and maybe
the beginning of one more. -/
structure Overrun where
  header : Bytes
  between : Bytes
  following : List Bytes
  unfinished : Bytes
  isWord : header.length = 4
  followed : following ≠ []
  fit : ∀ payload ∈ following, payload.length < frameBound
  begun : ∃ payload cut, payload.length < frameBound ∧ cut < (frame payload).length ∧
    unfinished = (frame payload).take cut
  beyond : (header ++ between ++ joinFrames following ++ unfinished).length <
    readLength header + frameOverhead

namespace Overrun

variable {overrun : Overrun} {payloads : List Bytes}

/-- All the bytes. -/
def region (overrun : Overrun) : Bytes :=
  overrun.header ++ overrun.between ++ joinFrames overrun.following ++ overrun.unfinished

/-- At least four bytes of a text have been written of the unfinished frame, and the bytes are fewer
than half a gigabyte. -/
def EndsInText (overrun : Overrun) : Prop :=
  ∃ length written, overrun.unfinished = lengthBytes length ++ written ∧ 4 ≤ written.length ∧
    (∀ byte ∈ written, 0x20 ≤ byte.toNat) ∧ overrun.region.length < blankLength

/-- What is found at the length, behind whole frames. -/
def reason (overrun : Overrun) (payloads : List Bytes) : String :=
  overrunReason (joinFrames payloads).length (readLength overrun.header)

theorem readLength_region (overrun : Overrun) :
    readLength overrun.region = readLength overrun.header := by
  have isHeader : overrun.region.take 4 = overrun.header := by
    rw [region, List.append_assoc, List.append_assoc]
    exact List.take_left' overrun.isWord
  have isLong : 4 ≤ overrun.region.length := by
    have isWord := overrun.isWord
    simp only [region, List.length_append]
    omega
  rw [← readLength_take _ isLong, isHeader]

/-- The verdict on the bytes. -/
theorem scanFrames_region (overrun : Overrun)
    (fit : ∀ payload ∈ payloads, payload.length < frameBound) :
    scanFrames (joinFrames payloads ++ overrun.region) =
      ⟨payloads, (joinFrames payloads).length,
        if endsWithWholeFrame overrun.region then .corrupt (overrun.reason payloads) else .torn⟩ := by
  have isLong : 4 ≤ overrun.region.length := by
    have isWord := overrun.isWord
    simp only [region, List.length_append]
    omega
  have beyond : overrun.region.length < readLength overrun.region + frameOverhead := by
    rw [readLength_region]
    exact overrun.beyond
  rw [scanFrames, scanFrom_joinFrames 0 fit, scanFrom_overrun _ isLong beyond, readLength_region]
  simp [reason]

/-- Whole frames with nothing behind them are noticed. -/
theorem hidesFrame_of_finished (finished : overrun.unfinished = []) : HidesFrame overrun.region := by
  have isWord := overrun.isWord
  rw [region, finished, List.append_nil]
  refine hidesFrame_joinFrames ?_ overrun.followed overrun.fit
  rw [List.length_append]
  omega

/-- Whole frames with the beginning of a text behind them are not. -/
theorem not_hidesFrame_of_endsInText (endsInText : overrun.EndsInText) :
    ¬ HidesFrame overrun.region := by
  obtain ⟨length, written, isUnfinished, enough, large, short⟩ := endsInText
  have split : overrun.region = overrun.header ++ overrun.between ++ joinFrames overrun.following ++
      lengthBytes length ++ written := by
    rw [region, isUnfinished, ← List.append_assoc]
  rw [split] at short ⊢
  exact not_hidesFrame_of_visible enough large short

end Overrun

namespace FileStore

/-- The opening has kept some payloads, and has cut all behind them out of the journal. -/
structure CutsBack (snapshot? : Option Bytes) (payloads : List Bytes) (lost : Bytes) (nowMs : Int)
    (opened : FileStore) (recovered : Disk) : Prop where
  sound : opened.Sound recovered snapshot? payloads
  undamaged : opened.journal.damage = none
  setAside : opened.journal.setAside = some (opened.tailPath nowMs)
  journal : recovered.read opened.journal.path = .ok (joinFrames payloads)
  tail : recovered.read (opened.tailPath nowMs) = .ok lost
  /-- No document behind the payloads is read. -/
  reads : opened.fold recovered = do
    let snapshot ← snapshot?.toList.mapM opened.settings.decodeDocument
    let documents ← payloads.mapM opened.settings.decodeDocument
    return (Graph.empty.applyDocuments snapshot).applyDocuments documents

section Opening

variable {disk : Disk} {directory : String} {snapshot? : Option Bytes} {payloads : List Bytes}
  {region : Bytes}

/-- What is taken for an append cut short is cut out of the journal, whatever it is. -/
theorem openStore_of_torn (wellFormed : disk.WellFormed) (there : disk.HasDirectory directory)
    (found : disk.read (pathIn directory journalName) = .ok (joinFrames payloads ++ region))
    (fit : ∀ payload ∈ payloads, payload.length < frameBound)
    (beside : disk.read (pathIn directory snapshotName) = snapshot?.elim (.error .missing) .ok)
    (torn : scanFrames (joinFrames payloads ++ region) =
      ⟨payloads, (joinFrames payloads).length, .torn⟩)
    (options : StoreOptions) (nowMs : Int)
    (noDirectory :
      disk.isDirectory (Journal.sidePath (pathIn directory journalName) nowMs) = false) :
    ∃ opened recovered, openStore nowMs directory options disk = (.ok opened, recovered) ∧
      opened.directory = directory ∧ opened.options = options ∧
      CutsBack snapshot? payloads region nowMs opened recovered := by
  obtain ⟨number, isFile, contents⟩ := isFile_of_read found
  obtain ⟨recovered, opens, evolves, journalSound, tail, others⟩ :=
    Journal.openAt_cutsBack wellFormed isFile contents fit torn nowMs noDirectory
  let opened : FileStore := ⟨directory, options, true, ⟨pathIn directory journalName, some number,
    payloads.length, none, some (Journal.sidePath (pathIn directory journalName) nowMs)⟩⟩
  have isOpened : openStore nowMs directory options disk = (.ok opened, recovered) :=
    openStore_of_openAt options (Disk.makeDirectories_of_hasDirectory there) opens
  have stillBeside : recovered.read (pathIn directory snapshotName) =
      snapshot?.elim (.error .missing) .ok :=
    (others _ (journalPath_ne_snapshotPath directory).symm
      (sidePath_ne_snapshotPath directory _ nowMs).symm).trans beside
  have sound : opened.Sound recovered snapshot? payloads := {
    running := rfl
    path := rfl
    directory := there.mono evolves.keeps
    files := ⟨number, journalSound,
      hasSnapshot_of_read (evolves.wellFormed wellFormed) journalSound.isFile stillBeside⟩ }
  refine ⟨opened, recovered, isOpened, rfl, rfl, {
    sound := sound
    undamaged := rfl
    setAside := rfl
    journal := ?_
    tail := tail
    reads := sound.fold_eq }⟩
  exact (Disk.read_of_get? journalSound.isFile).trans (congrArg Except.ok journalSound.contents)

/-- What is taken for damage stays. -/
theorem openStore_of_corrupt (there : disk.HasDirectory directory)
    (found : disk.read (pathIn directory journalName) = .ok (joinFrames payloads ++ region))
    {reason : String}
    (corrupt : (scanFrames (joinFrames payloads ++ region)).tail = .corrupt reason)
    (options : StoreOptions) (nowMs : Int) :
    ∃ opened, openStore nowMs directory options disk = (.ok opened, disk) ∧
      Refuses disk reason opened disk := by
  obtain ⟨number, isFile, contents⟩ := isFile_of_read found
  rw [← contents] at corrupt
  have opens := openStore_of_openAt options (Disk.makeDirectories_of_hasDirectory there)
    (@Journal.openAt_corrupt (Journal.blank (pathIn directory journalName)) disk number nowMs isFile
      _ rfl reason corrupt)
  exact ⟨_, opens, refuses_of_damaged rfl rfl⟩

/-- A store is opened over whole frames, then a length that runs past the end, and behind it more
whole frames and maybe the beginning of another. Where the bytes from the length on end with a whole
frame, as they do with nothing behind the frames, this is damage: the disk stays as it is, and
nothing is loaded or taken. Else all these bytes are taken for one append cut short: the frames behind
the length are cut out of the journal, no damage is told of, and the store goes on without them. That
is so whenever the last frame was cut in the middle of a text. -/
theorem openStore_overrun (overrun : Overrun) (wellFormed : disk.WellFormed)
    (there : disk.HasDirectory directory)
    (found : disk.read (pathIn directory journalName) =
      .ok (joinFrames payloads ++ overrun.region))
    (fit : ∀ payload ∈ payloads, payload.length < frameBound)
    (beside : disk.read (pathIn directory snapshotName) = snapshot?.elim (.error .missing) .ok)
    (options : StoreOptions) (nowMs : Int)
    (noDirectory :
      disk.isDirectory (Journal.sidePath (pathIn directory journalName) nowMs) = false) :
    (overrun.unfinished = [] → HidesFrame overrun.region) ∧
      (overrun.EndsInText → ¬ HidesFrame overrun.region) ∧
      (HidesFrame overrun.region →
        scanFrames (joinFrames payloads ++ overrun.region) =
            ⟨payloads, (joinFrames payloads).length, .corrupt (overrun.reason payloads)⟩ ∧
          ∃ opened, openStore nowMs directory options disk = (.ok opened, disk) ∧
            Refuses disk (overrun.reason payloads) opened disk) ∧
      (¬ HidesFrame overrun.region →
        scanFrames (joinFrames payloads ++ overrun.region) =
            ⟨payloads, (joinFrames payloads).length, .torn⟩ ∧
          ∃ opened recovered, openStore nowMs directory options disk = (.ok opened, recovered) ∧
            opened.directory = directory ∧ opened.options = options ∧
            CutsBack snapshot? payloads overrun.region nowMs opened recovered) := by
  have scanned := overrun.scanFrames_region fit
  refine ⟨Overrun.hidesFrame_of_finished, Overrun.not_hidesFrame_of_endsInText, fun hides => ?_,
    fun hidesNone => ?_⟩
  · rw [if_pos ((endsWithWholeFrame_iff _).mpr hides)] at scanned
    exact ⟨scanned, openStore_of_corrupt there found (congrArg JournalScan.tail scanned) options
      nowMs⟩
  · rw [if_neg (mt (endsWithWholeFrame_iff _).mp hidesNone)] at scanned
    exact ⟨scanned, openStore_of_torn wellFormed there found fit beside scanned options nowMs
      noDirectory⟩

end Opening

section Sample

/-- A length of which a byte has gone wrong, the frame of another payload, and the first eight bytes
of a third frame. -/
private def wrongLength : Overrun where
  header := [255, 255, 255, 0]
  between := [33]
  following := [[34, 35]]
  unfinished := (frame [97, 98, 99, 100, 101]).take 8
  isWord := rfl
  followed := nofun
  fit := by decide
  begun := ⟨[97, 98, 99, 100, 101], 8, by decide, by decide, rfl⟩
  beyond := by decide

private def wrongDisk : Disk :=
  ({ Disk.empty with entries := Disk.empty.entries.insert "d" .directory } : Disk).newFile
    "d/mementos.journal" (joinFrames [[36]] ++ wrongLength.region)

private def wrongOptions : StoreOptions := ⟨.sync, 0, ⟨.json, .empty⟩⟩

/-- The second payload is cut out of the journal, and no damage is told of. -/
theorem openStore_overrun_sample :
    ¬ HidesFrame wrongLength.region ∧
      ∃ opened recovered, openStore 1 "d" wrongOptions wrongDisk = (.ok opened, recovered) ∧
        CutsBack none [[36]] wrongLength.region 1 opened recovered := by
  have wellFormed : wrongDisk.WellFormed :=
    (Disk.wellFormed_empty.insertDirectory "d").newFile "d/mementos.journal" _
  have there : wrongDisk.HasDirectory "d" := by
    unfold Disk.HasDirectory
    decide +kernel
  have endsInText : wrongLength.EndsInText :=
    ⟨5, [97, 98, 99, 100], rfl, by decide, by decide +kernel, by decide⟩
  have found : wrongDisk.read (pathIn "d" journalName) =
      .ok (joinFrames [[36]] ++ wrongLength.region) := by decide +kernel
  have noSnapshot : wrongDisk.read (pathIn "d" snapshotName) =
      (none : Option Bytes).elim (.error .missing) .ok := by decide +kernel
  obtain ⟨-, hidesNone, -, cuts⟩ := openStore_overrun wrongLength wellFormed there found
    (by decide) noSnapshot wrongOptions 1 (by decide +kernel)
  obtain ⟨-, opened, recovered, opens, -, -, cutsBack⟩ := cuts (hidesNone endsInText)
  exact ⟨hidesNone endsInText, opened, recovered, opens, cutsBack⟩

end Sample

end FileStore

end GraphCheckpoint.Store
