import GraphCheckpoint.Proofs.Store.Damage
import GraphCheckpoint.Proofs.Store.TornAppend

/-!
Contract: what a scan says about bytes, whatever they are.

Owns:
- `Round`, what the scan does at one position, with every read checked against the bytes;
- `scanWithin`, the scan in rounds, which reads no byte that is not there and comes to its end;
- `JournalScan.Exact`, what the payloads, the length and the tail of a scan are to its bytes;
- the opening that cuts an unfinished frame off, and the next one, which changes nothing.

Does not own: how bytes come into a journal.

The scan of the model takes what is missing for zeros or nothing. The scan in rounds does not go on
there, so that the two agree says that nothing is ever missing.
-/

namespace GraphCheckpoint.Store

open GraphCheckpoint.Encoding StoreAction

/-! ## Checked reads -/

/-- The bytes from a position on; behind the end there is nothing to read. -/
def bytesFrom? (bytes : Bytes) (position : Nat) : Option Bytes :=
  if position ≤ bytes.length then some (bytes.drop position) else none

/-- So many bytes from a position on, if there are as many. -/
def bytesAt? (bytes : Bytes) (position count : Nat) : Option Bytes :=
  if position + count ≤ bytes.length then some ((bytes.drop position).take count) else none

/-- The length at a position, if four bytes are there. -/
def lengthAt? (bytes : Bytes) (position : Nat) : Option Nat :=
  (bytesAt? bytes position 4).map readLength

theorem bytesFrom?_of_le {bytes : Bytes} {position : Nat} (inside : position ≤ bytes.length) :
    bytesFrom? bytes position = some (bytes.drop position) := if_pos inside

theorem bytesAt?_of_le {bytes : Bytes} {position count : Nat}
    (inside : position + count ≤ bytes.length) :
    bytesAt? bytes position count = some ((bytes.drop position).take count) := if_pos inside

theorem lengthAt?_of_le {bytes : Bytes} {position : Nat} (inside : position + 4 ≤ bytes.length) :
    lengthAt? bytes position = some (readLength (bytes.drop position)) := by
  rw [lengthAt?, bytesAt?_of_le inside, Option.map_some, readLength_take]
  rw [List.length_drop]
  omega

/-- The check of the last bytes, with checked reads. -/
def checkEnd? (region : Bytes) : Option Bool :=
  if region.length < 4 + frameOverhead then some false
  else
    (lengthAt? region (region.length - 4)).bind fun trailer =>
      if region.length < trailer + frameOverhead then some false
      else
        let start := region.length - (trailer + frameOverhead)
        if start < 4 then some false
        else (lengthAt? region start).map fun length => length == trailer

theorem checkEnd?_eq (region : Bytes) : checkEnd? region = some (endsWithWholeFrame region) := by
  unfold checkEnd? endsWithWholeFrame
  by_cases short : region.length < 4 + frameOverhead
  · rw [if_pos short, if_pos short]
  rw [if_neg short, if_neg short]
  rw [frameOverhead] at short ⊢
  rw [lengthAt?_of_le (by omega), Option.bind_some]
  generalize readLength (region.drop (region.length - 4)) = trailer
  dsimp only
  by_cases shortForTrailer : region.length < trailer + 8
  · rw [if_pos shortForTrailer, if_pos shortForTrailer]
  rw [if_neg shortForTrailer, if_neg shortForTrailer]
  by_cases noLength : region.length - (trailer + 8) < 4
  · rw [if_pos noLength, decide_eq_false (Nat.not_le.mpr noLength), Bool.false_and]
  · rw [if_neg noLength, decide_eq_true (Nat.not_lt.mp noLength), Bool.true_and,
      lengthAt?_of_le (by omega), Option.map_some]

/-! ## Rounds -/

/-- What a scan does at one position. -/
inductive Round where
  /-- It ends there. -/
  | stop (tail : JournalTail)
  /-- It passes the frame of a payload and goes on behind it. -/
  | pass (payload : Bytes) (next : Nat)

/-- What a scan does at a position, with checked reads. -/
def round? (bytes : Bytes) (position : Nat) : Option Round :=
  (bytesFrom? bytes position).bind fun rest =>
    if rest.isEmpty then some (.stop .clean)
    else if rest.length < 4 then some (.stop .torn)
    else
      (lengthAt? rest 0).bind fun length =>
        if length + frameOverhead ≤ rest.length then
          (lengthAt? rest (4 + length)).bind fun trailer =>
            if trailer ≠ length then
              some (.stop (.corrupt (trailerReason position length trailer)))
            else
              (bytesAt? rest 4 length).map fun payload =>
                .pass payload (position + (length + frameOverhead))
        else
          (checkEnd? rest).map fun hides =>
            if hides then .stop (.corrupt (overrunReason position length)) else .stop .torn

/-- What a scan from an offset is, told by what it does there. -/
def Round.scan (offset : Nat) (bytes : Bytes) : Round → JournalScan
  | .stop tail => ⟨[], offset, tail⟩
  | .pass payload next =>
      { scanFrom next (bytes.drop next) with
        payloads := payload :: (scanFrom next (bytes.drop next)).payloads }

/-- A passed frame takes at least the bytes around its payload, and the bytes that it takes are
there. -/
def Round.Advances (bytes : Bytes) (position : Nat) : Round → Prop
  | .stop _ => True
  | .pass _ next => position + frameOverhead ≤ next ∧ next ≤ bytes.length

/-- At a position within the bytes no read fails. -/
theorem exists_round {bytes : Bytes} {position : Nat} (inside : position ≤ bytes.length) :
    ∃ round, round? bytes position = some round ∧ round.Advances bytes position ∧
      scanFrom position (bytes.drop position) = round.scan position bytes := by
  rw [round?, bytesFrom?_of_le inside, Option.bind_some, scanFrom]
  have restLength : (bytes.drop position).length = bytes.length - position := List.length_drop
  have further (count : Nat) : (bytes.drop position).drop count = bytes.drop (position + count) :=
    List.drop_drop
  by_cases isEmpty : (bytes.drop position).isEmpty = true
  · rw [if_pos isEmpty, if_pos isEmpty]
    exact ⟨_, rfl, trivial, rfl⟩
  rw [if_neg isEmpty, if_neg isEmpty]
  by_cases short : (bytes.drop position).length < 4
  · rw [if_pos short, if_pos short]
    exact ⟨_, rfl, trivial, rfl⟩
  rw [if_neg short, if_neg short, lengthAt?_of_le (by omega), Option.bind_some, List.drop_zero]
  generalize readLength (bytes.drop position) = length
  dsimp only
  by_cases room : length + frameOverhead ≤ (bytes.drop position).length
  · rw [if_pos room, if_pos room]
    rw [frameOverhead] at room ⊢
    rw [lengthAt?_of_le (by omega), Option.bind_some]
    by_cases differs : readLength ((bytes.drop position).drop (4 + length)) ≠ length
    · rw [if_pos differs, if_pos differs]
      exact ⟨_, rfl, trivial, rfl⟩
    · rw [if_neg differs, if_neg differs, bytesAt?_of_le (by omega), Option.map_some]
      refine ⟨_, rfl, ⟨?_, ?_⟩, ?_⟩
      · rw [frameOverhead]
        omega
      · omega
      · rw [further (length + 8)]
        rfl
  · rw [if_neg room, if_neg room, checkEnd?_eq, Option.map_some]
    cases endsWithWholeFrame (bytes.drop position) with
    | true => exact ⟨_, rfl, trivial, rfl⟩
    | false => exact ⟨_, rfl, trivial, rfl⟩

/-- A scan from a position on that does at most so many rounds, and nothing that reads beyond the
bytes. -/
def scanWithin (bytes : Bytes) : Nat → Nat → Option JournalScan
  | 0, _ => none
  | rounds + 1, position =>
      (round? bytes position).bind fun
        | .stop tail => some ⟨[], position, tail⟩
        | .pass payload next =>
            (scanWithin bytes rounds next).map fun scan =>
              { scan with payloads := payload :: scan.payloads }

/-- The induction is on the rounds: each of them but the last takes a whole frame. -/
theorem scanWithin_eq {bytes : Bytes} {rounds position : Nat} (inside : position ≤ bytes.length)
    (enough : bytes.length - position < rounds * frameOverhead) :
    scanWithin bytes rounds position = some (scanFrom position (bytes.drop position)) := by
  induction rounds generalizing position with
  | zero =>
      rw [Nat.zero_mul] at enough
      exact absurd enough (Nat.not_lt_zero _)
  | succ rounds inductionHypothesis =>
      obtain ⟨round, isRound, advances, scanned⟩ := exists_round inside
      rw [scanWithin, isRound, Option.bind_some, scanned]
      cases round with
      | stop tail => rfl
      | pass payload next =>
          obtain ⟨further, within⟩ := advances
          have remaining : bytes.length - next < rounds * frameOverhead := by
            rw [Nat.succ_mul, frameOverhead] at enough
            rw [frameOverhead] at further ⊢
            omega
          simp only [inductionHypothesis within remaining, Option.map_some, Round.scan]

/-! ## Any bytes -/

/-- What a scan says about its bytes. -/
structure JournalScan.Exact (scan : JournalScan) (bytes : Bytes) : Prop where
  within : scan.wholeLength ≤ bytes.length
  joined : joinFrames scan.payloads = bytes.take scan.wholeLength
  fit : ∀ payload ∈ scan.payloads, payload.length < frameBound
  clean_iff : scan.tail = .clean ↔ scan.wholeLength = bytes.length
  again : scanFrames (bytes.take scan.wholeLength) = ⟨scan.payloads, scan.wholeLength, .clean⟩

/-- Bytes that are cut where the scan stopped are whole frames, and with no tail they were whole
frames from the first. -/
theorem exact_scanFrames (bytes : Bytes) : (scanFrames bytes).Exact bytes := by
  obtain ⟨passed, inside, whole, taken, fit, clean⟩ := scanFrom_sound 0 bytes
  rw [Nat.zero_add] at whole
  rw [← scanFrames] at whole taken fit clean
  have again : scanFrames (bytes.take passed) = ⟨(scanFrames bytes).payloads, passed, .clean⟩ := by
    have joinedLength := congrArg List.length taken
    rw [List.length_take, Nat.min_eq_left inside] at joinedLength
    rw [taken, scanFrames_joinFrames fit, ← joinedLength]
  refine ⟨by rw [whole]; exact inside, by rw [whole]; exact taken.symm, fit, ?_, by
    rw [whole]; exact again⟩
  rw [whole]
  refine ⟨clean, fun isAll => ?_⟩
  rw [isAll, List.take_length] at again
  rw [again]

/-! ## Opening -/

namespace Journal

variable {disk : Disk} {path : String} {bytes : Bytes} {number : Nat}

/-- What the opening of a journal with an unfinished frame leaves, and what the next one does. -/
structure CutBack (path : String) (number : Nat) (bytes : Bytes) (nowMs : Int)
    (before after : Disk) : Prop where
  /-- The whole frames stay, as they are. -/
  journal : after.read path = .ok (bytes.take (scanFrames bytes).wholeLength)
  /-- Nothing of the rest is lost. -/
  side : after.read (sidePath path nowMs) = .ok (bytes.drop (scanFrames bytes).wholeLength)
  others : ∀ other, other ≠ path → other ≠ sidePath path nowMs →
    after.read other = before.read other
  payloads : (⟨path, some number, (scanFrames bytes).payloads.length, none,
    some (sidePath path nowMs)⟩ : Journal).readPayloads after = .ok (scanFrames bytes).payloads
  /-- The same frames are found again, and nothing more is cut off. -/
  again : ∀ laterMs, openAt laterMs (blank path, after) =
    (.ok (), ⟨path, some number, (scanFrames bytes).payloads.length, none, none⟩, after)

theorem Sound.openAt_again {journal : Journal} {payloads : List Bytes}
    (sound : journal.Sound disk number payloads) (nowMs : Int) :
    openAt nowMs (blank journal.path, disk) =
      (.ok (), ⟨journal.path, some number, payloads.length, none, none⟩, disk) := by
  have scanned : scanFrames (disk.contentsOf number) =
      ⟨payloads, (joinFrames payloads).length, .clean⟩ := by
    rw [sound.contents, scanFrames_joinFrames sound.fit]
  exact @openAt_clean (blank journal.path) disk number nowMs sound.isFile _ scanned rfl

theorem openAt_torn_cutBack (wellFormed : disk.WellFormed)
    (isFile : disk.entries.get? path = some (.file number))
    (contents : disk.contentsOf number = bytes) (torn : (scanFrames bytes).tail = .torn)
    (nowMs : Int) (noDirectory : disk.isDirectory (sidePath path nowMs) = false) :
    ∃ after,
      openAt nowMs (blank path, disk) =
        (.ok (), ⟨path, some number, (scanFrames bytes).payloads.length, none,
          some (sidePath path nowMs)⟩, after) ∧
        CutBack path number bytes nowMs disk after := by
  have isExact := exact_scanFrames bytes
  have joinedLength : (joinFrames (scanFrames bytes).payloads).length =
      (scanFrames bytes).wholeLength := by
    rw [isExact.joined, List.length_take, Nat.min_eq_left isExact.within]
  have parts : joinFrames (scanFrames bytes).payloads ++
      bytes.drop (scanFrames bytes).wholeLength = bytes := by
    rw [isExact.joined, List.take_append_drop]
  have scanned : scanFrames (joinFrames (scanFrames bytes).payloads ++
      bytes.drop (scanFrames bytes).wholeLength) =
        ⟨(scanFrames bytes).payloads, (joinFrames (scanFrames bytes).payloads).length, .torn⟩ := by
    rw [parts, joinedLength, ← torn]
  obtain ⟨after, opens, evolves, sound, side, others⟩ :=
    openAt_cutsBack wellFormed isFile (contents.trans parts.symm) isExact.fit scanned nowMs
      noDirectory
  refine ⟨after, opens, ?_, side, others, sound.readPayloads, sound.openAt_again⟩
  rw [← isExact.joined, ← sound.contents]
  exact Disk.read_of_get? sound.isFile

/-- Where a directory has the name of the side file, nothing is cut off and the opening fails. -/
theorem openAt_torn_refused (isFile : disk.entries.get? path = some (.file number))
    (contents : disk.contentsOf number = bytes) (torn : (scanFrames bytes).tail = .torn)
    (nowMs : Int) (isDirectory : disk.isDirectory (sidePath path nowMs) = true) :
    openAt nowMs (blank path, disk) =
      (.error (.io ("set aside torn journal tail: " ++ DiskFault.isDirectory.reason)),
        { blank path with frames := (scanFrames bytes).payloads.length }, disk) := by
  have refused : disk.step (.write (sidePath path nowMs)
      (bytes.drop (scanFrames bytes).wholeLength)) = .error .isDirectory := by
    have stands : disk.entries.get? (sidePath path nowMs) = some .directory :=
      eq_of_beq isDirectory
    rw [Disk.step, Disk.file?, stands]
  have fails : step "set aside torn journal tail" (.write (sidePath path nowMs)
      (bytes.drop (scanFrames bytes).wholeLength))
        (({ blank path with frames := (scanFrames bytes).payloads.length } : Journal), disk) =
      (.error (.io ("set aside torn journal tail: " ++ DiskFault.isDirectory.reason)),
        { blank path with frames := (scanFrames bytes).payloads.length }, disk) := by
    refine (bind_ok disk_run).trans ?_
    rw [refused]
    rfl
  refine (bind_ok part_run).trans ((bind_ok disk_run).trans ?_)
  rw [readBytes_of_isFile (show disk.entries.get? (blank path).path = _ from isFile), contents]
  refine (bind_ok ofExcept_ok).trans ((bind_ok (setPart_run _)).trans ?_)
  rw [torn]
  exact bind_error ((bind_ok part_run).trans (bind_error fails))

end Journal

/-! ## The law -/

/-- Framing is exact. Frames of payloads that have a length of four bytes are scanned into these
payloads, to the last byte. And whatever the bytes are: the scan comes to its end in as many rounds
as frames would fit, reading no byte that is not there; what it passes are the frames of the payloads
that it gives, it ends clean where it passes all, and what it passes is scanned again in the same
way. So an opening that finds an unfinished frame keeps all else, puts the rest into a side file,
and the next opening changes nothing; only where a directory has the name of the side file, it
fails, with the disk as it was. -/
theorem framing_exact :
    (∀ payloads : List Bytes, (∀ payload ∈ payloads, payload.length < frameBound) →
      scanFrames (joinFrames payloads) = ⟨payloads, (joinFrames payloads).length, .clean⟩) ∧
    (∀ bytes : Bytes,
      scanWithin bytes (bytes.length / frameOverhead + 1) 0 = some (scanFrames bytes) ∧
        (scanFrames bytes).Exact bytes) ∧
    ∀ (disk : Disk) (path : String) (bytes : Bytes) (nowMs : Int),
      disk.WellFormed → disk.read path = .ok bytes → (scanFrames bytes).tail = .torn →
      (disk.isDirectory (Journal.sidePath path nowMs) = false →
        ∃ number after,
          Journal.openAt nowMs (Journal.blank path, disk) =
            (.ok (), ⟨path, some number, (scanFrames bytes).payloads.length, none,
              some (Journal.sidePath path nowMs)⟩, after) ∧
            Journal.CutBack path number bytes nowMs disk after) ∧
      (disk.isDirectory (Journal.sidePath path nowMs) = true →
        ∃ journal,
          Journal.openAt nowMs (Journal.blank path, disk) =
            (.error (.io ("set aside torn journal tail: " ++ DiskFault.isDirectory.reason)),
              journal, disk)) := by
  refine ⟨fun payloads fit => scanFrames_joinFrames fit, fun bytes => ⟨?_, exact_scanFrames bytes⟩,
    fun disk path bytes nowMs wellFormed found torn => ?_⟩
  · have enough : bytes.length - 0 < (bytes.length / frameOverhead + 1) * frameOverhead := by
      rw [frameOverhead]
      omega
    exact scanWithin_eq (Nat.zero_le _) enough
  · obtain ⟨number, isFile, contents⟩ := FileStore.isFile_of_read found
    exact ⟨fun noDirectory =>
        ⟨number, Journal.openAt_torn_cutBack wellFormed isFile contents torn nowMs noDirectory⟩,
      fun isDirectory =>
        ⟨_, Journal.openAt_torn_refused isFile contents torn nowMs isDirectory⟩⟩

section Sample

/-- The frames of two payloads, one of them empty, and the first five bytes of a third frame. -/
private def halfWritten : Bytes := joinFrames [[7], []] ++ [3, 0, 0, 0, 9]

private def halfWrittenDisk : Disk := Disk.empty.newFile "j" halfWritten

/-- Both payloads stay, and the five bytes go to a file of their own. -/
theorem framing_exact_sample :
    scanFrames (joinFrames [[7], []]) = ⟨[[7], []], 17, .clean⟩ ∧
      ∃ number after,
        Journal.openAt 5 (Journal.blank "j", halfWrittenDisk) =
            (.ok (), ⟨"j", some number, 2, none, some "j.5.tail"⟩, after) ∧
          after.read "j" = .ok (joinFrames [[7], []]) ∧
          after.read "j.5.tail" = .ok [3, 0, 0, 0, 9] ∧
          Journal.openAt 6 (Journal.blank "j", after) =
            (.ok (), ⟨"j", some number, 2, none, none⟩, after) := by
  obtain ⟨roundTrip, -, opening⟩ := framing_exact
  have isTorn : scanFrames halfWritten = ⟨[[7], []], 17, .torn⟩ := by decide +kernel
  obtain ⟨number, after, opens, cutBack⟩ := (opening halfWrittenDisk "j" halfWritten 5
    (Disk.wellFormed_empty.newFile "j" halfWritten) (by decide +kernel)
    (congrArg JournalScan.tail isTorn)).1 (by decide +kernel)
  have kept : after.read "j" = .ok (halfWritten.take (scanFrames halfWritten).wholeLength) :=
    cutBack.journal
  have side : after.read "j.5.tail" =
      .ok (halfWritten.drop (scanFrames halfWritten).wholeLength) := cutBack.side
  rw [isTorn] at opens kept side
  have again := cutBack.again 6
  rw [isTorn] at again
  exact ⟨roundTrip [[7], []] (by decide), number, after, opens, kept, side, again⟩

end Sample

end GraphCheckpoint.Store
