import GraphCheckpoint.Proofs.Store.Damage

/-!
Contract: what a store does over whole frames that it cannot read.

Owns:
- `Backlog`, the payloads that wait in a journal, and the answers to requests while nobody can read
  them;
- `FileStore.Clogged`, which every request but a checkpoint keeps;
- that deltas go on coming into such a journal, until a checkpoint takes all of it away unread.

Does not own: damage of the frames themselves.

Opening and appending look at frames only; reading and folding look at the documents in them. So
nothing is told at the opening, and every delta that fits is taken, though no load comes to it.
-/

namespace GraphCheckpoint.Store

open GraphCheckpoint.Encoding StoreAction

/-! ## Requests over payloads that cannot be read -/

/-- What comes into an undamaged journal at a request: the document of a delta, where it can be made
and fits into a frame. -/
def Request.payload? (settings : Settings) : Request → Option Bytes
  | .delta cells now changes =>
      match settings.encodeDelta cells now changes with
      | .error _ => none
      | .ok payload => if frameBound ≤ payload.length then none else some payload
  | .checkpoint .. | .compact _ | .reopen .. => none

/-- The payloads that wait in a journal, and the number of them at which they are to be folded. -/
structure Backlog where
  compactAfter : UInt64
  payloads : List Bytes

namespace Backlog

variable (settings : Settings) (text : String)

/-- The folding is due as soon as one more payload has come. -/
def isDueAtNext (backlog : Backlog) : Prop :=
  0 < backlog.compactAfter.toNat ∧ backlog.compactAfter.toNat ≤ backlog.payloads.length + 1

instance (backlog : Backlog) : Decidable backlog.isDueAtNext :=
  inferInstanceAs (Decidable (_ ∧ _))

/-- What waits after a request: nothing goes away, and every delta that fits comes behind it. -/
def after (backlog : Backlog) (request : Request) : Backlog where
  compactAfter :=
    match request with
    | .reopen _ _ compactAfter => compactAfter
    | .delta .. | .checkpoint .. | .compact _ => backlog.compactAfter
  payloads := backlog.payloads ++ (request.payload? settings).toList

/-- The answer to a request other than a checkpoint, while every reading fails with the text. Where the
folding is due, it fails behind a delta that has come into the journal, and the answer is its failure. -/
def answer (backlog : Backlog) : Request → Outcome Unit
  | .delta cells now changes => do
      let payload ← settings.encodeDelta cells now changes
      if frameBound ≤ payload.length then throw (Journal.tooLarge payload)
      else if backlog.isDueAtNext then throw (.encoding text)
      else return
  | .compact _ => throw (.encoding text)
  | .checkpoint .. | .reopen .. => return

/-- The answers to requests in turn. -/
def answers : Backlog → List Request → List (Outcome Unit)
  | _, [] => []
  | backlog, request :: rest =>
      backlog.answer settings text request :: answers (backlog.after settings request) rest

variable {settings}

@[simp] theorem payloads_after (backlog : Backlog) (request : Request) :
    (backlog.after settings request).payloads =
      backlog.payloads ++ (request.payload? settings).toList := rfl

/-- What comes into the journal is accepted, unless the folding is due. -/
theorem answer_of_payload {backlog : Backlog} {request : Request} {payload : Bytes}
    (comes : request.payload? settings = some payload) :
    backlog.answer settings text request =
      if backlog.isDueAtNext then .error (.encoding text) else .ok () := by
  cases request with
  | delta cells now changes =>
      cases encoded : settings.encodeDelta cells now changes with
      | error failure =>
          rw [Request.payload?, encoded] at comes
          cases comes
      | ok document =>
          by_cases large : frameBound ≤ document.length
          · simp only [Request.payload?, encoded, if_pos large] at comes
            cases comes
          · rw [answer, encoded]
            simp only [bind, Except.bind, if_neg large]
            rfl
  | checkpoint cells now whole => cases comes
  | compact now => cases comes
  | reopen nowMs durability compactAfter => cases comes

theorem payloads_foldl (backlog : Backlog) (requests : List Request) :
    (requests.foldl (after settings) backlog).payloads =
      backlog.payloads ++ requests.filterMap (Request.payload? settings) := by
  induction requests generalizing backlog with
  | nil => simp
  | cons request rest inductionHypothesis =>
      rw [List.foldl_cons, inductionHypothesis, payloads_after, List.append_assoc]
      cases entry : request.payload? settings <;> simp [entry]

end Backlog

namespace FileStore

variable {store : FileStore} {disk : Disk} {snapshot? : Option Bytes} {payloads : List Bytes}
  {settings : Settings} {directory text : String} {backlog : Backlog}

/-! ## Reading -/

/-- One payload that is no document is enough to make every reading fail. -/
theorem Sound.fold_undecodable (sound : store.Sound disk snapshot? payloads) {payload : Bytes}
    (member : payload ∈ payloads)
    (undecodable : ∀ document, store.settings.decodeDocument payload ≠ .ok document) :
    ∃ text, store.fold disk = .error (.encoding text) := by
  rw [sound.fold_eq]
  cases snapshotRead : snapshot?.toList.mapM store.settings.decodeDocument with
  | error failure =>
      obtain ⟨bytes, -, unread⟩ := exists_mem_of_mapM_error snapshotRead
      obtain ⟨text, rfl⟩ := Settings.decodeDocument_error unread
      exact ⟨text, rfl⟩
  | ok snapshot =>
      cases read : payloads.mapM store.settings.decodeDocument with
      | error failure =>
          obtain ⟨bytes, -, unread⟩ := exists_mem_of_mapM_error read
          obtain ⟨text, rfl⟩ := Settings.decodeDocument_error unread
          exact ⟨text, rfl⟩
      | ok documents =>
          obtain ⟨document, decoded⟩ := exists_mapM_iff.mp ⟨documents, read⟩ payload member
          exact absurd decoded (undecodable document)

/-- A store that cannot be read fails in the same way with one more payload behind the others. -/
theorem Sound.fold_error_append (sound : store.Sound disk snapshot? payloads) {failure : Failure}
    (unread : store.fold disk = .error failure) {appended : FileStore} {appendedDisk : Disk}
    {later : List Bytes} (appendedSound : appended.Sound appendedDisk snapshot? (payloads ++ later))
    (sameSettings : appended.settings = store.settings) :
    appended.fold appendedDisk = .error failure := by
  rw [sound.fold_eq] at unread
  rw [appendedSound.fold_eq, sameSettings, List.mapM_append]
  cases snapshotRead : snapshot?.toList.mapM store.settings.decodeDocument with
  | error found =>
      rw [snapshotRead] at unread
      exact unread
  | ok snapshot =>
      cases read : payloads.mapM store.settings.decodeDocument with
      | error found =>
          rw [snapshotRead, read] at unread
          exact unread
      | ok documents =>
          rw [snapshotRead, read] at unread
          cases unread

/-! ## One request -/

/-- A running store whose frames are whole, in a directory of its own, of which no reading succeeds. -/
structure Clogged (store : FileStore) (disk : Disk) (settings : Settings) (directory : String)
    (snapshot? : Option Bytes) (backlog : Backlog) (text : String) : Prop where
  sameSettings : store.settings = settings
  place : store.directory = directory
  threshold : store.options.compactAfter = backlog.compactAfter
  sound : store.Sound disk snapshot? backlog.payloads
  unread : store.fold disk = .error (.encoding text)

/-- The request is answered as it should be over what waits, and what waits afterwards cannot be read
either. -/
def GoesOn (settings : Settings) (directory : String) (snapshot? : Option Bytes)
    (backlog : Backlog) (text : String) (request : Request) (store : FileStore) (disk : Disk) :
    Prop :=
  ∃ after changed,
    request.perform (store, disk) = (backlog.answer settings text request, after, changed) ∧
      after.Clogged changed settings directory snapshot? (backlog.after settings request) text

/-- A delta whose document fits comes behind the others, also where the folding fails that is due
then. -/
theorem Clogged.takeDelta (clogged : store.Clogged disk settings directory snapshot? backlog text)
    {payload : Bytes} (short : payload.length < frameBound) (now : Int64) :
    ∃ after changed,
      FileStore.takeDelta now store payload (store, disk) =
          (if backlog.isDueAtNext then .error (.encoding text) else .ok (), after, changed) ∧
        after.Clogged changed settings directory snapshot?
          { backlog with payloads := backlog.payloads ++ [payload] } text := by
  obtain ⟨journal, changed, appended, counted, appendedSound⟩ := clogged.sound.append short
  have appendedUnread :=
    clogged.sound.fold_error_append clogged.unread appendedSound rfl
  refine ⟨{ store with journal := journal }, changed,
    (bind_ok appended).trans ((bind_ok part_run).trans ?_),
    clogged.sameSettings, clogged.place, clogged.threshold, appendedSound, appendedUnread⟩
  by_cases due : backlog.isDueAtNext
  · rw [if_pos due, if_pos (by rw [clogged.threshold, counted]; exact due)]
    exact compact_of_fold_error appendedUnread now
  · rw [if_neg due, if_neg (by rw [clogged.threshold, counted]; exact due)]
    rfl

theorem Clogged.delta (clogged : store.Clogged disk settings directory snapshot? backlog text)
    (cells : Cells) (now : Int64) (changes : Delta LiveValue) :
    GoesOn settings directory snapshot? backlog text (.delta cells now changes) store disk := by
  cases encoded : settings.encodeDelta cells now changes with
  | error failure =>
      have refused := clogged.sameSettings ▸ encoded
      refine ⟨store, disk, (delta_of_refused clogged.sound.running refused).trans ?_, ?_⟩
      · rw [Backlog.answer, encoded]
        rfl
      · rw [Backlog.after, Request.payload?, encoded, Option.toList_none, List.append_nil]
        exact clogged
  | ok payload =>
      have start := @delta_of_encoded store disk clogged.sound.running cells now changes payload
        (clogged.sameSettings ▸ encoded)
      by_cases large : frameBound ≤ payload.length
      · refine ⟨store, disk, start.trans ((bind_error
          (clogged.sound.append_tooLarge large)).trans ?_), ?_⟩
        · rw [Backlog.answer, encoded]
          simp only [bind, Except.bind, if_pos large]
          rfl
        · rw [Backlog.after, Request.payload?, encoded]
          simp only [if_pos large, Option.toList_none, List.append_nil]
          exact clogged
      · have comes : (Request.delta cells now changes).payload? settings = some payload := by
          simp only [Request.payload?, encoded, if_neg large]
        obtain ⟨after, changed, ran, afterClogged⟩ :=
          clogged.takeDelta (Nat.not_le.mp large) now
        refine ⟨after, changed, start.trans (ran.trans ?_), ?_⟩
        · rw [Backlog.answer_of_payload text comes]
        · rw [Backlog.after, comes]
          exact afterClogged

theorem Clogged.compact (clogged : store.Clogged disk settings directory snapshot? backlog text)
    (now : Int64) :
    GoesOn settings directory snapshot? backlog text (.compact now) store disk := by
  refine ⟨store, disk, compact_of_fold_error clogged.unread now, ?_⟩
  rw [Backlog.after, Request.payload?, Option.toList_none, List.append_nil]
  exact clogged

/-- Opening looks at no document, so it finds nothing wrong. -/
theorem Clogged.reopen (clogged : store.Clogged disk settings directory snapshot? backlog text)
    (nowMs : Int) (durability : Durability) (compactAfter : UInt64) :
    GoesOn settings directory snapshot? backlog text (.reopen nowMs durability compactAfter)
      store disk := by
  obtain ⟨opened, opens, there, hasOptions, openedSound⟩ :=
    clogged.sound.openStore ⟨durability, compactAfter, store.settings⟩ nowMs
  have sameSettings : opened.settings = store.settings := by
    rw [FileStore.settings, hasOptions]
  have again : FileStore.openStore nowMs store.stop.directory
      ⟨durability, compactAfter, store.stop.settings⟩ disk = (.ok opened, disk) := opens
  refine ⟨opened, disk, ?_, sameSettings.trans clogged.sameSettings, there.trans clogged.place,
    congrArg StoreOptions.compactAfter hasOptions, ?_, ?_⟩
  · simp only [Request.perform, again]
    rfl
  · rw [Backlog.payloads_after, Request.payload?, Option.toList_none, List.append_nil]
    exact openedSound
  · rw [openedSound.fold_eq, sameSettings, ← clogged.sound.fold_eq]
    exact clogged.unread

/-- Every request but a checkpoint leaves what waits unread. -/
theorem Clogged.goesOn (clogged : store.Clogged disk settings directory snapshot? backlog text)
    {request : Request} (other : request.isCheckpoint = false) :
    GoesOn settings directory snapshot? backlog text request store disk := by
  cases request with
  | delta cells now changes => exact clogged.delta cells now changes
  | checkpoint cells now whole => cases other
  | compact now => exact clogged.compact now
  | reopen nowMs durability compactAfter => exact clogged.reopen nowMs durability compactAfter

/-! ## Runs -/

/-- So does a whole run of such requests. -/
theorem Clogged.run (clogged : store.Clogged disk settings directory snapshot? backlog text)
    {requests : List Request} (others : ∀ request ∈ requests, request.isCheckpoint = false) :
    ∃ after changed,
      Request.run requests (store, disk) =
          (backlog.answers settings text requests, after, changed) ∧
        after.Clogged changed settings directory snapshot?
          (requests.foldl (Backlog.after settings) backlog) text := by
  induction requests generalizing store disk backlog with
  | nil => exact ⟨store, disk, rfl, clogged⟩
  | cons request rest inductionHypothesis =>
      obtain ⟨middle, middleDisk, performed, middleClogged⟩ :=
        clogged.goesOn (others request List.mem_cons_self)
      obtain ⟨after, changed, ran, afterClogged⟩ := inductionHypothesis middleClogged
        fun another member => others another (List.mem_cons_of_mem request member)
      refine ⟨after, changed, ?_, afterClogged⟩
      rw [Request.run, performed]
      simp only [ran, Backlog.answers]

/-- What is seen of a store that cannot read what is in its directory: the bytes of its two files, no
sign of damage, and no load and no listing. -/
structure Unread (store : FileStore) (disk : Disk) (directory : String) (snapshot? : Option Bytes)
    (payloads : List Bytes) (text : String) : Prop where
  running : store.running = true
  undamaged : store.journal.damage = none
  counted : store.journal.frames = payloads.length
  journal : disk.read (pathIn directory journalName) = .ok (joinFrames payloads)
  snapshot : disk.read (pathIn directory snapshotName) = snapshot?.elim (.error .missing) .ok
  storedIds : store.storedIds disk = .error (.encoding text)
  loads : ∀ {σ : Type} (lookup : Lookup σ) (state : σ),
    (store.load disk lookup).run state = .error (.encoding text)

theorem HasSnapshot.read {path : String} {number : Nat}
    (has : HasSnapshot disk path number snapshot?) :
    disk.read path = snapshot?.elim (.error .missing) .ok := by
  cases snapshot? with
  | none =>
      rw [Disk.read, Disk.file?_of_absent has]
      rfl
  | some bytes =>
      obtain ⟨file, isFile, -, -, holds⟩ := has
      rw [Disk.read_of_get? isFile, holds]
      rfl

theorem Clogged.seen (clogged : store.Clogged disk settings directory snapshot? backlog text) :
    store.Unread disk directory snapshot? backlog.payloads text := by
  obtain ⟨number, journal, has⟩ := clogged.sound.files
  refine ⟨clogged.sound.running, journal.undamaged, journal.counted, ?_, ?_,
    storedIds_of_fold_error clogged.unread,
    load_of_fold_error clogged.sound.running clogged.unread⟩
  · rw [← clogged.place, ← clogged.sound.path, Disk.read_of_get? journal.isFile, journal.contents]
  · rw [← clogged.place]
    exact has.read

/-! ## Opening -/

/-- The snapshot is no file of the journal. -/
theorem hasSnapshot_of_read (wellFormed : disk.WellFormed) {number : Nat}
    (isFile : disk.entries.get? (pathIn directory journalName) = some (.file number))
    (beside : disk.read (pathIn directory snapshotName) = snapshot?.elim (.error .missing) .ok) :
    HasSnapshot disk (pathIn directory snapshotName) number snapshot? := by
  cases snapshot? with
  | none =>
      cases entry : disk.entries.get? (pathIn directory snapshotName) with
      | none => exact entry
      | some standing =>
          rw [Disk.read, Disk.file?, entry] at beside
          cases standing <;> cases beside
  | some bytes =>
      obtain ⟨file, isSnapshot, holds⟩ := isFile_of_read beside
      refine ⟨file, isSnapshot, ?_, wellFormed.inRange _ _ isSnapshot, holds⟩
      rintro rfl
      exact journalPath_ne_snapshotPath directory (wellFormed.apart _ _ _ isFile isSnapshot)

/-- Where the bytes of the two files are all that is known of a directory, a store is opened in it. -/
theorem openStore_of_read (wellFormed : disk.WellFormed) (there : disk.HasDirectory directory)
    (found : disk.read (pathIn directory journalName) = .ok (joinFrames payloads))
    (fit : ∀ payload ∈ payloads, payload.length < frameBound)
    (beside : disk.read (pathIn directory snapshotName) = snapshot?.elim (.error .missing) .ok)
    (options : StoreOptions) (nowMs : Int) :
    ∃ opened, openStore nowMs directory options disk = (.ok opened, disk) ∧
      opened.directory = directory ∧ opened.options = options ∧
      opened.Sound disk snapshot? payloads := by
  obtain ⟨number, isFile, contents⟩ := isFile_of_read found
  exact openStore_joinFrames there isFile (wellFormed.inRange _ _ isFile) contents fit
    (hasSnapshot_of_read wellFormed isFile beside) options nowMs

/-! ## The law -/

/-- A payload that is no document is told of by no opening and keeps no delta out. A store is opened
over any whole frames. As long as no checkpoint comes, in every run and however often it is opened
again: every reading fails in one way, no request touches the snapshot, and the journal holds the
documents of all deltas that could be encoded and framed behind the payloads that were there. Their
answers are successes, except that a folding which is due by then fails with the reading. Any
checkpoint takes all of that away, and a store that has read nothing since loads its graph. -/
theorem deltas_behind_undecodable {payload : Bytes} (member : payload ∈ payloads)
    (undecodable : ∀ document, settings.decodeDocument payload ≠ .ok document) :
    (∀ {disk : Disk} {directory : String} (options : StoreOptions) (nowMs : Int),
      disk.WellFormed → disk.HasDirectory directory →
      disk.read (pathIn directory journalName) = .ok (joinFrames payloads) →
      (∀ payload ∈ payloads, payload.length < frameBound) →
      disk.read (pathIn directory snapshotName) = snapshot?.elim (.error .missing) .ok →
      ∃ opened, openStore nowMs directory options disk = (.ok opened, disk) ∧
        opened.directory = directory ∧ opened.options = options ∧
        opened.Sound disk snapshot? payloads) ∧
    ∀ {store : FileStore} {disk : Disk}, store.settings = settings →
      store.Sound disk snapshot? payloads →
      ∃ text, ∀ requests : List Request, (∀ request ∈ requests, request.isCheckpoint = false) →
        ∃ after changed,
          Request.run requests (store, disk) =
              (Backlog.answers settings text ⟨store.options.compactAfter, payloads⟩ requests,
                after, changed) ∧
            after.Unread changed store.directory snapshot?
              (payloads ++ requests.filterMap (Request.payload? settings)) text ∧
            ∀ {cells : Cells} {now : Int64} {whole : Graph LiveValue} {normal : Graph SettledValue},
              whole.NormalForm cells normal →
              ∃ replaced last,
                FileStore.checkpoint cells now whole (after, changed) = (.ok (), replaced, last) ∧
                  replaced.Mended settings last ∧
                  (settings.Admits (settings.documentOfGraph now normal) →
                    replaced.Restored settings last
                      (Graph.empty.apply (Delta.ofGraph normal))) := by
  constructor
  · intro disk directory options nowMs wellFormed there found fit beside
    exact openStore_of_read wellFormed there found fit beside options nowMs
  · intro store disk sameSettings sound
    obtain ⟨text, unread⟩ := sound.fold_undecodable member (by rw [sameSettings]; exact undecodable)
    have clogged : store.Clogged disk settings store.directory snapshot?
        ⟨store.options.compactAfter, payloads⟩ text :=
      ⟨sameSettings, rfl, rfl, sound, unread⟩
    refine ⟨text, fun requests others => ?_⟩
    obtain ⟨after, changed, ran, afterClogged⟩ := clogged.run others
    have seen := afterClogged.seen
    rw [Backlog.payloads_foldl] at seen
    refine ⟨after, changed, ran, seen, fun isNormal => ?_⟩
    obtain ⟨number, journal, has⟩ := afterClogged.sound.files
    rw [← afterClogged.sameSettings]
    exact (afterClogged.sound.housed journal has).checkpoint isNormal

section Sample

private def unreadSettings : Settings := ⟨.json, .empty⟩

/-- One frame, with a payload that is no document. -/
private def unreadDisk : Disk :=
  ({ Disk.empty with entries := Disk.empty.entries.insert "d" .directory } : Disk).newFile
    "d/mementos.journal" (joinFrames [[33]])

private def lostDelta : Request :=
  .delta .empty 1 ⟨[⟨⟨"e", "T", none, [], [], []⟩, none, [], [], [], [], none⟩], [], [], [], [], []⟩

private def lateRequests : List Request := [lostDelta, .reopen 2 .sync 3, lostDelta, .compact 4]

private theorem answers_lateRequests (text : String) {document : Bytes}
    (comes : lostDelta.payload? unreadSettings = some document) :
    Backlog.answers unreadSettings text ⟨0, [[33]]⟩ lateRequests =
      [.ok (), .ok (), .error (.encoding text), .error (.encoding text)] := by
  have early : ¬ (⟨0, [[33]]⟩ : Backlog).isDueAtNext := by decide
  have due : (⟨3, [[33]] ++ [document]⟩ : Backlog).isDueAtNext :=
    ⟨Nat.succ_pos 2, Nat.le_refl 3⟩
  have taken : Backlog.after unreadSettings ⟨0, [[33]]⟩ lostDelta = ⟨0, [[33]] ++ [document]⟩ := by
    simp only [Backlog.after, comes, Option.toList_some]
    rfl
  have reopened : (Backlog.after unreadSettings ⟨0, [[33]] ++ [document]⟩ (.reopen 2 .sync 3)) =
      ⟨3, [[33]] ++ [document]⟩ := rfl
  rw [lateRequests, Backlog.answers, Backlog.answer_of_payload text comes, if_neg early, taken,
    Backlog.answers, reopened, Backlog.answers, Backlog.answer_of_payload text comes, if_pos due]
  rfl

/-- Two deltas are taken, the second one in spite of the folding that is due; no load comes to either. -/
theorem deltas_behind_undecodable_sample :
    ∃ opened text, openStore 0 "d" ⟨.sync, 0, unreadSettings⟩ unreadDisk =
        (.ok opened, unreadDisk) ∧
      ∃ after changed,
        Request.run lateRequests (opened, unreadDisk) =
            ([.ok (), .ok (), .error (.encoding text), .error (.encoding text)], after, changed) ∧
          ∃ document, lostDelta.payload? unreadSettings = some document ∧
            after.Unread changed "d" none [[33], document, document] text := by
  have undecodable : ∀ document, unreadSettings.decodeDocument [33] ≠ .ok document := by
    intro document decoded
    have fails : (unreadSettings.decodeDocument [33]).isOk = false := by decide +kernel
    rw [decoded] at fails
    cases fails
  obtain ⟨opens, runs⟩ := @deltas_behind_undecodable none [[33]] unreadSettings [33]
    (List.mem_singleton.mpr rfl) undecodable
  obtain ⟨opened, isOpened, there, hasOptions, sound⟩ := @opens unreadDisk "d"
    ⟨.sync, 0, unreadSettings⟩ 0
    ((Disk.wellFormed_empty.insertDirectory "d").newFile "d/mementos.journal" _)
    (by unfold Disk.HasDirectory; decide +kernel) (by decide +kernel) (by decide) (by decide +kernel)
  obtain ⟨text, goesOn⟩ := @runs opened unreadDisk (by rw [FileStore.settings, hasOptions]) sound
  obtain ⟨after, changed, ran, seen, -⟩ := goesOn lateRequests (by decide)
  obtain ⟨document, comes⟩ :=
    Option.isSome_iff_exists.mp (show (lostDelta.payload? unreadSettings).isSome by decide +kernel)
  have entries : lateRequests.filterMap (Request.payload? unreadSettings) = [document, document] := by
    rw [lateRequests, List.filterMap_cons_some comes, List.filterMap_cons_none rfl,
      List.filterMap_cons_some comes, List.filterMap_cons_none rfl, List.filterMap_nil]
  rw [hasOptions, answers_lateRequests text comes] at ran
  rw [there, entries] at seen
  exact ⟨opened, text, isOpened, after, changed, ran, document, comes, seen⟩

end Sample

end FileStore

end GraphCheckpoint.Store
