import GraphCheckpoint.Proofs.Store.Replacing
import Mathlib.Logic.Relation

/-!
Contract: what a store loads after its journal was folded into a new snapshot.

Owns:
- `FileStore.Holds`, a sound store that is read as a given graph;
- `FileStore.Folding`, a folding of the journal that ends, or dies and is followed by an opening;
- that any number of foldings keep what a store holds, as long as its checkpoint is read as it was
  written.

Does not own: the steps on the disk by which contents are replaced.

Folding does not look at the bytes that it has written. In MessagePack, records that were read may
nest too deeply once they are written again.
-/

namespace GraphCheckpoint.Store

open GraphCheckpoint.Encoding StoreAction

namespace FileStore

variable {settings : Settings} {graph : Graph Datum} {store : FileStore} {disk : Disk}

/-- A sound store that is read as the graph. -/
structure Holds (settings : Settings) (graph : Graph Datum) (store : FileStore) (disk : Disk) :
    Prop where
  sameSettings : store.settings = settings
  sound : ∃ snapshot? payloads, store.Sound disk snapshot? payloads
  folds : store.fold disk = .ok graph

namespace Holds

theorem running (holds : Holds settings graph store disk) : store.running = true := by
  obtain ⟨snapshot?, payloads, sound⟩ := holds.sound
  exact sound.running

theorem decoded (holds : Holds settings graph store disk) : settings.Decoded graph :=
  holds.sameSettings ▸ decoded_fold holds.folds

theorem load (holds : Holds settings graph store disk) {σ : Type} (lookup : Lookup σ) :
    store.load disk lookup = settings.resolveGraph lookup graph := by
  rw [load_of_fold holds.running holds.folds, holds.sameSettings]

end Holds

/-- The bytes of a snapshot of the graph. -/
def snapshotBytes (settings : Settings) (now : Int64) (graph : Graph Datum) : Bytes :=
  settings.encodeDocument (Settings.checkpointOf now graph)

/-- The journal is folded: this ends, or the process dies behind some of the steps on the disk and the
store is opened again. -/
inductive Folding : FileStore × Disk → FileStore × Disk → Prop where
  | ended {store : FileStore} {disk : Disk} (now : Int64) :
      Folding (store, disk) (compact now (store, disk)).2
  | died {store opened : FileStore} {disk left found : Disk} {graph : Graph Datum} {now : Int64}
      {count : Nat} {nowMs : Int} {options : StoreOptions} (folds : store.fold disk = .ok graph)
      (steps : disk.steps
        ((store.replacing (snapshotBytes store.settings now graph)).take count) = .ok left)
      (sameSettings : options.settings = store.settings)
      (opens : openStore nowMs store.directory options left = (.ok opened, found)) :
      Folding (store, disk) (opened, found)

/-! ## One folding -/

/-- A store that can be read can be folded. -/
theorem Holds.compact_run (holds : Holds settings graph store disk) (now : Int64) :
    ∃ after changed,
      compact now (store, disk) = (.ok (), after, changed) ∧
        disk.steps (store.replacing (snapshotBytes settings now graph)) = .ok changed ∧
        after.settings = settings ∧
        after.Sound changed (some (snapshotBytes settings now graph)) [] := by
  obtain ⟨snapshot?, payloads, sound⟩ := holds.sound
  obtain ⟨journal, placed, changed, replaces, writes, ran, -, changedSound⟩ :=
    sound.replaceContents (snapshotBytes settings now graph)
  refine ⟨{ store with journal := journal }, changed, ?_, (steps_replacing replaces writes).2,
    holds.sameSettings, changedSound⟩
  rw [compact_of_fold holds.folds, holds.sameSettings]
  exact ran

theorem Holds.running_of_compact (holds : Holds settings graph store disk) {now : Int64}
    {after : FileStore} {changed : Disk}
    (ran : compact now (store, disk) = (.ok (), after, changed)) : after.running = true := by
  obtain ⟨other, otherDisk, otherRan, -, -, sound⟩ := holds.compact_run now
  cases ran.symm.trans otherRan
  exact sound.running

/-- The new snapshot is read as the graph, also where the old journal is still behind it. -/
private theorem holds_behind_snapshot (decoded : settings.Decoded graph)
    (few : settings.format = .messagePack → Document.Few graph) (keeps : settings.KeepsGraph graph)
    {now : Int64} {payloads : List Bytes} {documents : List Document}
    (areDocuments : payloads.mapM settings.decodeDocument = .ok documents)
    (unchanging : graph.applyDocuments documents = graph) (keyed : graph.Keyed)
    (sameSettings : store.settings = settings)
    (sound : store.Sound disk (some (snapshotBytes settings now graph)) payloads) :
    Holds settings graph store disk := by
  refine ⟨sameSettings, ⟨_, _, sound⟩, ?_⟩
  have snapshotRead : (some (snapshotBytes settings now graph)).toList.mapM
      store.settings.decodeDocument = .ok [Settings.checkpointOf now graph] := by
    rw [sameSettings, Option.toList_some, List.mapM_cons, snapshotBytes,
      decoded.decodeDocument_checkpointOf few keeps now]
    rfl
  have described : Graph.empty.applyDocuments [Settings.checkpointOf now graph] = graph :=
    Graph.apply_ofGraph keyed
  rw [sound.fold snapshotRead (sameSettings ▸ areDocuments), described, unchanging]

/-- Where the checkpoint of the graph is read as it was written, a folding keeps what is held. -/
theorem Folding.holds {before after : FileStore × Disk} (folding : Folding before after)
    (few : settings.format = .messagePack → Document.Few graph) (keeps : settings.KeepsGraph graph)
    (holds : Holds settings graph before.1 before.2) : Holds settings graph after.1 after.2 := by
  have keyed := keyed_fold holds.folds
  cases folding with
  | ended now =>
      obtain ⟨compacted, compactedDisk, ran, -, sameSettings, sound⟩ := holds.compact_run now
      rw [ran]
      exact holds_behind_snapshot holds.decoded few keeps rfl rfl keyed sameSettings sound
  | @died store opened disk left found other now count nowMs options folds steps sameOptions opens =>
      cases folds.symm.trans holds.folds
      obtain ⟨snapshot?, payloads, sound⟩ := holds.sound
      rw [holds.sameSettings] at steps sameOptions
      obtain ⟨leftToo, openedToo, stepsToo, opensToo, there, hasOptions, openedSound⟩ :=
        sound.openStore_replacing (snapshotBytes settings now graph) options nowMs count
      cases steps.symm.trans stepsToo
      cases opens.symm.trans opensToo
      have sameSettings : opened.settings = settings := by
        rw [FileStore.settings, hasOptions]
        exact sameOptions
      obtain ⟨snapshot, others, documents, hasSnapshot, hasPayloads, areDocuments, isGraph⟩ :=
        fold_eq_ok holds.folds
      cases hasPayloads.symm.trans sound.readPayloads
      rw [holds.sameSettings] at areDocuments
      rcases count with - | - | count
      · cases steps
        have sameSnapshot : disk.read opened.snapshotPath = disk.read store.snapshotPath := by
          rw [snapshotPath, there, ← snapshotPath]
        refine ⟨sameSettings, ⟨_, _, openedSound⟩, ?_⟩
        exact (fold_congr (sameSettings.trans holds.sameSettings.symm) sameSnapshot
          (openedSound.readPayloads.trans sound.readPayloads.symm)).trans holds.folds
      · -- the old journal is folded once more, over what it was folded into
        have again : graph.applyDocuments documents = graph := by
          rw [isGraph]
          exact Graph.applyDocuments_again (Graph.keyed_empty.applyDocuments snapshot) documents
        exact holds_behind_snapshot holds.decoded few keeps areDocuments again keyed sameSettings
          openedSound
      · exact holds_behind_snapshot holds.decoded few keeps rfl rfl keyed sameSettings openedSound

/-! ## Any number of foldings -/

theorem holds_of_foldings {before after : FileStore × Disk}
    (foldings : Relation.ReflTransGen Folding before after)
    (few : settings.format = .messagePack → Document.Few graph) (keeps : settings.KeepsGraph graph)
    (holds : Holds settings graph before.1 before.2) : Holds settings graph after.1 after.2 := by
  induction foldings with
  | refl => exact holds
  | tail _ folding inductionHypothesis => exact folding.holds few keeps inductionHypothesis

/-- The journal can be folded into a snapshot of the graph, and wherever this dies the store can be
opened again. -/
structure CanFold (store : FileStore) (disk : Disk) (graph : Graph Datum) : Prop where
  ends : ∀ now, ∃ after changed,
    compact now (store, disk) = (.ok (), after, changed) ∧
      disk.steps (store.replacing (snapshotBytes store.settings now graph)) = .ok changed
  opens : ∀ now count nowMs options, ∃ left opened,
    disk.steps ((store.replacing (snapshotBytes store.settings now graph)).take count) = .ok left ∧
      openStore nowMs store.directory options left = (.ok opened, left)

theorem Holds.canFold (holds : Holds settings graph store disk) : store.CanFold disk graph := by
  have sameSettings := holds.sameSettings
  constructor
  · intro now
    obtain ⟨after, changed, ran, steps, -, -⟩ := holds.compact_run now
    rw [sameSettings]
    exact ⟨after, changed, ran, steps⟩
  · intro now count nowMs options
    obtain ⟨snapshot?, payloads, sound⟩ := holds.sound
    obtain ⟨left, opened, steps, opens, -⟩ := sound.openStore_replacing
      (snapshotBytes store.settings now graph) options nowMs count
    exact ⟨left, opened, steps, opens⟩

/-- The new snapshot can be read exactly where the checkpoint of the graph is read again. -/
theorem Holds.exists_fold_iff (holds : Holds settings graph store disk)
    (few : settings.format = .messagePack → Document.Few graph) {now : Int64} {after : FileStore}
    {changed : Disk} (ran : compact now (store, disk) = (.ok (), after, changed)) :
    (∃ result, after.fold changed = .ok result) ↔ settings.ReadsGraph graph := by
  obtain ⟨afterToo, changedToo, ranToo, -, sameSettings, sound⟩ := holds.compact_run now
  cases ran.symm.trans ranToo
  rw [← holds.decoded.exists_decodeDocument_checkpointOf_iff few now, sound.fold_eq, sameSettings,
    snapshotBytes, Option.toList_some, List.mapM_cons, List.mapM_nil]
  generalize settings.decodeDocument _ = outcome
  cases outcome <;> simp [bind, Except.bind, pure, Except.pure]

/-- Folding the journal of a store that can be read never fails. Where the checkpoint of what the
store holds is read as it was written, the store loads the same ever after, however many foldings end
or die. In JSON this is so for all contents without floats; in MessagePack it is so unless a record
nests too deeply once it is written again, and then nothing is loaded any more after the first folding.
Folding documents again changes nothing. -/
theorem load_after_foldings (reachable : store.Reachable disk) (running : store.running = true)
    (undamaged : store.journal.damage = none) (folds : store.fold disk = .ok graph)
    (few : store.settings.format = .messagePack → Document.Few graph) :
    store.CanFold disk graph ∧
      (store.settings.KeepsGraph graph → ∀ after changed,
        Relation.ReflTransGen Folding (store, disk) (after, changed) →
          after.CanFold changed graph ∧
            ∀ {σ : Type} (lookup : Lookup σ), after.load changed lookup = store.load disk lookup) ∧
      (¬ store.settings.ReadsGraph graph → ∀ now after changed,
        compact now (store, disk) = (.ok (), after, changed) →
          ∀ {σ : Type} (lookup : Lookup σ) (state : σ),
            ∃ failure, (after.load changed lookup).run state = .error failure) ∧
      (store.settings.format = .json → graph.Regular False → store.settings.KeepsGraph graph) ∧
      (store.settings.format = .messagePack →
        (store.settings.KeepsGraph graph ↔
          Document.LegibleRecords (store.settings.format.nesting - 2) (Delta.ofGraph graph)) ∧
        (store.settings.ReadsGraph graph ↔ store.settings.KeepsGraph graph)) ∧
      ∀ documents, (graph.applyDocuments documents).applyDocuments documents =
        graph.applyDocuments documents := by
  have holds : Holds store.settings graph store disk :=
    ⟨rfl, reachable.consistent.sound_of_fold running undamaged folds, folds⟩
  refine ⟨holds.canFold, fun keeps after changed foldings => ?_, fun unreadable now after changed ran
    σ lookup state => ?_, fun isFormat => holds.decoded.keepsGraph_of_json isFormat, fun isFormat =>
    ⟨Settings.keepsGraph_iff_of_messagePack isFormat,
      Settings.readsGraph_iff_of_messagePack isFormat⟩,
    Graph.applyDocuments_again (keyed_fold folds)⟩
  · have afterHolds : Holds store.settings graph after changed :=
      holds_of_foldings foldings few keeps holds
    refine ⟨afterHolds.canFold, fun lookup => ?_⟩
    rw [afterHolds.load, holds.load]
  · have afterRunning := holds.running_of_compact ran
    cases found : after.fold changed with
    | ok result => exact absurd ((holds.exists_fold_iff few ran).mp ⟨result, found⟩) unreadable
    | error failure => exact ⟨failure, load_of_fold_error afterRunning found lookup state⟩

/-! ## A graph that cannot be written again -/

section Packed

/-- A list in lists as MessagePack may have it. The empty one is written as an empty byte string, so
that one container less nests in it than once it is written again. -/
private def packedList : Nat → Node
  | 0 => .list [.ofInt 5, .bytes []]
  | depth + 1 => .list [.ofInt 5, .list [packedList depth]]

private def nestedList : Nat → Datum
  | 0 => .list []
  | depth + 1 => .list [nestedList depth]

private theorem limit_succ (depth : Nat) : 2 * (depth + 1) + 1 = 2 * depth + 1 + 2 := by omega

private theorem readValue_packedList (depth : Nat) :
    Document.readValue (2 * depth + 1) (.encoded .messagePack) (packedList depth) =
      some (nestedList depth) := by
  induction depth with
  | zero => rfl
  | succ depth inductionHypothesis =>
      have isIndex : nameIndex? (.encoded .messagePack) Document.valueTypes (.ofInt 5) =
          some (some 5) := rfl
      rw [limit_succ, packedList, nestedList, Document.readValue_pair]
      simp [Document.readPair, isIndex, Document.readContent, Document.readInside, readList,
        inductionHypothesis]

private theorem exact_packedList (depth : Nat) : (packedList depth).Exact := by
  induction depth with
  | zero => simp [packedList, Node.Exact, Node.ExactItems, Node.ofInt, Node.lengthBound]
  | succ depth inductionHypothesis =>
      simp [packedList, Node.Exact, Node.ExactItems, Node.ofInt, Node.lengthBound,
        inductionHypothesis]

private theorem legible_packedList (depth : Nat) :
    (packedList depth).legible (2 * depth + 1) = true := by
  induction depth with
  | zero => rfl
  | succ depth inductionHypothesis =>
      rw [limit_succ, packedList]
      simp [Node.legible, Node.legibleItems, inductionHypothesis, Node.ofInt]

private theorem not_legible_nestedList (depth : Nat) :
    (Document.datumNode (nestedList depth)).legible (2 * depth + 1) = false := by
  induction depth with
  | zero => rfl
  | succ depth inductionHypothesis =>
      rw [limit_succ, nestedList]
      simp [Document.datumNode, Document.datumNodes, Document.tagged, Node.legible,
        Node.legibleItems, Node.legibleEntries, Node.record, inductionHypothesis]

/-- A checkpoint of one policy with one flag. -/
private def flagTree (node : Node) : Node :=
  .list [.ofInt 1, .text "checkpoint", .ofInt 0, .list [], .list [],
    .list [.list [.list [.text "p", .text "T"], .map [(.text "k", node)]]]]

private def flagPolicy (value : Datum) : PolicyMemento Datum :=
  { common := ⟨"p", "T", none, [], [], []⟩, flags := [("k", value)] }

private def flagGraph (value : Datum) : Graph Datum := ⟨[], [], [("p", flagPolicy value)]⟩

private theorem ofNode?_flagTree {limit : Nat} {node : Node} {value : Datum}
    (isRead : Document.readValue limit (.encoded .messagePack) node = some value) :
    Document.ofNode? .messagePack (limit + 4) (flagTree node) =
      some (Settings.checkpointOf 0 (flagGraph value)) := by
  simp [Document.ofNode?, flagTree, readFields, Document.fieldNames, required, orElse, readInteger,
    Document.readKind, readChoice, readInt64, readList, Document.readPolicy, Document.readCommon,
    readTable, Document.readDatum, isRead, Node.ofInt, readText, nullable, Table.ofEntries]
  rfl

private theorem exact_flagTree {node : Node} (isExact : node.Exact) : (flagTree node).Exact := by
  have shortText : ∀ content ∈ ["checkpoint", "p", "T", "k"],
      (bytesOfText content).length < Node.lengthBound := by decide +kernel
  simp only [List.forall_mem_cons] at shortText
  simp [flagTree, Node.Exact, Node.ExactItems, Node.ExactEntries, Node.ofInt, shortText, isExact]
  decide

private theorem legible_flagTree {node : Node} {limit : Nat} (legible : node.legible limit = true) :
    (flagTree node).legible (limit + 4) = true := by
  simp [flagTree, Node.legible, Node.legibleItems, Node.legibleEntries, Node.ofInt, legible]

private theorem legible_of_flagPolicy {value : Datum} {limit : Nat}
    (legible : (Document.policyNode (flagPolicy value)).legible (limit + 2) = true) :
    (Document.datumNode value).legible limit = true := by
  simp only [Document.policyNode, flagPolicy, Document.tableNode, Document.datumEntries, Node.record,
    List.map_cons, List.map_nil, Node.legible, Node.legibleEntries, Bool.and_true, Bool.and_eq_true,
    Bool.true_and] at legible
  exact legible.2

private def packedOptions : StoreOptions := ⟨.sync, 0, ⟨.messagePack, .empty⟩⟩

/-- 1019 containers may nest in a flag. -/
private def packedSnapshot : Bytes := MessagePack.print (flagTree (packedList 509))

private def packedGraph : Graph Datum := flagGraph (nestedList 509)

private theorem decodeDocument_packedSnapshot :
    packedOptions.settings.decodeDocument packedSnapshot =
      .ok (Settings.checkpointOf 0 packedGraph) := by
  have isRead : Document.ofNode? .messagePack 1023 (flagTree (packedList 509)) =
      some (Settings.checkpointOf 0 packedGraph) :=
    @ofNode?_flagTree 1019 _ _ (readValue_packedList 509)
  have parsed : MessagePack.parse packedSnapshot = some (flagTree (packedList 509)) := by
    rw [packedSnapshot, MessagePack.parse_print (exact_flagTree (exact_packedList 509))]
    exact if_pos (Node.legible_succ _ 1023 (legible_flagTree (legible_packedList 509)))
  refine Settings.decodeDocument_eq (Nat.le_refl _) ((Settings.readBytes_eq_ok_iff _).mpr ?_)
  change (MessagePack.parse packedSnapshot).bind (Document.ofNode? .messagePack 1023) = _
  rw [parsed, Option.bind_some, isRead]

private theorem not_keepsGraph_packedGraph : ¬ packedOptions.settings.KeepsGraph packedGraph := by
  intro keeps
  have records := (Settings.keepsGraph_iff_of_messagePack rfl).mp keeps
  have legible := legible_of_flagPolicy
    (records.policies (flagPolicy (nestedList 509)) (List.mem_singleton.mpr rfl))
  rw [not_legible_nestedList 509] at legible
  cases legible

/-- A store is opened in a directory with the snapshot and an empty journal. -/
private theorem exists_packedStore :
    ∃ store disk, openStore 0 "d" packedOptions disk = (.ok store, disk) ∧ disk.WellFormed ∧
      store.settings = packedOptions.settings ∧ store.Sound disk (some packedSnapshot) [] := by
  obtain ⟨empty, emptyDisk, opens, isDirectory, -, sound⟩ :=
    sound_openStore_empty packedOptions 0 isEmptyDirectory_empty
  obtain ⟨disk, placed, diskSound⟩ := sound.replaceSnapshot packedSnapshot
  obtain ⟨store, opensAgain, -, hasOptions, storeSound⟩ := diskSound.openStore packedOptions 0
  have wellFormed : emptyDisk.WellFormed :=
    (openStore_continues Disk.wellFormed_empty opens).1
  rw [isDirectory] at opensAgain
  exact ⟨store, disk, opensAgain, (Disk.Evolves.step placed).wellFormed wellFormed,
    congrArg StoreOptions.settings hasOptions, storeSound⟩

/-- The snapshot is read, and the folding ends. What it has written is not read any more. -/
theorem load_after_foldings_packed :
    ∃ store disk after changed,
      openStore 0 "d" packedOptions disk = (.ok store, disk) ∧
        disk.read store.snapshotPath = .ok packedSnapshot ∧
        store.fold disk = .ok packedGraph ∧
        compact 0 (store, disk) = (.ok (), after, changed) ∧
        ∀ {σ : Type} (lookup : Lookup σ) (state : σ),
          ∃ failure, (after.load changed lookup).run state = .error failure := by
  obtain ⟨store, disk, opens, wellFormed, sameSettings, sound⟩ := exists_packedStore
  have snapshotRead : (some packedSnapshot).toList.mapM store.settings.decodeDocument =
      .ok [Settings.checkpointOf 0 packedGraph] := by
    rw [sameSettings, Option.toList_some, List.mapM_cons, decodeDocument_packedSnapshot]
    rfl
  have folds : store.fold disk = .ok packedGraph := sound.fold snapshotRead rfl
  have undamaged : store.journal.damage = none := by
    obtain ⟨number, journal, -⟩ := sound.files
    exact journal.undamaged
  have hasSnapshot : disk.read store.snapshotPath = .ok packedSnapshot := by
    obtain ⟨number, -, file, isFile, -, -, holds⟩ := sound.files
    rw [Disk.read_of_get? isFile, holds]
  have few : Document.Few packedGraph := by constructor <;> decide
  have isFormat : store.settings.format = .messagePack := by rw [sameSettings]; rfl
  obtain ⟨canFold, -, unread, -, inMessagePack, -⟩ := load_after_foldings
    (Reachable.opened wellFormed opens) sound.running undamaged folds fun _ => few
  have unreadable : ¬ store.settings.ReadsGraph packedGraph := by
    rw [(inMessagePack isFormat).2, sameSettings]
    exact not_keepsGraph_packedGraph
  obtain ⟨after, changed, ran, -⟩ := canFold.ends 0
  exact ⟨store, disk, after, changed, opens, hasSnapshot, folds, ran,
    unread unreadable 0 after changed ran⟩

end Packed

end FileStore

end GraphCheckpoint.Store
