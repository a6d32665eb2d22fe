import GraphCheckpoint.Codec
import GraphCheckpoint.Store.Journal

/-!
Contract: a store in a directory, a snapshot with a journal of deltas behind it.

Owns:
- writing of deltas and checkpoints, and the folding of the journal into a new snapshot;
- loading of the graph that snapshot and journal describe;
- the order of file changes: the snapshot is in place before the journal is emptied.

Does not own: the frames of the journal, or the encoding of documents.

A stopped store passes over writes and refuses loads; listing its ids and folding it still work.
-/

namespace GraphCheckpoint.Store

open GraphCheckpoint.Encoding StoreAction

/-- A file store as its owner knows it. -/
structure FileStore where
  directory : String
  options : StoreOptions
  running : Bool
  journal : Journal
deriving DecidableEq, Repr, Inhabited

namespace FileStore

def journalName : String := "mementos.journal"

def snapshotName : String := "mementos.snapshot"

/-- Canonical path of a file in a directory. -/
def pathIn (directory name : String) : String :=
  Disk.canonicalPath (if directory = "" then name else directory ++ "/" ++ name)

def settings (store : FileStore) : Settings := store.options.settings

def snapshotPath (store : FileStore) : String := pathIn store.directory snapshotName

/-- A store that has not been opened yet. -/
def blank (directory : String) (options : StoreOptions) : FileStore :=
  ⟨directory, options, true, Journal.blank (pathIn directory journalName)⟩

/-- Runs an operation of the journal. -/
def onJournal {α : Type} (action : StoreAction Journal α) : StoreAction FileStore α :=
  fun (store, disk) =>
    let (result, journal, disk) := action (store.journal, disk)
    (result, { store with journal := journal }, disk)

/-- Makes the directory and opens the journal in it. -/
def openIn (nowMs : Int) : StoreAction FileStore Unit := do
  let store ← part
  setDisk (← onDisk ("create store directory " ++ store.directory)
    ((← disk).makeDirectories store.directory))
  onJournal (Journal.openAt nowMs)

/-- Opens or makes the store in a directory. -/
def openStore (nowMs : Int) (directory : String) (options : StoreOptions) (disk : Disk) :
    Outcome FileStore × Disk :=
  let (result, store, disk) := (openIn nowMs).run.run (blank directory options, disk)
  (result.map fun _ => store, disk)

/-! ## Reading -/

/-- The snapshot document, if there is one. -/
def readSnapshot (store : FileStore) (disk : Disk) : Outcome (List Document) :=
  match disk.read store.snapshotPath with
  | .ok bytes => do return [← store.settings.decodeDocument bytes]
  | .error .missing => .ok []
  | .error fault => .error (.io ("read snapshot: " ++ fault.reason))

/-- The graph that the snapshot and the journal describe. -/
def fold (store : FileStore) (disk : Disk) : Outcome (Graph Datum) := do
  let snapshot ← store.readSnapshot disk
  let payloads ← store.journal.readPayloads disk
  let documents ← payloads.mapM store.settings.decodeDocument
  return (Graph.empty.applyDocuments snapshot).applyDocuments documents

/-- Ids of all that is stored, by kind. -/
def storedIds (store : FileStore) (disk : Disk) :
    Outcome (List String × List String × List String) :=
  (store.fold disk).map Graph.ids

/-- Loads the graph, with references resolved by a look-up. -/
def load {σ : Type} (store : FileStore) (disk : Disk) (lookup : Lookup σ) :
    StateT σ Outcome (Graph LiveValue) := do
  if store.running then
    store.settings.resolveGraph lookup (← store.fold disk)
  else throw (.invalidState "file persister has been stopped")

/-! ## Writing -/

/-- Puts a new snapshot in place, then empties the journal. -/
def replaceContents (bytes : Bytes) : StoreAction FileStore Unit := do
  step "rename snapshot" (.replace (← part).snapshotPath bytes)
  onJournal Journal.clear

/-- Folds the journal into a new snapshot. -/
def compact (now : Int64) : StoreAction FileStore Unit := do
  let store ← part
  let folded ← MonadExcept.ofExcept (store.fold (← disk))
  replaceContents
    (store.settings.encodeDocument (.make .checkpoint now (Delta.ofGraph folded)))

/-- Adds a delta to the journal, and folds the journal once it has grown to the threshold. -/
def delta (cells : Cells) (now : Int64) (delta : Delta LiveValue) : StoreAction FileStore Unit := do
  let store ← part
  if store.running then
    let bytes ← MonadExcept.ofExcept (store.settings.encodeDelta cells now delta)
    onJournal (Journal.append bytes)
    let threshold := store.options.compactAfter.toNat
    if 0 < threshold ∧ threshold ≤ (← part).journal.frames then compact now

/-- Puts a whole graph in the place of all that is stored. -/
def checkpoint (cells : Cells) (now : Int64) (graph : Graph LiveValue) :
    StoreAction FileStore Unit := do
  let store ← part
  if store.running then
    let bytes ← MonadExcept.ofExcept (store.settings.encodeCheckpoint cells now graph)
    replaceContents bytes

/-- Ends the use of the store and closes its journal. -/
def stop (store : FileStore) : FileStore :=
  { store with running := false, journal := { store.journal with openFile := none } }

end FileStore

end GraphCheckpoint.Store
