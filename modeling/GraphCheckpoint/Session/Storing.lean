import GraphCheckpoint.Session.Objects

/-!
Contract: stores and their files in a session.

Owns:
- opening, closing and using stores by name;
- look-ups for loads and decodings, with the objects that they lead to;
- changing the files of a store behind its back.

Does not own: what stores do.
-/

namespace GraphCheckpoint.Session

open GraphCheckpoint.Store GraphCheckpoint.Encoding

/-! ## Stores -/

/-- What sort of store is opened. -/
inductive StoreKind where
  | memory (settings : Settings)
  | file (directory : String) (options : StoreOptions)
  | recording

def storeNamed (name : String) : Step StoreRef := named "store" Session.storeNames name

def storeAt (store : StoreRef) : Step AnyStore := do
  match (← get).stores[store.index]? with
  | some found => return found
  | none => misuse "a store that is gone"

def setStore (which : StoreRef) (store : AnyStore) : Step Unit :=
  modify fun session => { session with stores := session.stores.setIfInBounds which.index store }

/-- A new store of a sort. -/
def newStore : StoreKind → Step AnyStore
  | .memory settings => return .memory (.make settings)
  | .recording => return .recording .make
  | .file directory options => do
      let session ← get
      let (opened, disk) := FileStore.openStore session.clock directory options session.disk
      set { session with disk := disk, clock := session.clock + 1 }
      return .file (← orRefuse opened)

/-- Takes a store's name away; tells whether it was there. -/
def closeStore (name : String) : Step Bool := do
  let known := (← get).storeNames.contains name
  modify fun session => { session with storeNames := session.storeNames.erase name }
  return known

/-- Opens a store under a name, from which an earlier store is closed first. -/
def openStore (name : String) (kind : StoreKind) : Step Unit := do
  discard (closeStore name)
  let store ← newStore kind
  modify fun session =>
    { session with
      stores := session.stores.push store
      storeNames := session.storeNames.insert name ⟨session.stores.size⟩ }

/-- Runs an operation of a file store, which keeps what it did before a failure. -/
def onFile (which : StoreRef) (store : FileStore) (action : StoreAction FileStore Unit) :
    Step (Outcome Unit) := do
  let session ← get
  let (result, store, disk) := action.run.run (store, session.disk)
  set { session with disk := disk }
  setStore which (.file store)
  return result

/-- Takes the outcome of an operation that gives a new store. -/
def keepStore {S : Type} (which : StoreRef) (wrap : S → AnyStore) : Outcome S → Step (Outcome Unit)
  | .ok store => do
      setStore which (wrap store)
      return .ok ()
  | .error failure => return .error failure

/-- Puts a whole graph into a store. -/
def checkpointStore (which : StoreRef) (graph : Graph LiveValue) : Step (Outcome Unit) := do
  let cells := (← heapOf).cells
  match ← storeAt which with
  | .memory store => keepStore which .memory (store.checkpoint cells graph)
  | .file store => onFile which store (FileStore.checkpoint cells stamp graph)
  | .recording store => keepStore which .recording (.ok (store.checkpoint graph))

/-- Folds the journal of a file store. -/
def compactStore (which : StoreRef) : Step (Outcome Unit) := do
  match ← storeAt which with
  | .file store => onFile which store (FileStore.compact stamp)
  | _ => misuse "not a file store"

/-- Ends the use of a store. -/
def stopStore (which : StoreRef) : Step Unit := do
  match ← storeAt which with
  | .memory store => setStore which (.memory store.stop)
  | .file store => setStore which (.file store.stop)
  | .recording _ => pure ()

/-- Ids of all that a store holds, by kind. -/
def idsIn (which : StoreRef) : Step (List String × List String × List String) := do
  match ← storeAt which with
  | .memory store => return store.storedIds
  | .file store => orRefuse (store.storedIds (← get).disk)
  | .recording store => return store.graph.ids

/-- The bytes that a file store has set aside when it was opened. -/
def tailOf (store : FileStore) : Step (Option Bytes) := do
  let disk := (← get).disk
  return store.journal.setAside.bind fun path => (disk.read path).toOption

/-- Takes the deltas and the log of a recording store. -/
def takeRecorded (name : String) : Step (List RecordedDelta × List (Outcome Nat)) := do
  let which ← storeNamed name
  match ← storeAt which with
  | .recording store =>
      setStore which (.recording store.forget)
      return (store.deltas, store.log)
  | _ => misuse "not a recording store"

def setReactions (name : String) (reactions : Reactions) : Step Unit := do
  let which ← storeNamed name
  match ← storeAt which with
  | .recording store => setStore which (.recording { store with reactions := reactions })
  | _ => misuse "not a recording store"

/-! ## Look-ups -/

/-- An entry of a fixed look-up: a placeholder, or a reference to a fresh object. -/
structure LookupEntry where
  id : String
  typeName : Option String
  live : Bool

/-- How the references of what is read are resolved. -/
inductive LookupChoice where
  | fixed (entities locations : List LookupEntry)
  | placeholders

/-- The reference of an entry. -/
def entryReference (kind : ObjectKind) (entry : LookupEntry) : Step Handle := do
  if entry.live then
    let object := LiveObject.blank kind entry.id (entry.typeName.getD "")
    let address ← onHeap (Heap.create object)
    onHeap (Heap.referenceTo address object)
  else makePlaceholder entry.id entry.typeName

/-- Something read, with the ids that placeholders were made for. -/
structure Resolved (α : Type) where
  content : α
  entityIds : List String
  locationIds : List String

/-- Reads something with its references resolved as chosen. -/
def resolving {α : Type} (choice : LookupChoice)
    (read : (σ : Type) → Lookup σ → StateT σ Outcome α) : Step (Resolved α) := do
  match choice with
  | .fixed entities locations =>
      let entities ← entities.mapM (entryReference .entity)
      let locations ← locations.mapM (entryReference .location)
      let lookup := StaticLookup.ofHandles entities locations
      let (content, _) ← orRefuse ((read Unit lookup.resolver).run ())
      return ⟨content, [], []⟩
  | .placeholders =>
      let start := PlaceholderLookup.start (← heapOf).slots
      let (content, found) ←
        orRefuse ((read PlaceholderLookup PlaceholderLookup.resolver).run start)
      mapHeap fun heap => { heap with slots := found.slots }
      return ⟨content, found.entities.keys, found.locations.keys⟩

/-! ## Files -/

/-- A file of a store. -/
inductive StoreFile where
  | journal
  | snapshot
deriving DecidableEq

/-- What is done to a file. Positions below zero count from its end. -/
inductive FileChange where
  | put (bytes : Bytes)
  | append (bytes : Bytes)
  | truncate (length : Int)
  | patch (position : Int) (bytes : Bytes)
  | remove
  | makeDirectory

def storeFilePath (directory : String) : StoreFile → String
  | .journal => FileStore.pathIn directory FileStore.journalName
  | .snapshot => FileStore.pathIn directory FileStore.snapshotName

/-- The contents of a store's file. -/
def fileBytes (directory : String) (file : StoreFile) : Step (Option Bytes) := do
  return ((← get).disk.read (storeFilePath directory file)).toOption

/-- A position in a file of the given length. -/
def positionIn (length : Nat) (position : Int) : Nat :=
  if position < 0 then (position + length).toNat else position.toNat

/-- Bytes brought to a length, with zeros behind them where they are too few. -/
def ofLength (length : Nat) (bytes : Bytes) : Bytes :=
  bytes.take length ++ List.replicate (length - bytes.length) 0

/-- Bytes with some of them replaced from a position on. -/
def patched (position : Nat) (patch bytes : Bytes) : Bytes :=
  ofLength position bytes ++ patch ++ bytes.drop (position + patch.length)

/-- The disk after a change of a file. -/
def changed (path : String) (before : Bytes) (disk : Disk) : FileChange → Disk
  | .put bytes => written bytes
  | .append bytes => written (before ++ bytes)
  | .truncate length => written (ofLength (positionIn before.length length) before)
  | .patch position bytes => written (patched (positionIn before.length position) bytes before)
  | .remove => disk.remove path
  | .makeDirectory => ((disk.remove path).makeDirectories path).toOption.getD disk
where
  /-- The disk with the file's contents written anew. -/
  written (bytes : Bytes) : Disk := (disk.step (.write path bytes)).toOption.getD disk

/-- Changes a store's file, and gives its length. -/
def changeFile (directory : String) (file : StoreFile) (change : FileChange) : Step Nat := do
  let path := storeFilePath directory file
  let before := (← fileBytes directory file).getD []
  modify fun session =>
    let disk := (session.disk.makeDirectories directory).toOption.getD session.disk
    { session with disk := changed path before disk change }
  return ((← fileBytes directory file).getD []).length

end GraphCheckpoint.Session
