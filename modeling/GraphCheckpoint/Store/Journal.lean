import GraphCheckpoint.Configuration
import GraphCheckpoint.Failure
import GraphCheckpoint.Store.Disk
import GraphCheckpoint.Store.Frame

/-!
Contract: the journal file of a store.

Owns:
- opening: the count of frames, the tail that is set aside, the damage that is left as found;
- appending, reading back and emptying.

Does not own: what the frames hold, or the snapshot.

A damaged journal takes no appends and gives no frames until it has been emptied.
-/

namespace GraphCheckpoint.Store

open GraphCheckpoint.Encoding

/-- A journal as its store knows it. -/
structure Journal where
  path : String
  /-- The file to which appends go, while it is open. -/
  openFile : Option Nat
  /-- The number of frames since the last snapshot. -/
  frames : Nat
  /-- Why the journal cannot be read. -/
  damage : Option String
  /-- The file that holds an unfinished frame found at opening. -/
  setAside : Option String
deriving DecidableEq, Repr, Inhabited

/-- An operation on a store's part of type `S` and the disk; both keep what was done before a
failure. -/
abbrev StoreAction (S α : Type) := ExceptT Failure (StateM (S × Disk)) α

namespace StoreAction

variable {S : Type}

def part : StoreAction S S := do return (← get).1

def disk : StoreAction S Disk := do return (← get).2

def setPart (part : S) : StoreAction S Unit := modify fun (_, disk) => (part, disk)

def setDisk (disk : Disk) : StoreAction S Unit := modify fun (part, _) => (part, disk)

/-- Gives the result of a file operation; a refusal becomes a failure under a label. -/
def onDisk {α : Type} (label : String) : Except DiskFault α → StoreAction S α
  | .ok result => return result
  | .error fault => throw (.io (label ++ ": " ++ fault.reason))

/-- Does one step on the disk, under a label. -/
def step (label : String) (step : DiskStep) : StoreAction S Unit := do
  setDisk (← onDisk label ((← disk).step step))

end StoreAction

namespace Journal

open StoreAction

def blank (path : String) : Journal := ⟨path, none, 0, none, none⟩

/-- The bytes of the journal file; none are there before it has been made. -/
def readBytes (disk : Disk) (path : String) : Outcome Bytes :=
  match disk.read path with
  | .ok bytes => .ok bytes
  | .error .missing => .ok []
  | .error fault => .error (.io ("read journal: " ++ fault.reason))

/-- Path of the file that takes an unfinished frame. -/
def sidePath (path : String) (nowMs : Int) : String := path ++ "." ++ toString nowMs ++ ".tail"

/-- Moves an unfinished frame to a side file and cuts it off the journal. -/
def setTailAside (nowMs : Int) (bytes : Bytes) (wholeLength : Nat) : StoreAction Journal Unit := do
  let journal ← part
  let side := sidePath journal.path nowMs
  step "set aside torn journal tail" (.write side (bytes.drop wholeLength))
  step "open journal" (.cut journal.path wholeLength)
  setPart { journal with setAside := some side }

/-- Opens the journal file for appending. -/
def openFileOf (label : String) : StoreAction Journal Unit := do
  let journal ← part
  let (number, disk) ← onDisk label ((← disk).openForAppend journal.path)
  setDisk disk
  setPart { journal with openFile := some number }

/-- Opens a journal: counts its frames, sets an unfinished one aside, leaves a damaged journal as it
is found. -/
def openAt (nowMs : Int) : StoreAction Journal Unit := do
  let journal ← part
  let bytes ← MonadExcept.ofExcept (readBytes (← disk) journal.path)
  let scan := scanFrames bytes
  setPart { journal with frames := scan.payloads.length }
  match scan.tail with
  | .corrupt reason => setPart { (← part) with damage := some reason }
  | .torn =>
      setTailAside nowMs bytes scan.wholeLength
      openFileOf ("open journal " ++ journal.path)
  | .clean => openFileOf ("open journal " ++ journal.path)

/-- Adds a frame. -/
def append (payload : Bytes) : StoreAction Journal Unit := do
  let journal ← part
  match journal.damage with
  | some reason => throw (.storage ("journal is corrupt, refusing to append: " ++ reason))
  | none =>
      if 0x100000000 ≤ payload.length then
        throw (.storage
          ("journal frame of " ++ toString payload.length ++ " bytes is too large"))
      match journal.openFile with
      | none => throw (.invalidState "journal is closed")
      | some number =>
          step "write journal" (.append number (frame payload))
          setPart { journal with frames := journal.frames + 1 }

/-- The payloads of all whole frames in the journal file. -/
def readPayloads (journal : Journal) (disk : Disk) : Outcome (List Bytes) :=
  match journal.damage with
  | some reason => .error (.encoding ("corrupt journal: " ++ reason))
  | none => do
      let scan := scanFrames (← readBytes disk journal.path)
      match scan.tail with
      | .corrupt reason => .error (.encoding ("corrupt journal: " ++ reason))
      | .clean | .torn => return scan.payloads

/-- Empties the journal and opens it again; damage is gone then. -/
def clear : StoreAction Journal Unit := do
  modify fun (journal, disk) => ({ journal with openFile := none }, disk)
  let journal ← part
  step "truncate journal" (.write journal.path [])
  openFileOf "reopen journal"
  setPart { (← part) with frames := 0, damage := none }

end Journal

end GraphCheckpoint.Store
