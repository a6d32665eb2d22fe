import GraphCheckpoint.Tool.Run
import Std.Time.DateTime.Timestamp

/-!
Contract: the store tool as a program.

Owns: reading the files that a run may look at, writing back the files that it has changed, and
printing.

Does not own: what a run does, which is a function of these files.

A new snapshot is put in place as a whole, before the journal behind it is written.
-/

namespace GraphCheckpoint.Tool

open GraphCheckpoint.Encoding GraphCheckpoint.Store

/-- What is found at a path. -/
inductive Found where
  | nothing
  | directory
  | file (bytes : Bytes)

/-- Looks at a path. -/
def lookAt (path : String) : IO Found := do
  try
    return .file (← IO.FS.readBinFile path).toList
  catch error =>
    match error with
    | .inappropriateType .. => return .directory
    | _ => return .nothing

/-- The disk with what is found at some paths. -/
def diskOf (paths : List String) : IO Disk := do
  let mut directories := #[]
  let mut files := #[]
  for path in paths do
    match ← lookAt path with
    | .nothing => pure ()
    | .directory => directories := directories.push path
    | .file bytes => files := files.push (path, bytes)
  return .ofFiles directories.toList files.toList

/-- The paths that a run may look at. -/
def pathsOf : Request → List String
  | .explain _ => []
  | .perform arguments =>
      (arguments.config.toList ++ [arguments.directory]).flatMap Disk.pathsAlong ++
        [FileStore.pathIn arguments.directory FileStore.journalName,
          FileStore.pathIn arguments.directory FileStore.snapshotName]

/-- Writes a file in one move. -/
def putInPlace (path : String) (bytes : Bytes) : IO Unit := do
  let draft := path ++ ".tmp"
  IO.FS.writeBinFile draft ⟨bytes.toArray⟩
  IO.FS.rename draft path

/-- Writes back the files that have changed, all others before the journal. -/
def writeBack (before after : Disk) : IO Unit := do
  let changed := after.entries.filterMap fun (path, _) =>
    match after.read path with
    | .ok bytes =>
        if (before.read path).toOption = some bytes then none else some (path, bytes)
    | .error _ => none
  let (journals, others) := changed.partition fun (path, _) => path.endsWith FileStore.journalName
  for (path, bytes) in others ++ journals do putInPlace path bytes

/-- Runs a command line on the files that it names. -/
def runOnFiles (arguments : List String) : IO RunReport := do
  let paths := ((Request.parse? arguments).map pathsOf).getD []
  let disk ← diskOf paths
  let now := (← Std.Time.Timestamp.now).toMillisecondsSinceUnixEpoch.val
  let report := run now arguments disk
  writeBack disk report.disk
  return report

end GraphCheckpoint.Tool

/-- The store tool. -/
def main (arguments : List String) : IO UInt32 := do
  let report ← GraphCheckpoint.Tool.runOnFiles arguments
  for line in report.printed do IO.println line
  for line in report.errorLines do IO.eprintln line
  return report.exitCode.toUInt32
