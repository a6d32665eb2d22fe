import GraphCheckpoint.Encoding.Node
import GraphCheckpoint.Table

/-!
Contract: the files of a store as data.

Owns:
- `Disk`, the contents of files by number and the entries that name them;
- paths, and where they lead;
- the steps by which files change, each of which happens wholly or not at all;
- open files: a number keeps its contents when no entry names it any more.

Does not own: which files a store has.

A process that dies leaves the disk as it is between two steps, or with an append cut short.
-/

namespace GraphCheckpoint.Store

open GraphCheckpoint.Encoding

/-- What a path names. -/
inductive DiskEntry where
  | directory
  | file (number : Nat)
deriving DecidableEq, Repr

/-- Why a step is refused. -/
inductive DiskFault where
  | missing
  | isDirectory
  | notDirectory
  /-- A file stands where a directory is to be made. -/
  | fileExists
  | nameTooLong
deriving DecidableEq, Repr

namespace DiskFault

/-- The text that stands for a refusal in messages. -/
def reason : DiskFault → String
  | .missing => "No such file or directory (os error 2)"
  | .isDirectory => "Is a directory (os error 21)"
  | .notDirectory => "Not a directory (os error 20)"
  | .fileExists => "File exists (os error 17)"
  | .nameTooLong => "File name too long (os error 36)"

end DiskFault

/-- Contents of files by number, and the entries that name files and directories. -/
structure Disk where
  contents : Array Bytes
  entries : Table DiskEntry
deriving DecidableEq, Repr, Inhabited

/-- One change of the disk. -/
inductive DiskStep where
  /-- Puts a finished new file in the place of a path. -/
  | replace (path : String) (bytes : Bytes)
  /-- Writes a file anew, keeping its number if it has one. -/
  | write (path : String) (bytes : Bytes)
  /-- Cuts a file to a length. -/
  | cut (path : String) (length : Nat)
  /-- Adds bytes to the end of an open file. -/
  | append (number : Nat) (bytes : Bytes)
deriving DecidableEq, Repr

namespace Disk

def empty : Disk := ⟨#[], []⟩

/-- The contents of an open file. -/
def contentsOf (disk : Disk) (number : Nat) : Bytes := disk.contents.getD number []

/-- The number of a file. -/
def file? (disk : Disk) (path : String) : Except DiskFault Nat :=
  match disk.entries.get? path with
  | none => .error .missing
  | some .directory => .error .isDirectory
  | some (.file number) => .ok number

/-- The contents of a file. -/
def read (disk : Disk) (path : String) : Except DiskFault Bytes :=
  (disk.file? path).map disk.contentsOf

def isDirectory (disk : Disk) (path : String) : Bool :=
  disk.entries.get? path == some .directory

/-- Names a new file with the given contents. -/
def newFile (path : String) (bytes : Bytes) (disk : Disk) : Disk :=
  ⟨disk.contents.push bytes, disk.entries.insert path (.file disk.contents.size)⟩

/-- Changes the contents of an open file. -/
def setContents (number : Nat) (bytes : Bytes) (disk : Disk) : Disk :=
  { disk with contents := disk.contents.setIfInBounds number bytes }

/-- Does one step, or says why it cannot be done; a refused step changes nothing. -/
def step (disk : Disk) : DiskStep → Except DiskFault Disk
  | .replace path bytes =>
      if disk.isDirectory path then .error .isDirectory else .ok (disk.newFile path bytes)
  | .write path bytes =>
      match disk.file? path with
      | .ok number => .ok (disk.setContents number bytes)
      | .error .missing => .ok (disk.newFile path bytes)
      | .error fault => .error fault
  | .cut path length => do
      let number ← disk.file? path
      return disk.setContents number ((disk.contentsOf number).take length)
  | .append number bytes => .ok (disk.setContents number (disk.contentsOf number ++ bytes))

/-- Opens a file for appending, making it if there is none. -/
def openForAppend (path : String) (disk : Disk) : Except DiskFault (Nat × Disk) :=
  match disk.file? path with
  | .ok number => .ok (number, disk)
  | .error .missing => .ok (disk.contents.size, disk.newFile path [])
  | .error fault => .error fault

/-- Removes the entry of a file; an open file stays what it is. -/
def remove (path : String) (disk : Disk) : Disk :=
  { disk with entries := disk.entries.erase path }

/-! ## Paths -/

/-- The most bytes in a path. -/
def longestPath : Nat := 4095

/-- The most bytes in a name. -/
def longestName : Nat := 255

/-- The names of a path, which slashes part. -/
def namesIn (path : String) : List String := (path.toList.splitOn '/').map String.ofList

/-- Goes on along a path, whose names so far stand last one first. A step up undoes the name before
it. -/
def followName (reversed : List String) (name : String) : List String :=
  match name, reversed with
  | "", _ => reversed
  | ".", _ => reversed
  | "..", last :: before => if last = ".." then ".." :: reversed else before
  | _, _ => name :: reversed

/-- The directory that a path starts from: the topmost one, or the one where the process works. -/
def startOf (path : String) : String := if path.startsWith "/" then "/" else ""

/-- The path of names that stand last one first. -/
def spell (start : String) (reversed : List String) : String :=
  start ++ "/".intercalate reversed.reverse

/-- The one spelling of a path under which entries are kept. -/
def canonicalPath (path : String) : String :=
  spell (startOf path) ((namesIn path).foldl followName [])

/-- The last name of a path in canonical spelling. -/
def lastName (path : String) : String := ((namesIn path).getLast?).getD ""

/-- A path and all paths on the way to it, shortest first. -/
def pathsAlong (path : String) : List String :=
  let names := namesIn path
  (List.range names.length).map fun count => "/".intercalate (names.take (count + 1))

/-- What stands at names in canonical spelling, last one first. The directory that a path starts
from and those above it are always there. -/
def entryAt (disk : Disk) (start : String) (reversed : List String) : Option DiskEntry :=
  if reversed.all (· == "..") then some .directory
  else disk.entries.get? (spell start reversed)

/-- Goes on along names; each must stand in a directory that is there. -/
def follow (disk : Disk) (start : String) (reversed : List String) :
    List String → Except DiskFault DiskEntry
  | [] =>
      match disk.entryAt start reversed with
      | none => .error .missing
      | some entry => .ok entry
  | name :: rest =>
      match disk.entryAt start reversed with
      | none => .error .missing
      | some (.file _) => .error .notDirectory
      | some .directory =>
          if longestName < name.utf8ByteSize then .error .nameTooLong
          else disk.follow start (followName reversed name) rest

/-- What a path leads to. -/
def lookUp (disk : Disk) (path : String) : Except DiskFault DiskEntry :=
  if path = "" then .error .missing
  else if longestPath < path.utf8ByteSize then .error .nameTooLong
  else disk.follow (startOf path) [] (namesIn path)

/-- A path leads to a directory. -/
def leadsToDirectory (disk : Disk) (path : String) : Bool :=
  (disk.lookUp path).toOption == some .directory

/-- The contents of the file that a path leads to. -/
def readAt (disk : Disk) (path : String) : Except DiskFault Bytes :=
  match disk.lookUp path with
  | .ok (.file number) => .ok (disk.contentsOf number)
  | .ok .directory => .error .isDirectory
  | .error fault => .error fault

/-! ## Directories -/

/-- Names a directory in one that is there, unless a file has the name. -/
def makeDirectory (path : String) (disk : Disk) : Except DiskFault Disk :=
  match disk.lookUp path with
  | .ok .directory => .ok disk
  | .ok (.file _) => .error .fileExists
  | .error .missing =>
      .ok { disk with entries := disk.entries.insert (canonicalPath path) .directory }
  | .error fault => .error fault

/-- Names a directory and all directories on the way to it. -/
def makeDirectories (path : String) (disk : Disk) : Except DiskFault Disk :=
  (pathsAlong path).foldlM
    (fun current above => if above = "" then .ok current else current.makeDirectory above) disk

/-- A disk with some directories and files, and the directories on the way to them. -/
def ofFiles (directories : List String) (files : List (String × Bytes)) : Disk :=
  let withDirectories := fun (disk : Disk) path => (disk.makeDirectories path).toOption.getD disk
  let above := files.flatMap fun file => (pathsAlong file.1).dropLast
  files.foldl (fun disk file => disk.newFile (canonicalPath file.1) file.2)
    ((directories ++ above).foldl withDirectories empty)

end Disk

end GraphCheckpoint.Store
