import GraphCheckpoint.Store.File
import GraphCheckpoint.Tool.Help

/-!
Contract: what the store tool does, on a disk given as data.

Owns:
- the three commands, the lines they print and the errors they end with;
- the choice of encoding settings by option or by configuration file.

Does not own: the real disk and the real streams.
-/

namespace GraphCheckpoint.Tool

open GraphCheckpoint.Encoding GraphCheckpoint.Store

/-- The error that ends a run: what was being done, and what went wrong with it. -/
structure ToolError where
  message : String
  cause : Option Failure
deriving Repr

namespace ToolError

/-- The lines shown for an error; those of its cause are indented. -/
def lines (error : ToolError) : List String :=
  ("Error: " ++ error.message).splitOn "\n" ++
    match error.cause with
    | none => []
    | some cause => "" :: "Caused by:" :: (cause.message.splitOn "\n").map ("    " ++ ·)

end ToolError

/-- A run as far as it has come. -/
structure Progress where
  disk : Disk
  /-- The lines printed so far. -/
  printed : List String

/-- A part of a run. What was printed and done stays when it fails. -/
abbrev Run (α : Type) := ExceptT ToolError (StateM Progress) α

/-- Prints a text on a line of its own, or on several where the text has line breaks. -/
def printLine (text : String) : Run Unit :=
  modify fun progress => { progress with printed := progress.printed ++ text.splitOn "\n" }

def fail {α : Type} (message : String) : Run α := throw ⟨message, none⟩

/-- Gives a result, or ends the run saying what was being done. -/
def during {α : Type} (doing : String) : Outcome α → Run α
  | .ok result => return result
  | .error cause => throw ⟨doing, some cause⟩

def quoted (text : String) : String := "'" ++ text ++ "'"

/-- The settings in a configuration file. -/
def configSettings (disk : Disk) (path : String) : Outcome Settings := do
  match disk.readAt path with
  | .error fault => throw (.io fault.reason)
  | .ok bytes =>
      match textOfBytes? bytes with
      | none => throw (.io "stream did not contain valid UTF-8")
      | some text => return (← ManagerConfig.ofJson text).settings

/-- The settings that the command line asks for; a configuration file goes before a format. -/
def chooseSettings (arguments : Arguments) : Run Settings := do
  match arguments.config with
  | some path =>
      during ("Failed to read rebind config " ++ quoted path)
        (configSettings (← get).disk path)
  | none =>
      let format ← during ("Unsupported format " ++ quoted arguments.format)
        (Format.ofName arguments.format)
      return ⟨format, .empty⟩

/-- Opens the store in the directory; it never folds itself. -/
def openStore (nowMs : Int) (directory : String) (settings : Settings) : Run FileStore := do
  let progress ← get
  if !progress.disk.leadsToDirectory directory then
    fail (quoted directory ++ " is not a memento store directory")
  let options : StoreOptions := ⟨StoreOptions.default.durability, 0, settings⟩
  let (opened, disk) := FileStore.openStore nowMs directory options progress.disk
  set { progress with disk := disk }
  during ("Failed to open memento store " ++ quoted directory) opened

/-- Loads all that the store holds, with the placeholders of every reference in it. -/
def loadStore (store : FileStore) : Run (Graph LiveValue × PlaceholderLookup) := do
  let disk := (← get).disk
  during ("Failed to load mementos from " ++ quoted store.directory)
    ((store.load disk PlaceholderLookup.resolver).run (.start .empty))

/-- The references of a loaded graph that lead to nothing in it. A loaded graph holds no computed
values. -/
def danglingReferences (graph : Graph LiveValue) : List ObjectKey :=
  graph.dangling Cells.empty.referencedKeys

/-- Adds the ids of placeholders that the graph does not hold. -/
def withPlaceholders (graph : Graph LiveValue) (lookup : PlaceholderLookup)
    (missing : List ObjectKey) : List ObjectKey :=
  let referenced :=
    lookup.entities.keys.map (ObjectKey.mk .entity) ++
      lookup.locations.keys.map (ObjectKey.mk .location)
  referenced.foldl
    (fun current key =>
      if graph.contains key.kind key.id then current else Graph.insertKey key current) missing

def objectLine (label : String) (common : Common LiveValue) : String :=
  "  " ++ label ++ " " ++ common.id ++ " (" ++ common.typeName ++ ")"

/-- Slashes at the end of a path, and dots between them, which lead nowhere. -/
def dropIdleEnd : List Char → List Char
  | '/' :: rest => dropIdleEnd rest
  | '.' :: '/' :: rest => dropIdleEnd ('/' :: rest)
  | reversed => reversed

/-- A file of the store's directory, named through the directory as it was given. -/
def shownPath (directory path : String) : String :=
  String.ofList (dropIdleEnd directory.toList.reverse).reverse ++ "/" ++
    Disk.lastName path

def inspect (nowMs : Int) (directory : String) (settings : Settings) : Run Unit := do
  let store ← openStore nowMs directory settings
  match store.journal.setAside with
  | some side => printLine ("Torn journal tail moved to " ++ shownPath directory side)
  | none => pure ()
  match store.journal.damage with
  | some reason => fail ("Journal in " ++ quoted directory ++ " is corrupt: " ++ reason)
  | none => pure ()
  let (graph, _) ← loadStore store
  printLine ("Store: " ++ directory)
  printLine ("Format: " ++ settings.format.name)
  printLine ("Journal frames since snapshot: " ++ toString store.journal.frames)
  printLine ("Objects: " ++ toString graph.entities.length ++ " entities, " ++
    toString graph.locations.length ++ " locations, " ++
    toString graph.policies.length ++ " policies")
  let applications := graph.applicationIds
  if !applications.isEmpty then
    printLine ("Applications: " ++ ", ".intercalate applications)
  for memento in graph.entities.values do printLine (objectLine "entity  " memento.common)
  for memento in graph.locations.values do printLine (objectLine "location" memento.common)
  for memento in graph.policies.values do printLine (objectLine "policy  " memento.common)

def compact (nowMs : Int) (directory : String) (settings : Settings) : Run Unit := do
  let store ← openStore nowMs directory settings
  let progress ← get
  let (result, _, disk) := (FileStore.compact (Int64.ofInt nowMs)).run.run (store, progress.disk)
  set { progress with disk := disk }
  during ("Failed to compact " ++ quoted directory) result
  printLine ("Compacted " ++ toString store.journal.frames ++ " journal frame(s) into " ++
    directory)

def checkReferences (nowMs : Int) (directory : String) (settings : Settings) : Run Unit := do
  let store ← openStore nowMs directory settings
  let (graph, lookup) ← loadStore store
  let missing := withPlaceholders graph lookup (danglingReferences graph)
  if missing.isEmpty then
    printLine ("All references resolve (" ++ toString graph.size ++ " objects)")
  else
    for key in missing do printLine ("missing " ++ key.kind.name ++ " " ++ key.id)
    fail (toString missing.length ++ " dangling reference(s)")

/-- Does what the command line asks for. -/
def perform (nowMs : Int) (arguments : Arguments) : Run Unit := do
  let settings ← chooseSettings arguments
  match arguments.command with
  | .inspect => inspect nowMs arguments.directory settings
  | .compact => compact nowMs arguments.directory settings
  | .checkReferences => checkReferences nowMs arguments.directory settings

/-- What a run leaves behind. -/
structure RunReport where
  exitCode : Nat
  printed : List String
  errorLines : List String
  disk : Disk

/-- Runs a command line on a disk: exit code 0 where all went well, 1 for an error, 2 for a command
line that is not understood. -/
def run (nowMs : Int) (arguments : List String) (disk : Disk) : RunReport :=
  match Request.parse? arguments with
  | none => ⟨2, [], [], disk⟩
  | some (.explain topic) => ⟨0, helpLines topic, [], disk⟩
  | some (.perform understood) =>
      let (result, progress) := (perform nowMs understood).run.run ⟨disk, []⟩
      match result with
      | .ok _ => ⟨0, progress.printed, [], progress.disk⟩
      | .error error => ⟨1, progress.printed, error.lines, progress.disk⟩

end GraphCheckpoint.Tool
