import GraphCheckpoint.Encoding.Json.Parser
import GraphCheckpoint.Encoding.Json.Printer
import GraphCheckpoint.Encoding.Reading
import GraphCheckpoint.Encoding.Settings

/-!
Contract: what can be configured, and its form as JSON.

Owns:
- `StoreOptions`, how a file store writes and when it folds its journal;
- `ManagerConfig`, whether and how often changes are written and how unknown types are met;
- the JSON form of both, of encoding settings and of single choices.

Does not own: what the settings do.

Every field may be missing and then has its default; none may be null.
-/

namespace GraphCheckpoint

open GraphCheckpoint.Encoding

/-- How far a write is pushed before it counts as done. -/
inductive Durability where
  /-- Every write reaches the disk. -/
  | sync
  /-- Snapshots reach the disk, journal writes the operating system. -/
  | async
  /-- Nothing is waited for. -/
  | none
deriving DecidableEq, Repr, Inhabited

/-- Options of a file store. -/
structure StoreOptions where
  durability : Durability
  /-- The number of journal frames that makes the store fold itself; zero is never. -/
  compactAfter : UInt64
  settings : Settings
deriving DecidableEq, Repr, Inhabited

/-- What a rebind does with an object whose type is not registered. -/
inductive TypeResolution where
  /-- Notes the object and goes on. -/
  | lenient
  /-- Fails. -/
  | strict
deriving DecidableEq, Repr, Inhabited

/-- Configuration of a manager. -/
structure ManagerConfig where
  /-- Whether changes are followed and written at all. -/
  persistenceEnabled : Bool
  persistPeriodMs : UInt64
  typeResolution : TypeResolution
  settings : Settings
deriving DecidableEq, Repr, Inhabited

namespace Durability

def name : Durability → String
  | .sync => "sync"
  | .async => "async"
  | .none => "none"

end Durability

namespace TypeResolution

def name : TypeResolution → String
  | .lenient => "lenient"
  | .strict => "strict"

end TypeResolution

namespace StoreOptions

def default : StoreOptions := ⟨.async, 64, .default⟩

end StoreOptions

namespace ManagerConfig

def default : ManagerConfig := ⟨true, 1000, .lenient, .default⟩

/-- The shortest period between two writes, in milliseconds. -/
def shortestPeriodMs : UInt64 := 10

/-- The period between two writes, which is never shorter than the shortest one. -/
def clampedPeriodMs (config : ManagerConfig) : UInt64 :=
  if config.persistPeriodMs < shortestPeriodMs then shortestPeriodMs else config.persistPeriodMs

/-- Sets the period to whole milliseconds of a duration, at most what 64 bits hold. -/
def withPeriod (seconds nanoseconds : Nat) (config : ManagerConfig) : ManagerConfig :=
  let milliseconds := seconds * 1000 + nanoseconds / 1000000
  { config with persistPeriodMs := (min milliseconds 0xffffffffffffffff).toUInt64 }

end ManagerConfig

namespace Configuration

/-! ## Writing -/

def aliasesNode (aliases : Aliases) : Node :=
  .record (aliases.byType.mapValues Node.text)

def settingsNode (settings : Settings) : Node :=
  .record [("format", .text settings.format.settingsName),
    ("aliases", aliasesNode settings.aliases)]

def storeOptionsNode (options : StoreOptions) : Node :=
  .record [("durability", .text options.durability.name),
    ("compact_after_deltas", .ofInt options.compactAfter.toNat),
    ("serializer", settingsNode options.settings)]

def managerConfigNode (config : ManagerConfig) : Node :=
  .record [("persistence_enabled", .boolean config.persistenceEnabled),
    ("persist_period_ms", .ofInt config.persistPeriodMs.toNat),
    ("type_resolution", .text config.typeResolution.name),
    ("serializer", settingsNode config.settings)]

/-- The JSON text of a tree. -/
def jsonText (node : Node) : String := (textOfBytes? (Json.print node)).getD ""

/-! ## Reading -/

/-- Configurations are JSON documents. -/
def source : Source := .encoded .json

def readChoiceOf {α : Type} (choices : List (String × α)) (limit : Nat) (node : Node) :
    Option α := do
  let index ← readChoice source (choices.map Prod.fst) limit node
  (choices[index]?).map Prod.snd

def readKind : Nat → Node → Option ObjectKind :=
  readChoiceOf (ObjectKind.all.map fun kind => (kind.name, kind))

def readFormat : Nat → Node → Option Format :=
  readChoiceOf [("json", .json), ("messagepack", .messagePack), ("msgpack", .messagePack)]

def readDurability : Nat → Node → Option Durability :=
  readChoiceOf [("sync", .sync), ("async", .async), ("none", .none)]

def readTypeResolution : Nat → Node → Option TypeResolution :=
  readChoiceOf [("lenient", .lenient), ("strict", .strict)]

def readAliases (limit : Nat) (node : Node) : Option Aliases :=
  (readTable (fun _ => readText) limit node).map Aliases.mk

def readSettings : Nat → Node → Option Settings
  | 0, _ => none
  | limit + 1, node => do
      match ← readFields source ["format", "aliases"] limit node with
      | [format, aliases] =>
          return ⟨← orElse .json (readFormat limit) format,
            ← orElse .empty (readAliases limit) aliases⟩
      | _ => none

def readStoreOptions : Nat → Node → Option StoreOptions
  | 0, _ => none
  | limit + 1, node => do
      match ← readFields source ["durability", "compact_after_deltas", "serializer"] limit
          node with
      | [durability, compactAfter, settings] =>
          let standard := StoreOptions.default
          return ⟨← orElse standard.durability (readDurability limit) durability,
            ← orElse standard.compactAfter readUInt64 compactAfter,
            ← orElse standard.settings (readSettings limit) settings⟩
      | _ => none

def readManagerConfig : Nat → Node → Option ManagerConfig
  | 0, _ => none
  | limit + 1, node => do
      match ← readFields source
          ["persistence_enabled", "persist_period_ms", "type_resolution", "serializer"]
          limit node with
      | [enabled, period, typeResolution, settings] =>
          let standard := ManagerConfig.default
          return ⟨← orElse standard.persistenceEnabled readBoolean enabled,
            ← orElse standard.persistPeriodMs readUInt64 period,
            ← orElse standard.typeResolution (readTypeResolution limit) typeResolution,
            ← orElse standard.settings (readSettings limit) settings⟩
      | _ => none

/-- Reads a JSON text with the reader of its tree. -/
def parseJson? {α : Type} (read : Nat → Node → Option α) (text : String) : Option α := do
  read Format.json.nesting (← Json.parse (bytesOfText text))

/-- What a piece of configuration is about. -/
inductive Part where
  | kind
  | format
  | durability
  | typeResolution
  | aliases
  | settings
  | storeOptions
deriving DecidableEq, Repr

/-- Reads a piece of configuration and gives the text that writes it down. -/
def normalForm? (part : Part) (text : String) : Option String :=
  match part with
  | .kind => write readKind fun kind => .text kind.name
  | .format => write readFormat fun format => .text format.settingsName
  | .durability => write readDurability fun durability => .text durability.name
  | .typeResolution => write readTypeResolution fun choice => .text choice.name
  | .aliases => write readAliases aliasesNode
  | .settings => write readSettings settingsNode
  | .storeOptions => write readStoreOptions storeOptionsNode
where
  /-- Reads the text and writes down what has been read. -/
  write {α : Type} (read : Nat → Node → Option α) (node : α → Node) : Option String :=
    (parseJson? read text).map fun found => jsonText (node found)

end Configuration

/-- The configuration in a JSON text. -/
def ManagerConfig.ofJson (text : String) : Outcome ManagerConfig :=
  match Configuration.parseJson? Configuration.readManagerConfig text with
  | some config => .ok config
  | none => .error (.encoding "rebind config: not in the form of a configuration")

end GraphCheckpoint
