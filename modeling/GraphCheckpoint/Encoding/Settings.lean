import GraphCheckpoint.Table
import GraphCheckpoint.Failure

/-!
Contract: how documents are to be encoded.

Owns:
- `Format`, the two encodings, the names by which they are asked for, and their limits;
- `Aliases`, the names that stand for object types in documents;
- `Settings`, both together.

Does not own: the bytes of either encoding.
-/

namespace GraphCheckpoint.Encoding

/-- The encoding of documents. -/
inductive Format where
  | json
  | messagePack
deriving DecidableEq, Repr, Inhabited

namespace Format

/-- The short name of an encoding. -/
def name : Format → String
  | .json => "json"
  | .messagePack => "msgpack"

/-- The name of an encoding inside a settings document. -/
def settingsName : Format → String
  | .json => "json"
  | .messagePack => "messagepack"

/-- How many containers may nest in a document. -/
def nesting : Format → Nat
  | .json => 127
  | .messagePack => 1023

/-- The encoding of a name, in either case of the Latin letters. -/
def ofName (text : String) : Outcome Format :=
  let lowered := text.map Char.toLower
  if lowered = "json" then .ok .json
  else if lowered = "msgpack" ∨ lowered = "messagepack" then .ok .messagePack
  else .error (.encoding ("unknown encoding format '" ++ lowered ++ "'"))

theorem map_toLower_name (format : Format) : format.name.map Char.toLower = format.name := by
  cases format <;> decide +kernel

theorem ofName_name (format : Format) : ofName format.name = .ok format := by
  rw [ofName, map_toLower_name]
  cases format <;> simp [name]

end Format

/-- Names that stand for object types in documents, by type. -/
structure Aliases where
  byType : Table String
deriving DecidableEq, Repr, Inhabited

namespace Aliases

def empty : Aliases := ⟨[]⟩

def isEmpty (aliases : Aliases) : Bool := aliases.byType.isEmpty

def size (aliases : Aliases) : Nat := aliases.byType.length

/-- Lets a name stand for a type, in place of any name that stood for it before. -/
def add (typeName written : String) (aliases : Aliases) : Aliases :=
  ⟨aliases.byType.insert typeName written⟩

/-- The name written for a type: its alias, or the type's own name. -/
def encodeName (aliases : Aliases) (typeName : String) : String :=
  (aliases.byType.get? typeName).getD typeName

/-- The type read for a written name: the first type with this alias, or the name itself. -/
def decodeName (aliases : Aliases) (written : String) : String :=
  match aliases.byType.find? (fun entry => entry.2 == written) with
  | some (typeName, _) => typeName
  | none => written

end Aliases

/-- An encoding and the names of object types in it. -/
structure Settings where
  format : Format
  aliases : Aliases
deriving DecidableEq, Repr, Inhabited

namespace Settings

def default : Settings := ⟨.json, .empty⟩

end Settings

end GraphCheckpoint.Encoding
