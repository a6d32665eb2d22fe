import GraphCheckpoint.Cells
import GraphCheckpoint.Document.Printer
import GraphCheckpoint.Document.Reader
import GraphCheckpoint.Encoding.Json.Parser
import GraphCheckpoint.Encoding.Json.Printer
import GraphCheckpoint.Encoding.MessagePack.Parser
import GraphCheckpoint.Encoding.MessagePack.Printer
import GraphCheckpoint.Encoding.Settings
import GraphCheckpoint.Lookup

/-!
Contract: live records as bytes, and back.

Owns:
- the two conversions between live values and document values;
- encoding and decoding of single records, deltas and graphs under given settings.

Does not own: the form of documents and of their bytes, or where references lead.

Writing settles computed values and replaces references by ids; reading resolves ids through a
look-up, in the order configuration, attributes, flags.
-/

namespace GraphCheckpoint

open GraphCheckpoint.Encoding

namespace Encoding.Settings

variable {σ : Type}

/-! ## Trees and bytes -/

/-- The bytes of a tree. -/
def printNode (settings : Settings) (node : Node) : Bytes :=
  match settings.format with
  | .json => Json.print node
  | .messagePack => MessagePack.print node

/-- The tree of bytes, if they follow the encoding. -/
def parseNode? (settings : Settings) (bytes : Bytes) : Option Node :=
  match settings.format with
  | .json => Json.parse bytes
  | .messagePack => MessagePack.parse bytes

/-- Bytes that are not what was to be decoded. -/
def malformed (settings : Settings) : Failure :=
  .encoding (settings.format.name ++ " decode: not in the form of the document")

/-- A value that cannot be written down, since its computed parts have no end. -/
def endless (settings : Settings) : Failure :=
  .encoding (settings.format.name ++ " encode: a computed value holds itself")

/-- Reads a record with the reader of its tree. -/
def readBytes {α : Type} (settings : Settings) (read : Format → Nat → Node → Option α)
    (bytes : Bytes) : Outcome α :=
  let record := do read settings.format settings.format.nesting (← settings.parseNode? bytes)
  match record with
  | some found => .ok found
  | none => .error settings.malformed

def encodeDocument (settings : Settings) (document : Document) : Bytes :=
  settings.printNode document.toNode

/-- The document of bytes; one of a newer version is refused. -/
def decodeDocument (settings : Settings) (bytes : Bytes) : Outcome Document := do
  let document ← settings.readBytes Document.ofNode? bytes
  if Document.newestVersion < document.formatVersion then
    .error (.encoding
      ("unsupported document format version " ++ toString document.formatVersion ++
        " (newest known is " ++ toString Document.newestVersion ++ ")"))
  else .ok document

/-! ## Live values and document values -/

/-- The reference that is written for a handle. -/
def writtenReference (settings : Settings) (handle : Handle) : Reference :=
  ⟨handle.id, handle.declaredType.map settings.aliases.encodeName⟩

/-- From live values to document values; none where a value has no end. -/
def writing (settings : Settings) (cells : Cells) : Conversion Option LiveValue Datum where
  typeName := settings.aliases.encodeName
  table := fun table =>
    (cells.settledTable? table).map (Value.mapReferencesOfEntries settings.writtenReference)

/-- From document values to live values, with references resolved by a look-up. -/
def reading (settings : Settings) (lookup : Lookup σ) :
    Conversion (StateT σ Outcome) Datum LiveValue where
  typeName := settings.aliases.decodeName
  table := Value.resolveEntries fun kind reference =>
    lookup kind reference.id (reference.expectedType.map settings.aliases.decodeName)

/-- Gives the result of a writing conversion, or the failure of an endless value. -/
def written {α : Type} (settings : Settings) : Option α → Outcome α
  | some record => .ok record
  | none => .error settings.endless

/-! ## Single records -/

def encodeEntity (settings : Settings) (cells : Cells) (memento : EntityMemento LiveValue) :
    Outcome Bytes := do
  let record ← settings.written (memento.convert (settings.writing cells))
  return settings.printNode (Document.entityNode record)

def encodeLocation (settings : Settings) (cells : Cells) (memento : LocationMemento LiveValue) :
    Outcome Bytes := do
  let record ← settings.written (memento.convert (settings.writing cells))
  return settings.printNode (Document.locationNode record)

def encodePolicy (settings : Settings) (cells : Cells) (memento : PolicyMemento LiveValue) :
    Outcome Bytes := do
  let record ← settings.written (memento.convert (settings.writing cells))
  return settings.printNode (Document.policyNode record)

def decodeEntity (settings : Settings) (lookup : Lookup σ) (bytes : Bytes) :
    StateT σ Outcome (EntityMemento LiveValue) := do
  (← settings.readBytes Document.readEntity bytes).convert (settings.reading lookup)

def decodeLocation (settings : Settings) (lookup : Lookup σ) (bytes : Bytes) :
    StateT σ Outcome (LocationMemento LiveValue) := do
  (← settings.readBytes Document.readLocation bytes).convert (settings.reading lookup)

def decodePolicy (settings : Settings) (lookup : Lookup σ) (bytes : Bytes) :
    StateT σ Outcome (PolicyMemento LiveValue) := do
  (← settings.readBytes Document.readPolicy bytes).convert (settings.reading lookup)

/-! ## Deltas and graphs -/

/-- The delta document of live records. -/
def deltaDocument (settings : Settings) (cells : Cells) (now : Int64) (delta : Delta LiveValue) :
    Outcome Document := do
  let content ← settings.written (delta.convert (settings.writing cells))
  return .make .delta now content

/-- The checkpoint document of live records. -/
def checkpointDocument (settings : Settings) (cells : Cells) (now : Int64)
    (graph : Graph LiveValue) : Outcome Document := do
  let content ← settings.written ((Delta.ofGraph graph).convert (settings.writing cells))
  return .make .checkpoint now content

def encodeDelta (settings : Settings) (cells : Cells) (now : Int64) (delta : Delta LiveValue) :
    Outcome Bytes := do
  return settings.encodeDocument (← settings.deltaDocument cells now delta)

def encodeCheckpoint (settings : Settings) (cells : Cells) (now : Int64)
    (graph : Graph LiveValue) : Outcome Bytes := do
  return settings.encodeDocument (← settings.checkpointDocument cells now graph)

/-- The delta of bytes; a checkpoint is refused. -/
def decodeDelta (settings : Settings) (lookup : Lookup σ) (bytes : Bytes) :
    StateT σ Outcome (Delta LiveValue) := do
  let document ← settings.decodeDocument bytes
  match document.kind with
  | .delta => document.content.convert (settings.reading lookup)
  | .checkpoint =>
      throw (.encoding "expected a delta document, found a checkpoint")

/-- The live graph of a stored one. -/
def resolveGraph (settings : Settings) (lookup : Lookup σ) (stored : Graph Datum) :
    StateT σ Outcome (Graph LiveValue) :=
  stored.convert (settings.reading lookup)

/-- The graph that a document of either kind describes on its own. -/
def decodeGraph (settings : Settings) (lookup : Lookup σ) (bytes : Bytes) :
    StateT σ Outcome (Graph LiveValue) := do
  settings.resolveGraph lookup (Graph.empty.applyDocument (← settings.decodeDocument bytes))

end Encoding.Settings

end GraphCheckpoint
