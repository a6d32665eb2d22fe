import GraphCheckpoint.Document
import GraphCheckpoint.Encoding.Reading

/-!
Contract: documents of trees.

Owns:
- the fields that a record must have, and what missing ones stand for;
- values in both orders of type name and content, as pairs of them, and packed into bytes.

Does not own: the check of a document's version, which follows once all of it has been read.

A content that comes before its type name is held back until the name is known; all of it must be
legible then, also the parts that are passed over later. A pair gives the type name as records give
the names of their fields, so it has no long form.
-/

namespace GraphCheckpoint.Document

open GraphCheckpoint.Encoding

/-- The parts of a written value. -/
inductive ValuePart where
  | typeName
  | content
deriving DecidableEq, Repr

def valueFields : List String := ["type", "value"]

/-- The parts of a written value, in order. Other entries are passed over. -/
def valueParts (source : Source) (limit : Nat) :
    List (Node × Node) → Option (List (ValuePart × Node))
  | [] => some []
  | (key, node) :: rest => do
      let index ← nameIndex? source valueFields key
      let others ← valueParts source limit rest
      match index with
      | some 0 => some ((.typeName, node) :: others)
      | some _ => some ((.content, node) :: others)
      | none => if source.passesOver limit node then some others else none

def valueTypes : List String :=
  ["null", "boolean", "integer", "float", "text", "list", "map", "entityRef", "locationRef"]

def readReference (source : Source) : Nat → Node → Option Reference
  | 0, _ => none
  | limit + 1, node => do
      match ← readFields source ["id", "expectedType"] limit node with
      | [id, expectedType] =>
          return ⟨← required readText id, ← nullable readText expectedType⟩
      | _ => none

/-- The content of a value whose type name is known, with a reader of the values inside it. -/
def readContent (source : Source) (limit : Nat) (readInner : Node → Option Datum)
    (typeIndex : Nat) (content : Node) : Option Datum :=
  match typeIndex with
  | 0 =>
      match content with
      | .null => some .null
      | _ => none
  | 1 => (readBoolean content).map .boolean
  | 2 => (readInt64 content).map .integer
  | 3 => (readFloat content).map .float
  | 4 => (readText content).map .text
  | 5 => (readList source (fun _ => readInner) limit content).map .list
  | 6 => (readTable (fun _ => readInner) limit content).map .map
  | 7 => (readReference source limit content).map .entity
  | _ => (readReference source limit content).map .location

/-- Reads a value from its parts in order. -/
def readParts (source : Source) (limit : Nat) (readInner : Source → Node → Option Datum) :
    List (ValuePart × Node) → Option Datum
  | [(.typeName, name)] => do
      let index ← readChoice source valueTypes limit name
      if index = 0 then some .null else none
  | [(.typeName, name), (.content, content)] => do
      let index ← readChoice source valueTypes limit name
      readContent source limit (readInner source) index content
  | [(.content, content), (.typeName, name)] => do
      guard (content.legible limit)
      let index ← readChoice source valueTypes limit name
      readContent .held limit (readInner .held) index content
  | _ => none

/-- Reads a value that is a pair of its type name and its content. The type name stands there as the
name of a field would. -/
def readPair (source : Source) (limit : Nat) (readInner : Source → Node → Option Datum)
    (name content : Node) : Option Datum := do
  let index ← (nameIndex? source valueTypes name).join
  readContent source limit (readInner source) index content

/-- Reads a value from a byte string of MessagePack: first the position of its type name, then a
number for its content. Further bytes are passed over. -/
def readPacked (source : Source) : Node → Option Datum
  | .bytes (typeIndex :: content :: _) =>
      if source = .encoded .messagePack then
        readContent source 0 (fun _ => none) typeIndex.toNat (.ofInt content.toNat)
      else none
  | _ => none

/-- Reads a value in which no more than the given number of containers nest. The values of a list or
map stand two containers deeper. -/
def readValue : Nat → Source → Node → Option Datum
  | 0, source, node => readPacked source node
  | limit + 1, source, node =>
      let readInner :=
        match limit with
        | 0 => fun _ _ => none
        | inner + 1 => readValue inner
      match node with
      | .map entries => do
          readParts source limit readInner (← valueParts source limit entries)
      | .list [name, content] => readPair source limit readInner name content
      | _ => readPacked source node

/-- Reads a value from bytes. -/
def readDatum (format : Format) (limit : Nat) (node : Node) : Option Datum :=
  readValue limit (.encoded format) node

def readCommon (format : Format) : Nat → Node → Option (Common Datum)
  | 0, _ => none
  | limit + 1, node => do
      let source := Source.encoded format
      match ← readFields source ["id", "type", "displayName", "config", "attributes", "tags"]
          limit node with
      | [id, typeName, displayName, config, attributes, tags] =>
          return ⟨← required readText id, ← required readText typeName,
            ← nullable readText displayName,
            ← orElse [] (readTable (readDatum format) limit) config,
            ← orElse [] (readTable (readDatum format) limit) attributes,
            ← orElse [] (readIdSet source limit) tags⟩
      | _ => none

def readEntity (format : Format) : Nat → Node → Option (EntityMemento Datum)
  | 0, _ => none
  | limit + 1, node => do
      let source := Source.encoded format
      match ← readFields source
          ["base", "parentId", "childrenIds", "locationIds", "policyIds", "enricherIds",
            "applicationId"] limit node with
      | [base, parent, children, locations, policies, enrichers, application] =>
          return ⟨← required (readCommon format limit) base, ← nullable readText parent,
            ← orElse [] (readTexts source limit) children,
            ← orElse [] (readTexts source limit) locations,
            ← orElse [] (readTexts source limit) policies,
            ← orElse [] (readTexts source limit) enrichers,
            ← nullable readText application⟩
      | _ => none

def readLocation (format : Format) : Nat → Node → Option (LocationMemento Datum)
  | 0, _ => none
  | limit + 1, node => do
      let source := Source.encoded format
      match ← readFields source ["base", "parentId", "childrenIds"] limit node with
      | [base, parent, children] =>
          return ⟨← required (readCommon format limit) base, ← nullable readText parent,
            ← orElse [] (readTexts source limit) children⟩
      | _ => none

def readPolicy (format : Format) : Nat → Node → Option (PolicyMemento Datum)
  | 0, _ => none
  | limit + 1, node => do
      match ← readFields (.encoded format) ["base", "flags"] limit node with
      | [base, flags] =>
          return ⟨← required (readCommon format limit) base,
            ← orElse [] (readTable (readDatum format) limit) flags⟩
      | _ => none

def readKind (format : Format) (limit : Nat) (node : Node) : Option DocumentKind :=
  (readChoice (.encoded format) ["delta", "checkpoint"] limit node).map fun index =>
    if index = 0 then .delta else .checkpoint

def fieldNames : List String :=
  ["formatVersion", "kind", "createdAtUnixMs", "entities", "locations", "policies",
    "removedEntityIds", "removedLocationIds", "removedPolicyIds"]

/-- The document of a tree. -/
def ofNode? (format : Format) : Nat → Node → Option Document
  | 0, _ => none
  | limit + 1, node => do
      let source := Source.encoded format
      match ← readFields source fieldNames limit node with
      | [version, kind, createdAt, entities, locations, policies, removedEntities,
          removedLocations, removedPolicies] =>
          let version ← required (readInteger 0 65535) version
          let kind ← required (readKind format limit) kind
          let createdAt ← required readInt64 createdAt
          let entities ← orElse [] (readList source (readEntity format) limit) entities
          let locations ← orElse [] (readList source (readLocation format) limit) locations
          let policies ← orElse [] (readList source (readPolicy format) limit) policies
          let removedEntities ← orElse [] (readIdSet source limit) removedEntities
          let removedLocations ← orElse [] (readIdSet source limit) removedLocations
          let removedPolicies ← orElse [] (readIdSet source limit) removedPolicies
          return ⟨version.toNat, kind, createdAt,
            ⟨entities, locations, policies, removedEntities, removedLocations, removedPolicies⟩⟩
      | _ => none

end GraphCheckpoint.Document
