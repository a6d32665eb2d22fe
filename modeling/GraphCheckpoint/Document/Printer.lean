import GraphCheckpoint.Document
import GraphCheckpoint.Encoding.Node

/-!
Contract: documents as trees.

Owns:
- the fields of every record, in the order in which they are written;
- the form of a value: its type name, and its content unless it is null.

Does not own: the bytes of a tree.

Absent options and empty sets of removed ids are not written; empty lists and tables are.
-/

namespace GraphCheckpoint.Document

open GraphCheckpoint.Encoding

def textNodes (texts : List String) : Node := .list (texts.map Node.text)

/-- A field that is written only where there is something to write. -/
def optionalField (name : String) : Option String → List (String × Node)
  | some content => [(name, .text content)]
  | none => []

def removedField (name : String) (ids : IdSet) : List (String × Node) :=
  if ids.isEmpty then [] else [(name, textNodes ids)]

def referenceNode (reference : Reference) : Node :=
  .record (("id", .text reference.id) :: optionalField "expectedType" reference.expectedType)

/-- A value by its type name and content. -/
def tagged (typeName : String) (content : Node) : Node :=
  .record [("type", .text typeName), ("value", content)]

mutual

def datumNode : Datum → Node
  | .null => .record [("type", .text "null")]
  | .boolean flag => tagged "boolean" (.boolean flag)
  | .integer number => tagged "integer" (.ofInt number.toInt)
  | .float number => tagged "float" (.float number)
  | .text content => tagged "text" (.text content)
  | .list items => tagged "list" (.list (datumNodes items))
  | .map entries => tagged "map" (.map (datumEntries entries))
  | .entity target => tagged "entityRef" (referenceNode target)
  | .location target => tagged "locationRef" (referenceNode target)

def datumNodes : List Datum → List Node
  | [] => []
  | item :: rest => datumNode item :: datumNodes rest

def datumEntries : List (String × Datum) → List (Node × Node)
  | [] => []
  | (key, value) :: rest => (.text key, datumNode value) :: datumEntries rest

end

def tableNode (table : Table Datum) : Node := .map (datumEntries table)

def commonNode (common : Common Datum) : Node :=
  .record <|
    [("id", .text common.id), ("type", .text common.typeName)] ++
      optionalField "displayName" common.displayName ++
      [("config", tableNode common.config), ("attributes", tableNode common.attributes),
        ("tags", textNodes common.tags)]

def entityNode (memento : EntityMemento Datum) : Node :=
  .record <|
    ("base", commonNode memento.common) :: optionalField "parentId" memento.parent ++
      [("childrenIds", textNodes memento.children),
        ("locationIds", textNodes memento.locations),
        ("policyIds", textNodes memento.policies),
        ("enricherIds", textNodes memento.enrichers)] ++
      optionalField "applicationId" memento.application

def locationNode (memento : LocationMemento Datum) : Node :=
  .record <|
    ("base", commonNode memento.common) :: optionalField "parentId" memento.parent ++
      [("childrenIds", textNodes memento.children)]

def policyNode (memento : PolicyMemento Datum) : Node :=
  .record [("base", commonNode memento.common), ("flags", tableNode memento.flags)]

def kindName : DocumentKind → String
  | .delta => "delta"
  | .checkpoint => "checkpoint"

/-- The tree of a document. -/
def toNode (document : Document) : Node :=
  let content := document.content
  .record <|
    [("formatVersion", .ofInt document.formatVersion),
      ("kind", .text (kindName document.kind)),
      ("createdAtUnixMs", .ofInt document.createdAtUnixMs.toInt),
      ("entities", .list (content.entities.map entityNode)),
      ("locations", .list (content.locations.map locationNode)),
      ("policies", .list (content.policies.map policyNode))] ++
      removedField "removedEntityIds" content.removedEntities ++
      removedField "removedLocationIds" content.removedLocations ++
      removedField "removedPolicyIds" content.removedPolicies

end GraphCheckpoint.Document
