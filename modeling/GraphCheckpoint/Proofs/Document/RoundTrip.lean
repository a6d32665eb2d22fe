import GraphCheckpoint.Proofs.Document.Parts
import GraphCheckpoint.Proofs.Memento

/-!
Contract: documents read back from their trees.

Owns:
- the round trip of values, records and documents through their trees;
- `Document.Regular`, the documents for which it holds.

Does not own: the bytes of trees, or the check of a document's version.

A tree has to be legible to the depth of the reader; nothing else can stop it.
-/

namespace GraphCheckpoint.Document

open GraphCheckpoint.Encoding

variable {floats : Prop}

/-! ## Values -/

/-- The reader of the values inside a value that was read with the given limit. -/
def readInside (limit : Nat) : Source → Node → Option Datum :=
  match limit with
  | 0 => fun _ _ => none
  | inner + 1 => readValue inner

theorem readValue_tagged (limit : Nat) (source : Source) (typeName : String) (content : Node) :
    readValue (limit + 1) source (tagged typeName content) =
      (valueTypes.idxOf? typeName).bind fun index =>
        readContent source limit (readInside limit source) index content := by
  have parts : valueParts source limit
      [(.text "type", .text typeName), (.text "value", content)] =
        some [(.typeName, .text typeName), (.content, content)] := rfl
  have opened : readValue (limit + 1) source (tagged typeName content) =
      ((valueParts source limit [(.text "type", .text typeName), (.text "value", content)]).bind
        (readParts source limit (readInside limit))) := by
    cases limit <;> rfl
  rw [opened, parts]
  rfl

theorem readValue_pair (limit : Nat) (source : Source) (name content : Node) :
    readValue (limit + 1) source (.list [name, content]) =
      readPair source limit (readInside limit) name content := by
  cases limit <;> rfl

theorem legible_tagged {limit : Nat} {typeName : String} {content : Node}
    (legible : (tagged typeName content).legible limit = true) :
    ∃ inner, limit = inner + 1 ∧ content.legible inner = true := by
  cases limit with
  | zero => cases legible
  | succ inner =>
      refine ⟨inner, rfl, ?_⟩
      simpa [tagged, Node.record, Node.legible, Node.legibleEntries] using legible

theorem referenceNode_eq (reference : Reference) :
    referenceNode reference = .record (presentFields
      [("id", some (.text reference.id)),
        ("expectedType", reference.expectedType.map Node.text)]) := by
  rw [presentFields_some, presentFields_optional]
  simp [referenceNode, presentFields]

theorem readReference_referenceNode (source : Source) (limit : Nat) (reference : Reference) :
    readReference source (limit + 1) (referenceNode reference) = some reference := by
  have read := readFields_record source limit ["id", "expectedType"] (referenceNode_eq reference)
    rfl (by decide)
  simp only [List.map_cons, List.map_nil] at read
  simp [readReference, read, required, readText, nullable_text]

theorem readInt64_ofInt (number : Int64) : readInt64 (.ofInt number.toInt) = some number := by
  have least := Int64.le_toInt number
  have greatest := Int64.toInt_le number
  have inRange : readInteger (-0x8000000000000000) 0x7fffffffffffffff
      (Node.ofInt number.toInt) = some number.toInt := by
    rw [Node.ofInt, readInteger, if_pos ⟨least, greatest⟩]
  rw [readInt64, inRange, Option.map_some, Int64.ofInt_toInt]

theorem readTable_of_mapM {read : Nat → Node → Option Datum} {limit : Nat}
    {entries : List (String × Datum)} (ordered : Table.Ordered entries)
    (isRead : (datumEntries entries).mapM (fun (key, value) => do
      return (← readText key, ← read limit value)) = some entries) :
    readTable read (limit + 1) (.map (datumEntries entries)) = some entries := by
  rw [readTable, isRead]
  exact congrArg some (Table.ofEntries_of_ordered ordered)

mutual

theorem readValue_datumNode (value : Datum) (limit : Nat) (format : Format)
    (regular : value.Regular floats) (legible : (datumNode value).legible limit = true) :
    readValue limit (.encoded format) (datumNode value) = some value := by
  match value with
  | .null =>
      cases limit with
      | zero => cases legible
      | succ inner => cases inner <;> rfl
  | .boolean flag =>
      obtain ⟨inner, rfl, -⟩ := legible_tagged legible
      exact readValue_tagged inner _ "boolean" _
  | .integer number =>
      obtain ⟨inner, rfl, -⟩ := legible_tagged legible
      refine (readValue_tagged inner _ "integer" _).trans ?_
      change (readInt64 (Node.ofInt number.toInt)).map Value.integer = _
      rw [readInt64_ofInt, Option.map_some]
  | .float number =>
      obtain ⟨inner, rfl, -⟩ := legible_tagged legible
      exact readValue_tagged inner _ "float" _
  | .text content =>
      obtain ⟨inner, rfl, -⟩ := legible_tagged legible
      exact readValue_tagged inner _ "text" _
  | .list items =>
      obtain ⟨inner, rfl, itemsLegible⟩ := legible_tagged legible
      refine (readValue_tagged inner _ "list" _).trans ?_
      cases inner with
      | zero => cases itemsLegible
      | succ depth =>
          have read := mapM_datumNodes items depth format regular itemsLegible
          change ((datumNodes items).mapM (readValue depth (.encoded format))).map Value.list = _
          rw [read, Option.map_some]
  | .map entries =>
      obtain ⟨inner, rfl, entriesLegible⟩ := legible_tagged legible
      refine (readValue_tagged inner _ "map" _).trans ?_
      cases inner with
      | zero => cases entriesLegible
      | succ depth =>
          have read := mapM_datumEntries entries depth format regular.2 entriesLegible
          have whole := @readTable_of_mapM (fun _ => readValue depth (.encoded format)) depth
            entries regular.1 read
          change (readTable (fun _ => readValue depth (.encoded format)) (depth + 1)
            (.map (datumEntries entries))).map Value.map = _
          rw [whole, Option.map_some]
  | .entity target =>
      obtain ⟨inner, rfl, targetLegible⟩ := legible_tagged legible
      obtain ⟨depth, rfl, -⟩ := legible_record (referenceNode_eq target) targetLegible
      refine (readValue_tagged (depth + 1) _ "entityRef" _).trans ?_
      change (readReference _ (depth + 1) (referenceNode target)).map Value.entity = _
      rw [readReference_referenceNode, Option.map_some]
  | .location target =>
      obtain ⟨inner, rfl, targetLegible⟩ := legible_tagged legible
      obtain ⟨depth, rfl, -⟩ := legible_record (referenceNode_eq target) targetLegible
      refine (readValue_tagged (depth + 1) _ "locationRef" _).trans ?_
      change (readReference _ (depth + 1) (referenceNode target)).map Value.location = _
      rw [readReference_referenceNode, Option.map_some]

theorem mapM_datumNodes (items : List Datum) (limit : Nat) (format : Format)
    (regular : Value.RegularItems floats items)
    (legible : Node.legibleItems limit (datumNodes items) = true) :
    (datumNodes items).mapM (readValue limit (.encoded format)) = some items := by
  match items with
  | [] => rfl
  | item :: rest =>
      simp only [datumNodes, Node.legibleItems, Bool.and_eq_true] at legible
      rw [datumNodes, List.mapM_cons,
        readValue_datumNode item limit format regular.1 legible.1,
        mapM_datumNodes rest limit format regular.2 legible.2]
      rfl

theorem mapM_datumEntries (entries : List (String × Datum)) (limit : Nat) (format : Format)
    (regular : Value.RegularEntries floats entries)
    (legible : Node.legibleEntries limit (datumEntries entries) = true) :
    (datumEntries entries).mapM (fun (key, value) => do
        return (← readText key, ← readValue limit (.encoded format) value)) = some entries := by
  match entries with
  | [] => rfl
  | (key, value) :: rest =>
      simp only [datumEntries, Node.legibleEntries, Bool.and_eq_true] at legible
      rw [datumEntries, List.mapM_cons,
        mapM_datumEntries rest limit format regular.2 legible.2]
      simp only [readText, readValue_datumNode value limit format regular.1 legible.1.2]
      rfl

end

theorem readTable_tableNode {table : Table Datum} {limit : Nat} {format : Format}
    (regular : Value.RegularTable floats table)
    (legible : (tableNode table).legible limit = true) :
    readTable (readDatum format) limit (tableNode table) = some table := by
  cases limit with
  | zero => cases legible
  | succ inner =>
      exact readTable_of_mapM regular.1 (mapM_datumEntries table inner format regular.2 legible)

/-! ## Records -/

theorem commonNode_eq (common : Common Datum) :
    commonNode common = .record (presentFields
      [("id", some (.text common.id)), ("type", some (.text common.typeName)),
        ("displayName", common.displayName.map Node.text),
        ("config", some (tableNode common.config)),
        ("attributes", some (tableNode common.attributes)),
        ("tags", some (textNodes common.tags))]) := by
  rw [presentFields_some, presentFields_some, presentFields_optional]
  rfl

theorem readCommon_commonNode {common : Common Datum} {limit : Nat} {format : Format}
    (regular : common.Regular floats) (legible : (commonNode common).legible limit = true) :
    readCommon format limit (commonNode common) = some common := by
  obtain ⟨inner, rfl, fieldsLegible⟩ := legible_record (commonNode_eq common) legible
  have read := readFields_record (.encoded format) inner
    ["id", "type", "displayName", "config", "attributes", "tags"] (commonNode_eq common) rfl
    (by decide)
  have config : readTable (readDatum format) inner (tableNode common.config) = some _ :=
    readTable_tableNode regular.config (fieldsLegible "config" _ (by simp))
  have attributes : readTable (readDatum format) inner (tableNode common.attributes) = some _ :=
    readTable_tableNode regular.attributes (fieldsLegible "attributes" _ (by simp))
  have tags : readIdSet (.encoded format) inner (textNodes common.tags) = some _ :=
    readIdSet_textNodes _ regular.tags (fieldsLegible "tags" _ (by simp))
  simp only [List.map_cons, List.map_nil] at read
  simp only [readCommon, read, Option.bind_eq_bind, Option.bind_some, required, readText,
    nullable_text, orElse, config, attributes, tags]
  rfl

theorem entityNode_eq (memento : EntityMemento Datum) :
    entityNode memento = .record (presentFields
      [("base", some (commonNode memento.common)), ("parentId", memento.parent.map Node.text),
        ("childrenIds", some (textNodes memento.children)),
        ("locationIds", some (textNodes memento.locations)),
        ("policyIds", some (textNodes memento.policies)),
        ("enricherIds", some (textNodes memento.enrichers)),
        ("applicationId", memento.application.map Node.text)]) := by
  rw [presentFields_some, presentFields_optional, presentFields_some, presentFields_some,
    presentFields_some, presentFields_some, presentFields_optional]
  simp [entityNode, presentFields]

theorem readEntity_entityNode {memento : EntityMemento Datum} {limit : Nat} {format : Format}
    (regular : memento.Regular floats) (legible : (entityNode memento).legible limit = true) :
    readEntity format limit (entityNode memento) = some memento := by
  obtain ⟨inner, rfl, fieldsLegible⟩ := legible_record (entityNode_eq memento) legible
  have read := readFields_record (.encoded format) inner
    ["base", "parentId", "childrenIds", "locationIds", "policyIds", "enricherIds",
      "applicationId"] (entityNode_eq memento) rfl (by decide)
  have base : readCommon format inner (commonNode memento.common) = some _ :=
    readCommon_commonNode regular (fieldsLegible "base" _ (by simp))
  have children : readTexts (.encoded format) inner (textNodes memento.children) = some _ :=
    readTexts_textNodes _ (fieldsLegible "childrenIds" _ (by simp))
  have locations : readTexts (.encoded format) inner (textNodes memento.locations) = some _ :=
    readTexts_textNodes _ (fieldsLegible "locationIds" _ (by simp))
  have policies : readTexts (.encoded format) inner (textNodes memento.policies) = some _ :=
    readTexts_textNodes _ (fieldsLegible "policyIds" _ (by simp))
  have enrichers : readTexts (.encoded format) inner (textNodes memento.enrichers) = some _ :=
    readTexts_textNodes _ (fieldsLegible "enricherIds" _ (by simp))
  simp only [List.map_cons, List.map_nil] at read
  simp only [readEntity, read, Option.bind_eq_bind, Option.bind_some, required, base,
    nullable_text, orElse, children, locations, policies, enrichers]
  rfl

theorem locationNode_eq (memento : LocationMemento Datum) :
    locationNode memento = .record (presentFields
      [("base", some (commonNode memento.common)), ("parentId", memento.parent.map Node.text),
        ("childrenIds", some (textNodes memento.children))]) := by
  rw [presentFields_some, presentFields_optional, presentFields_some]
  simp [locationNode, presentFields]

theorem readLocation_locationNode {memento : LocationMemento Datum} {limit : Nat}
    {format : Format} (regular : memento.Regular floats)
    (legible : (locationNode memento).legible limit = true) :
    readLocation format limit (locationNode memento) = some memento := by
  obtain ⟨inner, rfl, fieldsLegible⟩ := legible_record (locationNode_eq memento) legible
  have read := readFields_record (.encoded format) inner ["base", "parentId", "childrenIds"]
    (locationNode_eq memento) rfl (by decide)
  have base : readCommon format inner (commonNode memento.common) = some _ :=
    readCommon_commonNode regular (fieldsLegible "base" _ (by simp))
  have children : readTexts (.encoded format) inner (textNodes memento.children) = some _ :=
    readTexts_textNodes _ (fieldsLegible "childrenIds" _ (by simp))
  simp only [List.map_cons, List.map_nil] at read
  simp only [readLocation, read, Option.bind_eq_bind, Option.bind_some, required, base,
    nullable_text, orElse, children]
  rfl

theorem policyNode_eq (memento : PolicyMemento Datum) :
    policyNode memento = .record (presentFields
      [("base", some (commonNode memento.common)), ("flags", some (tableNode memento.flags))]) :=
  rfl

theorem readPolicy_policyNode {memento : PolicyMemento Datum} {limit : Nat} {format : Format}
    (regular : memento.Regular floats) (legible : (policyNode memento).legible limit = true) :
    readPolicy format limit (policyNode memento) = some memento := by
  obtain ⟨inner, rfl, fieldsLegible⟩ := legible_record (policyNode_eq memento) legible
  have read := readFields_record (.encoded format) inner ["base", "flags"] (policyNode_eq memento)
    rfl (by decide)
  have base : readCommon format inner (commonNode memento.common) = some _ :=
    readCommon_commonNode regular.common (fieldsLegible "base" _ (by simp))
  have flags : readTable (readDatum format) inner (tableNode memento.flags) = some _ :=
    readTable_tableNode regular.flags (fieldsLegible "flags" _ (by simp))
  simp only [List.map_cons, List.map_nil] at read
  simp only [readPolicy, read, Option.bind_eq_bind, Option.bind_some, required, base, orElse,
    flags]
  rfl

/-! ## Documents -/

/-- Of a known version, with regular contents. -/
structure Regular (floats : Prop) (document : Document) : Prop where
  version : document.formatVersion ≤ newestVersion
  content : document.content.Regular floats

theorem readKind_kindName (format : Format) (limit : Nat) (kind : DocumentKind) :
    readKind format limit (.text (kindName kind)) = some kind := by
  cases kind <;> rfl

/-- A regular document is read back from its tree by every reader that goes as deep as the tree. -/
theorem ofNode?_toNode {document : Document} {limit : Nat} (format : Format)
    (regular : document.Regular floats) (legible : document.toNode.legible limit = true) :
    ofNode? format limit document.toNode = some document := by
  obtain ⟨inner, rfl, fieldsLegible⟩ := legible_record (toNode_eq document) legible
  have read := readFields_record (.encoded format) inner fieldNames (toNode_eq document) rfl
    (by decide)
  have version : readInteger 0 65535 (.ofInt document.formatVersion) =
      some (document.formatVersion : Int) := by
    have known : document.formatVersion ≤ 1 := regular.version
    rw [Node.ofInt, readInteger, if_pos (by omega)]
  have entities : readList (.encoded format) (readEntity format) inner
      (.list (document.content.entities.map entityNode)) = some _ :=
    readList_map _ (fieldsLegible "entities" _ (by simp)) fun memento member _ =>
      readEntity_entityNode (regular.content.entities memento member)
  have locations : readList (.encoded format) (readLocation format) inner
      (.list (document.content.locations.map locationNode)) = some _ :=
    readList_map _ (fieldsLegible "locations" _ (by simp)) fun memento member _ =>
      readLocation_locationNode (regular.content.locations memento member)
  have policies : readList (.encoded format) (readPolicy format) inner
      (.list (document.content.policies.map policyNode)) = some _ :=
    readList_map _ (fieldsLegible "policies" _ (by simp)) fun memento member _ =>
      readPolicy_policyNode (regular.content.policies memento member)
  have removedEntities := orElse_removedNode? (.encoded format) regular.content.removedEntities
    fun node isNode => fieldsLegible "removedEntityIds" node (by simp [isNode])
  have removedLocations := orElse_removedNode? (.encoded format) regular.content.removedLocations
    fun node isNode => fieldsLegible "removedLocationIds" node (by simp [isNode])
  have removedPolicies := orElse_removedNode? (.encoded format) regular.content.removedPolicies
    fun node isNode => fieldsLegible "removedPolicyIds" node (by simp [isNode])
  simp only [List.map_cons, List.map_nil] at read
  simp only [ofNode?, read, Option.bind_eq_bind, Option.bind_some, required, version,
    readKind_kindName, readInt64_ofInt, removedEntities, removedLocations, removedPolicies]
  simp only [orElse, entities, locations, policies, Option.bind_some]
  rfl

end GraphCheckpoint.Document
