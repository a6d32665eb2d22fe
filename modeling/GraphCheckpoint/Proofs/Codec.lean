import GraphCheckpoint.Codec
import GraphCheckpoint.Proofs.Cells
import GraphCheckpoint.Proofs.Document.Plain
import GraphCheckpoint.Proofs.Encoding.Json
import GraphCheckpoint.Proofs.Encoding.MessagePack
import GraphCheckpoint.Proofs.Graph
import GraphCheckpoint.Proofs.Resolving

/-!
Contract: what is written down of live records, and what is read back.

Owns:
- `Settings.Admits`, the documents within the limits of an encoding, which are read back from their
  bytes;
- the documents of deltas and checkpoints, as the written form of settled records;
- the graph that a look-up makes of a written graph.

Does not own: where documents are kept.
-/

namespace GraphCheckpoint

open GraphCheckpoint.Encoding

/-! ## Records after a delta -/

namespace Document

variable {graph : Graph Datum} {delta : Delta Datum}

/-- Records that are legible to some depth remain so, and those that come in are. -/
theorem LegibleRecords.apply {limit : Nat} (records : LegibleRecords limit (Delta.ofGraph graph))
    (written : LegibleRecords limit delta) :
    LegibleRecords limit (Delta.ofGraph (graph.apply delta)) := by
  rw [Graph.apply_eq]
  exact {
    entities := fun memento member => (Graph.mem_values_after member).elim
      (written.entities memento) (records.entities memento)
    locations := fun memento member => (Graph.mem_values_after member).elim
      (written.locations memento) (records.locations memento)
    policies := fun memento member => (Graph.mem_values_after member).elim
      (written.policies memento) (records.policies memento) }

theorem FittingRecords.apply (records : FittingRecords (Delta.ofGraph graph))
    (written : FittingRecords delta) : FittingRecords (Delta.ofGraph (graph.apply delta)) := by
  rw [Graph.apply_eq]
  exact {
    entities := fun memento member => (Graph.mem_values_after member).elim
      (written.entities memento) (records.entities memento)
    locations := fun memento member => (Graph.mem_values_after member).elim
      (written.locations memento) (records.locations memento)
    policies := fun memento member => (Graph.mem_values_after member).elim
      (written.policies memento) (records.policies memento) }

theorem legibleRecords_empty {limit : Nat} :
    LegibleRecords limit (Delta.ofGraph (Graph.empty : Graph Datum)) := by
  constructor <;> simp [Delta.ofGraph, Graph.empty, Table.values]

theorem fittingRecords_empty : FittingRecords (Delta.ofGraph (Graph.empty : Graph Datum)) := by
  constructor <;> simp [Delta.ofGraph, Graph.empty, Table.values]

end Document

/-! ## References by id -/

namespace Graph

variable {ρ δ : Type}

/-- The graph with its references known by id alone. -/
def byIds (graph : Graph (Value Handle δ)) : Graph (Value String δ) :=
  graph.convert (m := Id) (.relabelling Handle.id)

/-- A graph without computed values, read as one that could have some. -/
def lifted (graph : Graph (Value ρ Empty)) : Graph (Value ρ δ) :=
  graph.convert (m := Id) ⟨id, Value.liftedEntries⟩

end Graph

namespace Delta

variable {ρ δ : Type}

/-- The delta with its references known by id alone. -/
def byIds (delta : Delta (Value Handle δ)) : Delta (Value String δ) :=
  delta.convert (m := Id) (.relabelling Handle.id)

/-- A delta without computed values, read as one that could have some. -/
def lifted (delta : Delta (Value ρ Empty)) : Delta (Value ρ δ) :=
  delta.convert (m := Id) ⟨id, Value.liftedEntries⟩

end Delta

/-- From every kept state, the look-up finds a reference with the id and keeps the state. -/
def Lookup.Resolves {σ : Type} (lookup : Lookup σ) (kept : σ → Prop) (kind : ObjectKind)
    (id : String) (expected : Option String) : Prop :=
  ∀ state, kept state → ∃ handle after,
    (lookup kind id expected).run state = .ok (handle, after) ∧ handle.id = id ∧ kept after

namespace Encoding.Settings

variable {σ : Type} (settings : Settings)

/-! ## Bytes -/

/-- Within the limits of the encoding: regular, without floats in JSON, nested no deeper than the
reader goes, and in MessagePack with lengths that have a form. -/
structure Admits (document : Document) : Prop where
  regular : document.Regular (settings.format = .messagePack)
  nested : document.toNode.legible settings.format.nesting = true
  fits : settings.format = .messagePack → document.toNode.Fits

variable {settings}

theorem parseNode?_printNode {node : Node} (plain : node.Plain settings.format)
    (nested : node.legible settings.format.nesting = true)
    (fits : settings.format = .messagePack → node.Fits) :
    settings.parseNode? (settings.printNode node) = some node := by
  unfold parseNode? printNode
  cases isFormat : settings.format with
  | json =>
      rw [isFormat] at plain
      exact Json.parse_print plain
  | messagePack =>
      rw [isFormat] at plain nested
      have opened : node.legible MessagePack.nestingBound = true :=
        Node.legible_succ node 1023 nested
      exact (MessagePack.parse_print (Node.exact_of_plain _ plain (fits isFormat))).trans (if_pos opened)

/-- What is read of a tree is read of its bytes. -/
theorem readBytes_of_read {α : Type} {read : Format → Nat → Node → Option α} {node : Node}
    {record : α} (plain : node.Plain settings.format)
    (nested : node.legible settings.format.nesting = true)
    (fits : settings.format = .messagePack → node.Fits)
    (isRead : read settings.format settings.format.nesting node = some record) :
    settings.readBytes read (settings.printNode node) = .ok record := by
  simp only [readBytes, parseNode?_printNode plain nested fits, Option.bind_eq_bind,
    Option.bind_some, isRead]

/-- A document within the limits is read back from its bytes. -/
theorem decodeDocument_encodeDocument {document : Document} (admitted : settings.Admits document) :
    settings.decodeDocument (settings.encodeDocument document) = .ok document := by
  have read := Document.ofNode?_toNode settings.format admitted.regular admitted.nested
  have found : settings.readBytes Document.ofNode? (settings.encodeDocument document) =
      .ok document :=
    readBytes_of_read (Document.plain_toNode admitted.regular) admitted.nested admitted.fits read
  have known : ¬ Document.newestVersion < document.formatVersion :=
    Nat.not_lt.mpr admitted.regular.version
  rw [decodeDocument, found]
  exact if_neg known

/-- Bytes that are no document are an encoding failure, whatever they are. -/
theorem decodeDocument_error {bytes : Bytes} {failure : Failure}
    (fails : settings.decodeDocument bytes = .error failure) :
    ∃ text, failure = .encoding text := by
  unfold decodeDocument at fails
  cases read : settings.readBytes Document.ofNode? bytes with
  | error unread =>
      rw [read] at fails
      cases fails
      simp only [readBytes] at read
      split at read
      · cases read
      · cases read
        exact ⟨_, rfl⟩
  | ok document =>
      rw [read] at fails
      by_cases newer : Document.newestVersion < document.formatVersion
      · cases (if_pos newer).symm.trans fails
        exact ⟨_, rfl⟩
      · cases (if_neg newer).symm.trans fails

/-- A document whose bytes a length in four bytes can count has only lengths with a form. -/
theorem fits_of_length_encodeDocument {document : Document}
    (short : (settings.encodeDocument document).length < Node.lengthBound)
    (isFormat : settings.format = .messagePack) : document.toNode.Fits := by
  rw [encodeDocument, printNode, isFormat] at short
  exact MessagePack.fits_of_length_print _ short

/-! ## Graphs within the limits -/

variable (settings)

/-- A graph all of whose records are within the limits of the encoding. -/
structure AdmitsGraph (graph : Graph Datum) : Prop where
  regular : graph.Regular (settings.format = .messagePack)
  nested : Document.LegibleRecords (settings.format.nesting - 2) (Delta.ofGraph graph)
  fits : settings.format = .messagePack → Document.FittingRecords (Delta.ofGraph graph)

variable {settings}

theorem nesting_eq (format : Format) : format.nesting = format.nesting - 2 + 2 := by
  cases format <;> rfl

theorem legible_nesting {node : Node} {format : Format}
    (legible : node.legible (format.nesting - 2) = true) : node.legible format.nesting = true := by
  rw [nesting_eq]
  exact Node.legible_succ node _ (Node.legible_succ node _ legible)

/-- Every record of a graph within the limits is read back from its own bytes. -/
theorem AdmitsGraph.readEntity {graph : Graph Datum} (admitted : settings.AdmitsGraph graph)
    {memento : EntityMemento Datum} (member : memento ∈ graph.entities.values) :
    settings.readBytes Document.readEntity (settings.printNode (Document.entityNode memento)) =
      .ok memento := by
  have regular := (Delta.regular_ofGraph admitted.regular).entities memento member
  have nested := legible_nesting (admitted.nested.entities memento member)
  exact readBytes_of_read (Document.plain_entityNode regular) nested
    (fun isFormat => (admitted.fits isFormat).entities memento member)
    (Document.readEntity_entityNode regular nested)

theorem AdmitsGraph.readLocation {graph : Graph Datum} (admitted : settings.AdmitsGraph graph)
    {memento : LocationMemento Datum} (member : memento ∈ graph.locations.values) :
    settings.readBytes Document.readLocation
        (settings.printNode (Document.locationNode memento)) = .ok memento := by
  have regular := (Delta.regular_ofGraph admitted.regular).locations memento member
  have nested := legible_nesting (admitted.nested.locations memento member)
  exact readBytes_of_read (Document.plain_locationNode regular) nested
    (fun isFormat => (admitted.fits isFormat).locations memento member)
    (Document.readLocation_locationNode regular nested)

theorem AdmitsGraph.readPolicy {graph : Graph Datum} (admitted : settings.AdmitsGraph graph)
    {memento : PolicyMemento Datum} (member : memento ∈ graph.policies.values) :
    settings.readBytes Document.readPolicy (settings.printNode (Document.policyNode memento)) =
      .ok memento := by
  have regular := (Delta.regular_ofGraph admitted.regular).policies memento member
  have nested := legible_nesting (admitted.nested.policies memento member)
  exact readBytes_of_read (Document.plain_policyNode regular) nested
    (fun isFormat => (admitted.fits isFormat).policies memento member)
    (Document.readPolicy_policyNode regular nested)

theorem admitsGraph_empty : settings.AdmitsGraph Graph.empty where
  regular := Graph.regular_empty
  nested := Document.legibleRecords_empty
  fits := fun _ => Document.fittingRecords_empty

/-- Folding a document within the limits keeps a graph within them. -/
theorem AdmitsGraph.apply {graph : Graph Datum} {document : Document}
    (graphAdmitted : settings.AdmitsGraph graph) (admitted : settings.Admits document) :
    settings.AdmitsGraph (graph.apply document.content) := by
  have nested := admitted.nested
  rw [nesting_eq] at nested
  have records := Document.legibleRecords_of_toNode nested
  exact ⟨graphAdmitted.regular.apply admitted.regular.content, graphAdmitted.nested.apply records,
    fun isFormat => (graphAdmitted.fits isFormat).apply
      (Document.fittingRecords_of_toNode (admitted.fits isFormat))⟩

/-- The checkpoint of a graph within the limits is within them, unless it has too many records. -/
theorem AdmitsGraph.checkpoint {graph : Graph Datum} (graphAdmitted : settings.AdmitsGraph graph)
    (few : settings.format = .messagePack → Document.Few graph) (now : Int64) :
    settings.Admits (.make .checkpoint now (Delta.ofGraph graph)) where
  regular := ⟨Nat.le_refl _, Delta.regular_ofGraph graphAdmitted.regular⟩
  nested := by
    rw [nesting_eq]
    exact Document.legible_checkpoint now graphAdmitted.nested
  fits := fun isFormat =>
    Document.fits_checkpoint now (few isFormat) (graphAdmitted.fits isFormat)

/-! ## Writing -/

variable (settings)

/-- From settled records to what is written of them. -/
def writtenForm : Conversion Id SettledValue Datum where
  typeName := settings.aliases.encodeName
  table := Value.mapReferencesOfEntries settings.writtenReference

theorem writing_eq (cells : Cells) :
    settings.writing cells = cells.settling.followedBy settings.writtenForm := rfl

/-- The document of a settled delta. -/
def documentOfDelta (now : Int64) (settled : Delta SettledValue) : Document :=
  .make .delta now (settled.convert (m := Id) settings.writtenForm)

/-- The document of a settled graph. -/
def documentOfGraph (now : Int64) (settled : Graph SettledValue) : Document :=
  .make .checkpoint now (Delta.ofGraph (settled.convert (m := Id) settings.writtenForm))

variable {settings}

theorem deltaDocument_of_settled {cells : Cells} {now : Int64} {delta : Delta LiveValue}
    {settled : Delta SettledValue} (isSettled : delta.convert cells.settling = some settled) :
    settings.deltaDocument cells now delta = .ok (settings.documentOfDelta now settled) := by
  rw [deltaDocument, writing_eq, Delta.convert_followedBy, isSettled]
  rfl

theorem encodeDelta_of_settled {cells : Cells} {now : Int64} {delta : Delta LiveValue}
    {settled : Delta SettledValue} (isSettled : delta.convert cells.settling = some settled) :
    settings.encodeDelta cells now delta =
      .ok (settings.encodeDocument (settings.documentOfDelta now settled)) := by
  rw [encodeDelta, deltaDocument_of_settled isSettled]
  rfl

theorem encodeDelta_of_endless {cells : Cells} {now : Int64} {delta : Delta LiveValue}
    (isEndless : delta.convert cells.settling = none) :
    settings.encodeDelta cells now delta = .error settings.endless := by
  rw [encodeDelta, deltaDocument, writing_eq, Delta.convert_followedBy, isEndless]
  rfl

theorem checkpointDocument_of_settled {cells : Cells} {now : Int64} {graph : Graph LiveValue}
    {settled : Graph SettledValue} (isSettled : graph.convert cells.settling = some settled) :
    settings.checkpointDocument cells now graph = .ok (settings.documentOfGraph now settled) := by
  rw [checkpointDocument, Graph.convert_ofGraph, writing_eq, Graph.convert_followedBy, isSettled]
  rfl

theorem encodeCheckpoint_of_settled {cells : Cells} {now : Int64} {graph : Graph LiveValue}
    {settled : Graph SettledValue} (isSettled : graph.convert cells.settling = some settled) :
    settings.encodeCheckpoint cells now graph =
      .ok (settings.encodeDocument (settings.documentOfGraph now settled)) := by
  rw [encodeCheckpoint, checkpointDocument_of_settled isSettled]
  rfl

theorem encodeCheckpoint_of_endless {cells : Cells} {now : Int64} {graph : Graph LiveValue}
    (isEndless : graph.convert cells.settling = none) :
    settings.encodeCheckpoint cells now graph = .error settings.endless := by
  rw [encodeCheckpoint, checkpointDocument, Graph.convert_ofGraph, writing_eq,
    Graph.convert_followedBy, isEndless]
  rfl

section Regular

variable {floats : Prop}

theorem regular_writtenCommon {common : Common SettledValue} (regular : common.Regular floats) :
    Common.Regular floats (common.convert (m := Id) settings.writtenForm) where
  config := Value.RegularTable.mapReferences _ regular.config
  attributes := Value.RegularTable.mapReferences _ regular.attributes
  tags := regular.tags

theorem regular_writtenPolicy {memento : PolicyMemento SettledValue}
    (regular : memento.Regular floats) :
    PolicyMemento.Regular floats (memento.convert (m := Id) settings.writtenForm) where
  common := regular_writtenCommon regular.common
  flags := Value.RegularTable.mapReferences _ regular.flags

/-- What is written of regular records is regular. -/
theorem regular_writtenDelta {delta : Delta SettledValue} (regular : delta.Regular floats) :
    Delta.Regular floats (delta.convert (m := Id) settings.writtenForm) := by
  rw [Delta.convert_pure]
  exact {
    entities := by
      intro memento member
      obtain ⟨settled, isSettled, rfl⟩ := List.mem_map.mp member
      exact regular_writtenCommon (regular.entities settled isSettled)
    locations := by
      intro memento member
      obtain ⟨settled, isSettled, rfl⟩ := List.mem_map.mp member
      exact regular_writtenCommon (regular.locations settled isSettled)
    policies := by
      intro memento member
      obtain ⟨settled, isSettled, rfl⟩ := List.mem_map.mp member
      exact regular_writtenPolicy (regular.policies settled isSettled)
    removedEntities := regular.removedEntities
    removedLocations := regular.removedLocations
    removedPolicies := regular.removedPolicies }

/-- The content of a written delta. -/
theorem deltaDocument_eq_ok {cells : Cells} {now : Int64} {delta : Delta LiveValue}
    {document : Document} (isDocument : settings.deltaDocument cells now delta = .ok document) :
    ∃ content, delta.convert (settings.writing cells) = some content ∧
      document = .make .delta now content := by
  rw [deltaDocument] at isDocument
  cases isContent : delta.convert (settings.writing cells) with
  | none =>
      rw [isContent] at isDocument
      cases isDocument
  | some content =>
      rw [isContent] at isDocument
      cases isDocument
      exact ⟨content, rfl, rfl⟩

/-- What is written of regular live records is regular. -/
theorem regular_of_convert_writing {cells : Cells} (cellsRegular : cells.Regular floats)
    {delta : Delta LiveValue} (regular : delta.Regular floats) {content : Delta Datum}
    (isContent : delta.convert (settings.writing cells) = some content) :
    content.Regular floats := by
  rw [writing_eq, Delta.convert_followedBy] at isContent
  obtain ⟨settled, isSettled, rfl⟩ := Option.map_eq_some_iff.mp isContent
  exact regular_writtenDelta (cellsRegular.settleDelta regular isSettled)

end Regular

/-! ## Documents within the limits -/

theorem ofGraph_written (graph : Graph SettledValue) :
    Delta.ofGraph (graph.convert (m := Id) settings.writtenForm) =
      (Delta.ofGraph graph).convert (m := Id) settings.writtenForm :=
  (Graph.convert_ofGraph settings.writtenForm graph).symm

section Limits

variable {now : Int64}

/-- A document is within the limits if what is written of it is regular, nests no deeper than the
reader goes, and in MessagePack has only lengths with a form. -/
theorem admits_documentOfDelta {delta : Delta SettledValue}
    (regular : delta.Regular (settings.format = .messagePack))
    (nested : (settings.documentOfDelta now delta).toNode.legible settings.format.nesting = true)
    (fits : settings.format = .messagePack → (settings.documentOfDelta now delta).toNode.Fits) :
    settings.Admits (settings.documentOfDelta now delta) :=
  ⟨⟨Nat.le_refl _, regular_writtenDelta regular⟩, nested, fits⟩

theorem admits_documentOfGraph {graph : Graph SettledValue}
    (regular : (Delta.ofGraph graph).Regular (settings.format = .messagePack))
    (nested : (settings.documentOfGraph now graph).toNode.legible settings.format.nesting = true)
    (fits : settings.format = .messagePack → (settings.documentOfGraph now graph).toNode.Fits) :
    settings.Admits (settings.documentOfGraph now graph) := by
  refine ⟨⟨Nat.le_refl _, ?_⟩, nested, fits⟩
  show (Delta.ofGraph (graph.convert (m := Id) settings.writtenForm)).Regular _
  rw [ofGraph_written]
  exact regular_writtenDelta regular

/-- The document of a graph describes what is written of its records, each under its own id. -/
theorem apply_documentOfGraph (graph : Graph SettledValue) :
    Graph.empty.applyDocument (settings.documentOfGraph now graph) =
      (Graph.empty.apply (Delta.ofGraph graph)).convert (m := Id) settings.writtenForm := by
  rw [Graph.convert_apply, ← ofGraph_written]
  rfl

/-- With its document, what a graph describes is within the limits. -/
theorem admitsGraph_of_admits {graph : Graph SettledValue}
    (admitted : settings.Admits (settings.documentOfGraph now graph)) :
    settings.AdmitsGraph
      ((Graph.empty.apply (Delta.ofGraph graph)).convert (m := Id) settings.writtenForm) := by
  rw [← apply_documentOfGraph]
  exact admitsGraph_empty.apply admitted

end Limits

/-! ## Reading -/

variable (settings)

/-- The graph as it is read, with references known by id alone. -/
def readByIds (graph : Graph Datum) : Graph (Value String CellId) :=
  graph.convert (m := Id) (.relabellingLifted settings.aliases.decodeName Reference.id)

/-- The type that is expected of a written reference when it is read. -/
def expectedType (handle : Handle) : Option String :=
  handle.declaredType.map fun declared =>
    settings.aliases.decodeName (settings.aliases.encodeName declared)

variable {settings}

theorem references_written (table : Table SettledValue) :
    Value.referencesOfEntries (settings.writtenForm.table table) =
      (Value.referencesOfEntries table).map fun reference =>
        (reference.1, settings.writtenReference reference.2) :=
  Value.referencesOfEntries_mapReferencesOfEntries settings.writtenReference table

theorem valueReferences_written (graph : Graph SettledValue) :
    Graph.valueReferences Value.referencesOfEntries
        (graph.convert (m := Id) settings.writtenForm) =
      (graph.valueReferences Value.referencesOfEntries).map fun reference =>
        (reference.1, settings.writtenReference reference.2) :=
  Graph.valueReferences_convert _ references_written graph

/-- What a table is read back as, by ids, is what it was before it was written. -/
theorem readBack_table (table : Table SettledValue) :
    (Value.liftedEntries (Value.mapReferencesOfEntries Reference.id
        (settings.writtenForm.table table)) : Table (Value String CellId)) =
      Value.mapReferencesOfEntries Handle.id (Value.liftedEntries table) := by
  refine (congrArg Value.liftedEntries
    (Value.mapReferencesOfEntries_mapReferencesOfEntries _ _ table)).trans ?_
  exact (Value.mapReferencesOfEntries_liftedEntries _ table).symm

section Resolution

variable {lookup : Lookup σ} {kept : σ → Prop} {state : σ}

/-- The states that a look-up keeps, whatever comes of them. -/
private def keeping (kept : σ → Prop) : Progress σ :=
  ⟨kept, fun _ => False, fun _ _ => True, fun _ => trivial, fun _ _ _ _ _ => trivial⟩

/-- The look-up as it is asked for a reference that stands in a document. -/
private def finding (settings : Settings) (lookup : Lookup σ) (kind : ObjectKind)
    (reference : Reference) : StateT σ Outcome Handle :=
  lookup kind reference.id (reference.expectedType.map settings.aliases.decodeName)

/-- A look-up that finds the references of settled values finds what is written of them. -/
private theorem yields_written {references : List (ObjectKind × Handle)}
    (resolves : ∀ reference ∈ references,
      lookup.Resolves kept reference.1 reference.2.id (settings.expectedType reference.2)) :
    ∀ reference ∈ references.map (fun reference =>
        (reference.1, settings.writtenReference reference.2)),
      (keeping kept).Yields (settings.finding lookup reference.1 reference.2)
        fun _ found => found.id = reference.2.id := by
  intro reference member
  obtain ⟨original, isOriginal, rfl⟩ := List.mem_map.mp member
  intro current currentKept
  obtain ⟨handle, after, ran, isNamed, afterKept⟩ :=
    resolves original isOriginal current currentKept
  refine Or.inr ⟨handle, after, ?_, afterKept, trivial, fun _ _ => isNamed⟩
  simp only [finding, writtenReference, Option.map_map]
  exact ran

/-- What was written of a graph resolves by every look-up that finds its references, to the graph
itself with the references that were found. -/
theorem resolveGraph_written {graph : Graph SettledValue}
    (named : ∀ name ∈ graph.typeNames,
      settings.aliases.decodeName (settings.aliases.encodeName name) = name)
    (resolves : ∀ reference ∈ graph.valueReferences Value.referencesOfEntries,
      lookup.Resolves kept reference.1 reference.2.id (settings.expectedType reference.2))
    (isKept : kept state) :
    ∃ loaded after,
      (settings.resolveGraph lookup (graph.convert (m := Id) settings.writtenForm)).run state =
          .ok (loaded, after) ∧
        kept after ∧ loaded.byIds = graph.lifted.byIds := by
  have finds := yields_written resolves
  rw [← valueReferences_written] at finds
  obtain ⟨loaded, after, ran, afterKept, -, described⟩ :=
    (@Graph.yields_convert σ Reference Handle String CellId (keeping kept) settings.aliases.decodeName
      (settings.finding lookup) (fun _ => Reference.id) Handle.id _ finds).run
        (fun _ impossible => impossible) isKept
  refine ⟨loaded, after, ran, afterKept, (described after trivial).trans ?_⟩
  rw [Graph.lifted, Graph.byIds, Graph.convert_convert, Graph.convert_convert]
  exact Graph.convert_congr _ named readBack_table

/-- So does what was written of a delta. -/
theorem convertDelta_written {delta : Delta SettledValue}
    (named : ∀ name ∈ delta.typeNames,
      settings.aliases.decodeName (settings.aliases.encodeName name) = name)
    (resolves : ∀ reference ∈ delta.valueReferences Value.referencesOfEntries,
      lookup.Resolves kept reference.1 reference.2.id (settings.expectedType reference.2))
    (isKept : kept state) :
    ∃ loaded after,
      ((delta.convert (m := Id) settings.writtenForm).convert (settings.reading lookup)).run state =
          .ok (loaded, after) ∧
        kept after ∧ loaded.byIds = delta.lifted.byIds := by
  have finds := yields_written resolves
  rw [← Delta.valueReferences_convert references_written] at finds
  obtain ⟨loaded, after, ran, afterKept, -, described⟩ :=
    (@Delta.yields_convert σ Reference Handle String CellId (keeping kept) settings.aliases.decodeName
      (settings.finding lookup) (fun _ => Reference.id) Handle.id _ finds).run
        (fun _ impossible => impossible) isKept
  refine ⟨loaded, after, ran, afterKept, (described after trivial).trans ?_⟩
  rw [Delta.lifted, Delta.byIds, Delta.convert_convert, Delta.convert_convert]
  exact Delta.convert_congr readBack_table named

end Resolution

end Encoding.Settings

end GraphCheckpoint
