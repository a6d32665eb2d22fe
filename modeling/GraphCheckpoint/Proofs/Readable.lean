import GraphCheckpoint.Proofs.Codec
import GraphCheckpoint.Proofs.Document.Reading
import GraphCheckpoint.Proofs.Document.Rereading
import GraphCheckpoint.Proofs.Stateful

/-!
Contract: what is read back of bytes that were written, and what can be written of bytes that were
read.

Owns:
- `Settings.Readable`, the trees whose bytes are read again at all, and `Settings.Kept`, those that
  come back as they were;
- `Settings.Decoded`, the graphs that come from decoded documents;
- `Settings.ReadsGraph` and `Settings.KeepsGraph`, the graphs whose checkpoints are read again;
- that in JSON every decoded graph without floats is one of them.

Does not own: where bytes are kept.

A writer never refuses a tree. A reader refuses one that is nested too deeply, and a float that JSON
has no number for.
-/

namespace GraphCheckpoint.Encoding.Settings

variable (settings : Settings)

/-- A record is read of bytes where their tree is one of such a record. -/
theorem readBytes_eq_ok_iff {α : Type} {read : Format → Nat → Node → Option α} {bytes : Bytes}
    {record : α} :
    settings.readBytes read bytes = .ok record ↔
      (settings.parseNode? bytes).bind (read settings.format settings.format.nesting) =
        some record := by
  unfold readBytes
  rw [Option.bind_eq_bind]
  dsimp only
  cases (settings.parseNode? bytes).bind (read settings.format settings.format.nesting) <;> simp

/-! ## Trees that are read again -/

/-- What is read where a float was written. -/
def reread : Binary64 → Node :=
  match settings.format with
  | .json => Json.rereadFloat
  | .messagePack => .float

/-- The bytes of the tree are read again: no more containers nest in it than the reader opens, and
every float in it is read as a number. -/
structure Readable (node : Node) : Prop where
  nested : node.legible settings.format.nesting = true
  floats : ∀ number ∈ node.floats, (readFloat (settings.reread number)).isSome = true

/-- The bytes of the tree are read as the tree itself. -/
structure Kept (node : Node) : Prop where
  nested : node.legible settings.format.nesting = true
  floats : ∀ number ∈ node.floats, settings.reread number = .float number

variable {settings}

theorem Kept.readable {node : Node} (kept : settings.Kept node) : settings.Readable node where
  nested := kept.nested
  floats := fun number member => by
    rw [kept.floats number member]
    rfl

theorem reread_of_messagePack (isFormat : settings.format = .messagePack) (number : Binary64) :
    settings.reread number = .float number := by
  rw [reread, isFormat]

/-- In MessagePack nothing but the nesting can stop a reader. -/
theorem kept_of_messagePack {node : Node} (isFormat : settings.format = .messagePack)
    (nested : node.legible settings.format.nesting = true) : settings.Kept node :=
  ⟨nested, fun number _ => reread_of_messagePack isFormat number⟩

/-- JSON has no number for a float that is not finite. -/
theorem not_readable_of_not_isFinite {node : Node} (isFormat : settings.format = .json)
    {number : Binary64} (member : number ∈ node.floats) (notFinite : number.isFinite = false) :
    ¬ settings.Readable node := by
  intro readable
  have isNull : settings.reread number = .null := by
    rw [reread, isFormat]
    exact Json.rereadFloat_of_not_isFinite notFinite
  have isRead := readable.floats number member
  rw [isNull] at isRead
  cases isRead

theorem readable_iff {node : Node} :
    settings.Readable node ↔
      (Document.marked settings.reread node).legible settings.format.nesting = true := by
  rw [Document.marked, Node.legible_withFloats_mark]
  exact ⟨fun readable => ⟨readable.nested, readable.floats⟩, fun both => ⟨both.1, both.2⟩⟩

/-- The tree that is read of the bytes of a plain one. In MessagePack the parser itself stops at trees
that are nested too deeply. -/
theorem parseNode?_printNode_of_plain {node : Node} (plain : node.Plain .messagePack)
    (fits : settings.format = .messagePack → node.Fits) :
    settings.parseNode? (settings.printNode node) =
      if settings.format = .messagePack ∧ node.legible MessagePack.nestingBound = false then none
      else some (node.withFloats settings.reread) := by
  unfold parseNode? printNode reread
  cases isFormat : settings.format with
  | json =>
      rw [if_neg (by simp)]
      exact Json.parse_print_withFloats plain
  | messagePack =>
      have whole : node.withFloats .float = node :=
        Node.withFloats_of_floats node fun _ _ => rfl
      refine (MessagePack.parse_print (Node.exact_of_plain _ plain (fits isFormat))).trans ?_
      rw [whole]
      by_cases legible : node.legible MessagePack.nestingBound = true <;> simp [legible]

/-- A record is read again exactly where its tree is readable. -/
theorem readBytes_printNode {α : Type} {read : Format → Nat → Node → Option α} {node : Node}
    (plain : node.Plain .messagePack) (fits : settings.format = .messagePack → node.Fits)
    (isSome : ∀ (replace : Binary64 → Node) (limit : Nat),
      (read settings.format limit (node.withFloats replace)).isSome =
        (Document.marked replace node).legible limit) :
    (∃ record, settings.readBytes read (settings.printNode node) = .ok record) ↔
      settings.Readable node := by
  simp only [readBytes_eq_ok_iff]
  rw [← Option.isSome_iff_exists]
  rw [parseNode?_printNode_of_plain plain fits]
  split
  · rename_i tooDeep
    -- the reader opens one container less than the parser
    have notReadable : ¬ settings.Readable node := fun readable => by
      have nested := readable.nested
      rw [tooDeep.1] at nested
      have opened : node.legible MessagePack.nestingBound = true :=
        Node.legible_succ node 1023 nested
      rw [tooDeep.2] at opened
      cases opened
    exact iff_of_false (by simp) notReadable
  · rw [Option.bind_some, isSome, readable_iff]

/-! ## Documents that are read again -/

theorem plain_of_regular {document : Document} (regular : document.Regular True) :
    document.toNode.Plain .messagePack :=
  Document.plain_toNode ⟨regular.version, by simpa using regular.content⟩

theorem decodeDocument_eq {document : Document} {bytes : Bytes}
    (known : document.formatVersion ≤ Document.newestVersion)
    (isRead : settings.readBytes Document.ofNode? bytes = .ok document) :
    settings.decodeDocument bytes = .ok document := by
  rw [decodeDocument, isRead]
  exact if_neg (Nat.not_lt.mpr known)

/-- A document that is kept is read back as it was. -/
theorem decodeDocument_of_kept {document : Document} (regular : document.Regular True)
    (fits : settings.format = .messagePack → document.toNode.Fits)
    (kept : settings.Kept document.toNode) :
    settings.decodeDocument (settings.encodeDocument document) = .ok document := by
  have notTooDeep : ¬ (settings.format = .messagePack ∧
      document.toNode.legible MessagePack.nestingBound = false) := by
    rintro ⟨isFormat, tooDeep⟩
    have nested := kept.nested
    rw [isFormat] at nested
    have opened : document.toNode.legible MessagePack.nestingBound = true :=
      Node.legible_succ _ 1023 nested
    rw [tooDeep] at opened
    cases opened
  have parsed := parseNode?_printNode_of_plain (plain_of_regular regular) fits
  rw [if_neg notTooDeep, Node.withFloats_of_floats _ kept.floats] at parsed
  have read := Document.ofNode?_toNode settings.format regular kept.nested
  refine decodeDocument_eq regular.version ((readBytes_eq_ok_iff _).mpr ?_)
  rw [encodeDocument, parsed, Option.bind_some, read]

/-- What is read of a document of a known version is again of a known version, whatever else becomes
of it. -/
theorem formatVersion_of_ofNode? {format : Format} {limit : Nat} {document found : Document}
    (known : document.formatVersion ≤ Document.newestVersion) (replace : Binary64 → Node)
    (isRead : Document.ofNode? format limit (document.toNode.withFloats replace) = some found) :
    found.formatVersion = document.formatVersion := by
  cases limit with
  | zero => cases isRead
  | succ inner =>
      have fields := Document.readFields_withFloats (.encoded format) replace inner
        Document.fieldNames (Document.toNode_eq document) rfl (by decide)
      have version : readInteger 0 65535 ((Node.ofInt document.formatVersion).withFloats replace) =
          some (document.formatVersion : Int) := by
        have small : document.formatVersion ≤ 1 := known
        change readInteger 0 65535 (.ofInt document.formatVersion) = _
        rw [Node.ofInt, readInteger, if_pos (by omega)]
      simp only [List.map_cons, List.map_nil, Option.map_some] at fields
      simp only [Document.ofNode?, fields, Option.bind_eq_bind, Option.bind_some, required,
        version, Option.bind_eq_some_iff] at isRead
      obtain ⟨_, -, _, -, _, -, _, -, _, -, _, -, _, -, _, -, isResult⟩ := isRead
      cases isResult
      rfl

/-- A document is read again exactly where its tree is readable. -/
theorem exists_decodeDocument_iff {document : Document} (regular : document.Regular True)
    (fits : settings.format = .messagePack → document.toNode.Fits) :
    (∃ found, settings.decodeDocument (settings.encodeDocument document) = .ok found) ↔
      settings.Readable document.toNode := by
  have reads : (∃ read, settings.readBytes Document.ofNode? (settings.encodeDocument document) =
      .ok read) ↔ settings.Readable document.toNode :=
    readBytes_printNode (plain_of_regular regular) fits
      fun replace limit => Document.isSome_ofNode? regular.version
  rw [← reads]
  constructor
  · rintro ⟨found, decodes⟩
    obtain ⟨read, isRead, -⟩ := outcome_bind_eq_ok decodes
    exact ⟨read, isRead⟩
  · rintro ⟨read, isRead⟩
    refine ⟨read, decodeDocument_eq ?_ isRead⟩
    have found := (readBytes_eq_ok_iff _).mp isRead
    have parsed := parseNode?_printNode_of_plain (plain_of_regular regular) fits
    rw [encodeDocument, parsed] at found
    split at found
    · cases found
    · rw [formatVersion_of_ofNode? regular.version settings.reread found]
      exact regular.version

/-! ## What has been decoded -/

/-- What is known of every document that has been decoded. -/
theorem within_of_decodeDocument {bytes : Bytes} {document : Document}
    (decodes : settings.decodeDocument bytes = .ok document) :
    document.formatVersion ≤ Document.newestVersion ∧
      Document.WithinRecords (.encoded settings.format) (settings.format.nesting - 2)
        (settings.format = .messagePack) document.content := by
  obtain ⟨found, isRead, isResult⟩ := outcome_bind_eq_ok decodes
  split at isResult
  · cases isResult
  · rename_i known
    cases isResult
    refine ⟨Nat.not_lt.mp known, ?_⟩
    obtain ⟨node, isNode, isRecord⟩ :=
      Option.bind_eq_some_iff.mp ((readBytes_eq_ok_iff _).mp isRead)
    have deep : settings.format.nesting = settings.format.nesting - 5 + 5 := by
      cases settings.format <;> rfl
    have shallow : settings.format.nesting - 5 + 3 = settings.format.nesting - 2 := by
      cases settings.format <;> rfl
    rw [deep] at isRecord
    have within := Document.withinRecords_of_ofNode? isRecord
    rw [shallow] at within
    refine ⟨within.regular, fun isFormat => within.fits ?_, within.legible⟩
    rw [parseNode?, isFormat] at isNode
    exact MessagePack.sized_of_parse isNode

variable (settings)

/-- A graph that comes from decoded documents. -/
structure Decoded (graph : Graph Datum) : Prop where
  regular : graph.Regular True
  fits : settings.format = .messagePack → Document.FittingRecords (Delta.ofGraph graph)
  legible : settings.format = .json →
    Document.LegibleRecords (settings.format.nesting - 2) (Delta.ofGraph graph)

variable {settings}

theorem decoded_empty : settings.Decoded Graph.empty where
  regular := Graph.regular_empty
  fits := fun _ => Document.fittingRecords_empty
  legible := fun _ => Document.legibleRecords_empty

/-- Folding a decoded document keeps a graph decoded. -/
theorem Decoded.applyDocument {graph : Graph Datum} (decoded : settings.Decoded graph)
    {bytes : Bytes} {document : Document}
    (decodes : settings.decodeDocument bytes = .ok document) :
    settings.Decoded (graph.applyDocument document) := by
  have within := (within_of_decodeDocument decodes).2
  have applied : ∀ {start : Graph Datum}, settings.Decoded start →
      settings.Decoded (start.apply document.content) := fun start => {
    regular := start.regular.apply within.regular
    fits := fun isFormat => (start.fits isFormat).apply (within.fits isFormat)
    legible := fun isFormat => (start.legible isFormat).apply (within.legible (by simp [isFormat])) }
  rw [Graph.applyDocument]
  split
  · exact applied decoded
  · exact applied decoded_empty

theorem Decoded.applyDocuments {graph : Graph Datum} (decoded : settings.Decoded graph)
    {payloads : List Bytes} {documents : List Document}
    (decodes : payloads.mapM settings.decodeDocument = .ok documents) :
    settings.Decoded (graph.applyDocuments documents) := by
  induction payloads generalizing graph documents with
  | nil =>
      cases decodes
      exact decoded
  | cons payload rest inductionHypothesis =>
      rw [List.mapM_cons] at decodes
      obtain ⟨document, first, decodes⟩ := outcome_bind_eq_ok decodes
      obtain ⟨others, areOthers, isResult⟩ := outcome_bind_eq_ok decodes
      cases isResult
      exact inductionHypothesis (decoded.applyDocument first) areOthers

/-- The ids that are read from MessagePack have lengths in four bytes. -/
theorem Decoded.short_keys {graph : Graph Datum} (decoded : settings.Decoded graph)
    (isFormat : settings.format = .messagePack) :
    ∀ id ∈ graph.entities.keys ++ graph.locations.keys ++ graph.policies.keys,
      (bytesOfText id).length < Node.lengthBound := by
  have records := decoded.fits isFormat
  have keyed := decoded.regular.keyed
  simp only [List.mem_append, Table.keys, List.mem_map]
  rintro id ((⟨entry, isEntry, rfl⟩ | ⟨entry, isEntry, rfl⟩) | ⟨entry, isEntry, rfl⟩)
  · rw [keyed.entities entry isEntry]
    exact (Document.short_of_fits (Document.fits_commonNode
      (records.entities entry.2 (List.mem_map_of_mem isEntry)))).1
  · rw [keyed.locations entry isEntry]
    exact (Document.short_of_fits (Document.fits_commonNode
      (records.locations entry.2 (List.mem_map_of_mem isEntry)))).1
  · rw [keyed.policies entry isEntry]
    exact (Document.short_of_fits (Document.fits_commonNode
      (records.policies entry.2 (List.mem_map_of_mem isEntry)))).1

/-! ## Checkpoints of decoded graphs -/

/-- The checkpoint of a graph. -/
abbrev checkpointOf (now : Int64) (graph : Graph Datum) : Document :=
  .make .checkpoint now (Delta.ofGraph graph)

variable {graph : Graph Datum} {now : Int64}

theorem Decoded.regular_checkpointOf (decoded : settings.Decoded graph) (now : Int64) :
    (checkpointOf now graph).Regular True :=
  ⟨Nat.le_refl _, Delta.regular_ofGraph decoded.regular⟩

theorem Decoded.fits_checkpointOf (decoded : settings.Decoded graph)
    (few : settings.format = .messagePack → Document.Few graph) (now : Int64)
    (isFormat : settings.format = .messagePack) : (checkpointOf now graph).toNode.Fits :=
  Document.fits_checkpoint now (few isFormat) (decoded.fits isFormat)

/-- Its records are all that nests in a checkpoint. -/
theorem legible_checkpointOf_iff :
    (checkpointOf now graph).toNode.legible settings.format.nesting = true ↔
      Document.LegibleRecords (settings.format.nesting - 2) (Delta.ofGraph graph) := by
  rw [nesting_eq]
  exact ⟨Document.legibleRecords_of_toNode, Document.legible_checkpoint now⟩

private theorem floats_ofInt (number : Int) : (Node.ofInt number).floats = [] := rfl

/-- The time in a document is no float. -/
private theorem floats_checkpointOf (now other : Int64) (graph : Graph Datum) :
    (checkpointOf now graph).toNode.floats = (checkpointOf other graph).toNode.floats := by
  simp only [Document.toNode, Document.make, Node.record, List.cons_append, List.map_cons,
    Node.floats, Node.floatsOfEntries, floats_ofInt]

variable (settings) in
/-- A checkpoint of the graph is read again, whenever it is made. -/
def ReadsGraph (graph : Graph Datum) : Prop := settings.Readable (checkpointOf 0 graph).toNode

variable (settings) in
/-- A checkpoint of the graph is read as it was written, whenever it is made. -/
def KeepsGraph (graph : Graph Datum) : Prop := settings.Kept (checkpointOf 0 graph).toNode

theorem readable_checkpointOf_iff (now : Int64) :
    settings.Readable (checkpointOf now graph).toNode ↔ settings.ReadsGraph graph := by
  have moved : ∀ {one other : Int64}, settings.Readable (checkpointOf one graph).toNode →
      settings.Readable (checkpointOf other graph).toNode := fun readable => {
    nested := legible_checkpointOf_iff.mpr (legible_checkpointOf_iff.mp readable.nested)
    floats := by
      rw [floats_checkpointOf]
      exact readable.floats }
  exact ⟨moved, moved⟩

theorem KeepsGraph.kept_checkpointOf (keeps : settings.KeepsGraph graph) (now : Int64) :
    settings.Kept (checkpointOf now graph).toNode where
  nested := legible_checkpointOf_iff.mpr (legible_checkpointOf_iff.mp (Kept.nested keeps))
  floats := by
    rw [floats_checkpointOf]
    exact Kept.floats keeps

/-- The checkpoint of a decoded graph is read as it was written. -/
theorem Decoded.decodeDocument_checkpointOf (decoded : settings.Decoded graph)
    (few : settings.format = .messagePack → Document.Few graph) (keeps : settings.KeepsGraph graph)
    (now : Int64) :
    settings.decodeDocument (settings.encodeDocument (checkpointOf now graph)) =
      .ok (checkpointOf now graph) :=
  decodeDocument_of_kept (decoded.regular_checkpointOf now) (decoded.fits_checkpointOf few now)
    (keeps.kept_checkpointOf now)

/-- The checkpoint of a decoded graph is read again exactly where it is readable. -/
theorem Decoded.exists_decodeDocument_checkpointOf_iff (decoded : settings.Decoded graph)
    (few : settings.format = .messagePack → Document.Few graph) (now : Int64) :
    (∃ found, settings.decodeDocument (settings.encodeDocument (checkpointOf now graph)) =
      .ok found) ↔ settings.ReadsGraph graph :=
  (exists_decodeDocument_iff (decoded.regular_checkpointOf now)
    (decoded.fits_checkpointOf few now)).trans (readable_checkpointOf_iff now)

/-- In JSON the checkpoint of a decoded graph without floats is read as it was written. -/
theorem Decoded.keepsGraph_of_json (decoded : settings.Decoded graph)
    (isFormat : settings.format = .json) (noFloats : graph.Regular False) :
    settings.KeepsGraph graph := by
  refine ⟨legible_checkpointOf_iff.mpr (decoded.legible isFormat), ?_⟩
  have regular : (checkpointOf 0 graph).Regular (Format.json = .messagePack) :=
    ⟨Nat.le_refl _, by simpa [Document.make] using Delta.regular_ofGraph noFloats⟩
  rw [Node.floats_of_plain _ (Document.plain_toNode regular)]
  exact fun _ member => absurd member List.not_mem_nil

/-- In MessagePack the checkpoint of a graph is read as it was written, unless a record nests too
deeply. -/
theorem keepsGraph_iff_of_messagePack (isFormat : settings.format = .messagePack) :
    settings.KeepsGraph graph ↔
      Document.LegibleRecords (settings.format.nesting - 2) (Delta.ofGraph graph) :=
  ⟨fun keeps => legible_checkpointOf_iff.mp (Kept.nested keeps),
    fun legible => kept_of_messagePack isFormat (legible_checkpointOf_iff.mpr legible)⟩

/-- In MessagePack what is read at all is read as it was written. -/
theorem readsGraph_iff_of_messagePack (isFormat : settings.format = .messagePack) :
    settings.ReadsGraph graph ↔ settings.KeepsGraph graph :=
  ⟨fun readable => kept_of_messagePack isFormat (Readable.nested readable), Kept.readable⟩

end GraphCheckpoint.Encoding.Settings
