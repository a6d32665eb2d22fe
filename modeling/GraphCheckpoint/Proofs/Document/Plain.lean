import GraphCheckpoint.Proofs.Document.RoundTrip

/-!
Contract: the trees of documents are trees that an encoding keeps.

Owns:
- plain trees for regular values, records and documents.

Does not own: what an encoding does with a plain tree.

Floats may stand in a document exactly where the encoding writes them as they are.
-/

namespace GraphCheckpoint.Document

open GraphCheckpoint.Encoding

variable {format : Format}

theorem plain_record {node : Node} {fields : List (String × Option Node)}
    (isRecord : node = .record (presentFields fields))
    (plain : ∀ name content, (name, some content) ∈ fields → content.Plain format) :
    node.Plain format := by
  subst isRecord
  change Node.PlainEntries format _
  induction fields with
  | nil => exact trivial
  | cons field rest inductionHypothesis =>
      obtain ⟨name, node?⟩ := field
      have later := inductionHypothesis fun name content member => plain name content (by simp [member])
      cases node? with
      | none => exact later
      | some node => exact ⟨⟨name, rfl⟩, plain name node (by simp), later⟩

theorem plain_list {α : Type} {print : α → Node} {items : List α}
    (plain : ∀ item ∈ items, (print item).Plain format) :
    (Node.list (items.map print)).Plain format := by
  change Node.PlainItems format _
  induction items with
  | nil => exact trivial
  | cons item rest inductionHypothesis =>
      exact ⟨plain item (by simp), inductionHypothesis fun item member => plain item (by simp [member])⟩

theorem plain_textNodes (texts : List String) : (textNodes texts).Plain format :=
  plain_list fun _ _ => trivial

theorem plain_tagged {content : Node} (typeName : String) (plain : content.Plain format) :
    (tagged typeName content).Plain format :=
  ⟨⟨"type", rfl⟩, trivial, ⟨"value", rfl⟩, plain, trivial⟩

theorem plain_ofInt {number : Int} (least : -0x8000000000000000 ≤ number)
    (greatest : number < 0x10000000000000000) : (Node.ofInt number).Plain format :=
  ⟨rfl, least, greatest⟩

theorem plain_int64 (number : Int64) : (Node.ofInt number.toInt).Plain format := by
  have least := Int64.le_toInt number
  have greatest := Int64.toInt_le number
  have bound : Int64.maxValue.toInt < 0x10000000000000000 := by decide
  exact plain_ofInt least (by omega)

theorem plain_referenceNode (reference : Reference) : (referenceNode reference).Plain format := by
  refine plain_record (referenceNode_eq reference) fun name content member => ?_
  simp only [List.mem_cons, Prod.mk.injEq, List.not_mem_nil, or_false] at member
  rcases member with ⟨-, same⟩ | ⟨-, same⟩
  · cases same
    exact trivial
  · obtain ⟨expected, -, rfl⟩ := Option.map_eq_some_iff.mp same.symm
    exact trivial

mutual

theorem plain_datumNode (value : Datum) (regular : value.Regular (format = .messagePack)) :
    (datumNode value).Plain format := by
  match value with
  | .null => exact ⟨⟨"type", rfl⟩, trivial, trivial⟩
  | .boolean flag => exact plain_tagged "boolean" trivial
  | .integer number => exact plain_tagged "integer" (plain_int64 number)
  | .float number => exact plain_tagged "float" regular
  | .text content => exact plain_tagged "text" trivial
  | .list items => exact plain_tagged "list" (plain_datumNodes items regular)
  | .map entries => exact plain_tagged "map" (plain_datumEntries entries regular.2)
  | .entity target => exact plain_tagged "entityRef" (plain_referenceNode target)
  | .location target => exact plain_tagged "locationRef" (plain_referenceNode target)

theorem plain_datumNodes (items : List Datum)
    (regular : Value.RegularItems (format = .messagePack) items) :
    Node.PlainItems format (datumNodes items) := by
  match items with
  | [] => exact trivial
  | item :: rest =>
      exact ⟨plain_datumNode item regular.1, plain_datumNodes rest regular.2⟩

theorem plain_datumEntries (entries : List (String × Datum))
    (regular : Value.RegularEntries (format = .messagePack) entries) :
    Node.PlainEntries format (datumEntries entries) := by
  match entries with
  | [] => exact trivial
  | (key, value) :: rest =>
      exact ⟨⟨key, rfl⟩, plain_datumNode value regular.1, plain_datumEntries rest regular.2⟩

end

theorem plain_tableNode {table : Table Datum}
    (regular : Value.RegularTable (format = .messagePack) table) :
    (tableNode table).Plain format :=
  plain_datumEntries table regular.2

/-- An optional text is plain where it is written. -/
theorem plain_optional {content : Option String} {node : Node}
    (isText : content.map Node.text = some node) : node.Plain format := by
  obtain ⟨text, -, rfl⟩ := Option.map_eq_some_iff.mp isText
  exact trivial

theorem plain_commonNode {common : Common Datum}
    (regular : common.Regular (format = .messagePack)) : (commonNode common).Plain format := by
  refine plain_record (commonNode_eq common) fun name content member => ?_
  simp only [List.mem_cons, Prod.mk.injEq, List.not_mem_nil, or_false] at member
  rcases member with ⟨-, same⟩ | ⟨-, same⟩ | ⟨-, same⟩ | ⟨-, same⟩ | ⟨-, same⟩ | ⟨-, same⟩
  · cases same
    exact trivial
  · cases same
    exact trivial
  · exact plain_optional same.symm
  · cases same
    exact plain_tableNode regular.config
  · cases same
    exact plain_tableNode regular.attributes
  · cases same
    exact plain_textNodes _

theorem plain_entityNode {memento : EntityMemento Datum}
    (regular : memento.Regular (format = .messagePack)) : (entityNode memento).Plain format := by
  refine plain_record (entityNode_eq memento) fun name content member => ?_
  simp only [List.mem_cons, Prod.mk.injEq, List.not_mem_nil, or_false] at member
  rcases member with ⟨-, same⟩ | ⟨-, same⟩ | ⟨-, same⟩ | ⟨-, same⟩ | ⟨-, same⟩ | ⟨-, same⟩ |
    ⟨-, same⟩
  · cases same
    exact plain_commonNode regular
  · exact plain_optional same.symm
  · cases same
    exact plain_textNodes _
  · cases same
    exact plain_textNodes _
  · cases same
    exact plain_textNodes _
  · cases same
    exact plain_textNodes _
  · exact plain_optional same.symm

theorem plain_locationNode {memento : LocationMemento Datum}
    (regular : memento.Regular (format = .messagePack)) :
    (locationNode memento).Plain format := by
  refine plain_record (locationNode_eq memento) fun name content member => ?_
  simp only [List.mem_cons, Prod.mk.injEq, List.not_mem_nil, or_false] at member
  rcases member with ⟨-, same⟩ | ⟨-, same⟩ | ⟨-, same⟩
  · cases same
    exact plain_commonNode regular
  · exact plain_optional same.symm
  · cases same
    exact plain_textNodes _

theorem plain_policyNode {memento : PolicyMemento Datum}
    (regular : memento.Regular (format = .messagePack)) : (policyNode memento).Plain format := by
  refine plain_record (policyNode_eq memento) fun name content member => ?_
  simp only [List.mem_cons, Prod.mk.injEq, List.not_mem_nil, or_false] at member
  rcases member with ⟨-, same⟩ | ⟨-, same⟩
  · cases same
    exact plain_commonNode regular.common
  · cases same
    exact plain_tableNode regular.flags

theorem plain_removedNode? {ids : IdSet} {node : Node} (isNode : removedNode? ids = some node) :
    node.Plain format := by
  unfold removedNode? at isNode
  split at isNode
  · cases isNode
  · cases isNode
    exact plain_textNodes ids

/-- The tree of a regular document is plain. -/
theorem plain_toNode {document : Document} (regular : document.Regular (format = .messagePack)) :
    document.toNode.Plain format := by
  refine plain_record (toNode_eq document) fun name content member => ?_
  simp only [List.mem_cons, Prod.mk.injEq, List.not_mem_nil, or_false] at member
  rcases member with ⟨-, same⟩ | ⟨-, same⟩ | ⟨-, same⟩ | ⟨-, same⟩ | ⟨-, same⟩ | ⟨-, same⟩ |
    ⟨-, same⟩ | ⟨-, same⟩ | ⟨-, same⟩
  · cases same
    have known : document.formatVersion ≤ 1 := regular.version
    exact plain_ofInt (by omega) (by omega)
  · cases same
    exact trivial
  · cases same
    exact plain_int64 _
  · cases same
    exact plain_list fun memento isMember =>
      plain_entityNode (regular.content.entities memento isMember)
  · cases same
    exact plain_list fun memento isMember =>
      plain_locationNode (regular.content.locations memento isMember)
  · cases same
    exact plain_list fun memento isMember =>
      plain_policyNode (regular.content.policies memento isMember)
  · exact plain_removedNode? same.symm
  · exact plain_removedNode? same.symm
  · exact plain_removedNode? same.symm

end GraphCheckpoint.Document
