import GraphCheckpoint.Proofs.Document.Fields
import GraphCheckpoint.Proofs.Encoding.Node

/-!
Contract: the limits of a document in terms of those of its records.

Owns:
- that the records of a legible document are legible two containers deeper, and the converse;
- that a document fits when its records do and there are not too many of them;
- that records that fit have short ids and names.

Does not own: the limits of an encoding.
-/

namespace GraphCheckpoint.Document

open GraphCheckpoint.Encoding

variable {α : Type} {limit : Nat}

theorem toNode_eq (document : Document) :
    document.toNode = .record (presentFields
      [("formatVersion", some (.ofInt document.formatVersion)),
        ("kind", some (.text (kindName document.kind))),
        ("createdAtUnixMs", some (.ofInt document.createdAtUnixMs.toInt)),
        ("entities", some (.list (document.content.entities.map entityNode))),
        ("locations", some (.list (document.content.locations.map locationNode))),
        ("policies", some (.list (document.content.policies.map policyNode))),
        ("removedEntityIds", removedNode? document.content.removedEntities),
        ("removedLocationIds", removedNode? document.content.removedLocations),
        ("removedPolicyIds", removedNode? document.content.removedPolicies)]) := by
  simp only [presentFields_some, presentFields_removed]
  simp [toNode, presentFields]

/-! ## Depth -/

theorem legible_list {print : α → Node} {items : List α}
    (legible : (Node.list (items.map print)).legible (limit + 1) = true) :
    ∀ item ∈ items, (print item).legible limit = true := by
  change Node.legibleItems limit _ = true at legible
  induction items with
  | nil => simp
  | cons item rest inductionHypothesis =>
      rw [List.map_cons, Node.legibleItems, Bool.and_eq_true] at legible
      intro other member
      rcases List.mem_cons.mp member with rfl | later
      · exact legible.1
      · exact inductionHypothesis legible.2 other later

theorem legible_list_of {print : α → Node} {items : List α}
    (legible : ∀ item ∈ items, (print item).legible limit = true) :
    (Node.list (items.map print)).legible (limit + 1) = true := by
  change Node.legibleItems limit _ = true
  induction items with
  | nil => rfl
  | cons item rest inductionHypothesis =>
      rw [List.map_cons, Node.legibleItems, Bool.and_eq_true]
      exact ⟨legible item (by simp), inductionHypothesis fun other member =>
        legible other (by simp [member])⟩

theorem legible_record_of {fields : List (String × Node)}
    (legible : ∀ field ∈ fields, field.2.legible limit = true) :
    (Node.record fields).legible (limit + 1) = true := by
  change Node.legibleEntries limit _ = true
  induction fields with
  | nil => rfl
  | cons field rest inductionHypothesis =>
      rw [List.map_cons, Node.legibleEntries, Bool.and_eq_true, Bool.and_eq_true]
      exact ⟨⟨rfl, legible field (by simp)⟩, inductionHypothesis fun other member =>
        legible other (by simp [member])⟩

/-- Every record of the content is legible to the given depth. -/
structure LegibleRecords (limit : Nat) (content : Delta Datum) : Prop where
  entities : ∀ memento ∈ content.entities, (entityNode memento).legible limit = true
  locations : ∀ memento ∈ content.locations, (locationNode memento).legible limit = true
  policies : ∀ memento ∈ content.policies, (policyNode memento).legible limit = true

theorem legibleRecords_of_toNode {document : Document}
    (legible : document.toNode.legible (limit + 2) = true) :
    LegibleRecords limit document.content := by
  obtain ⟨inner, isInner, fieldsLegible⟩ := legible_record (toNode_eq document) legible
  obtain rfl : inner = limit + 1 := by omega
  exact {
    entities := legible_list (fieldsLegible "entities" _ (by simp))
    locations := legible_list (fieldsLegible "locations" _ (by simp))
    policies := legible_list (fieldsLegible "policies" _ (by simp)) }

/-- A checkpoint removes nothing, so its records are all that nests in it. -/
theorem legible_checkpoint {graph : Graph Datum} (now : Int64)
    (records : LegibleRecords limit (Delta.ofGraph graph)) :
    (Document.make .checkpoint now (Delta.ofGraph graph)).toNode.legible (limit + 2) = true := by
  refine legible_record_of fun field member => ?_
  simp only [removedField, make, Delta.ofGraph, List.isEmpty_nil, if_true, List.append_nil,
    List.mem_cons, List.not_mem_nil, or_false] at member
  rcases member with rfl | rfl | rfl | rfl | rfl | rfl
  · rfl
  · rfl
  · rfl
  · exact legible_list_of records.entities
  · exact legible_list_of records.locations
  · exact legible_list_of records.policies

/-! ## Lengths -/

theorem fits_list {print : α → Node} {items : List α}
    (fits : (Node.list (items.map print)).Fits) : ∀ item ∈ items, (print item).Fits := by
  have itemsFit : Node.FitsItems (items.map print) := fits.2
  clear fits
  induction items with
  | nil => simp
  | cons item rest inductionHypothesis =>
      intro other member
      rcases List.mem_cons.mp member with rfl | later
      · exact itemsFit.1
      · exact inductionHypothesis itemsFit.2 other later

theorem fits_list_of {print : α → Node} {items : List α} (few : items.length < Node.lengthBound)
    (fit : ∀ item ∈ items, (print item).Fits) : (Node.list (items.map print)).Fits := by
  refine ⟨by rwa [List.length_map], ?_⟩
  clear few
  induction items with
  | nil => exact trivial
  | cons item rest inductionHypothesis =>
      exact ⟨fit item (by simp), inductionHypothesis fun other member => fit other (by simp [member])⟩

theorem fits_record {fields : List (String × Node)} (fits : (Node.record fields).Fits) :
    ∀ field ∈ fields, field.2.Fits := by
  have entriesFit : Node.FitsEntries (fields.map fun entry => (Node.text entry.1, entry.2)) :=
    fits.2
  clear fits
  induction fields with
  | nil => simp
  | cons field rest inductionHypothesis =>
      intro other member
      rcases List.mem_cons.mp member with rfl | later
      · exact entriesFit.2.1
      · exact inductionHypothesis entriesFit.2.2 other later

theorem fits_record_of {fields : List (String × Node)} (few : fields.length < Node.lengthBound)
    (fit : ∀ field ∈ fields, (bytesOfText field.1).length < Node.lengthBound ∧ field.2.Fits) :
    (Node.record fields).Fits := by
  refine ⟨by rwa [List.length_map], ?_⟩
  clear few
  induction fields with
  | nil => exact trivial
  | cons field rest inductionHypothesis =>
      have first := fit field (by simp)
      exact ⟨first.1, first.2, inductionHypothesis fun other member => fit other (by simp [member])⟩

/-- Every record of the content fits. -/
structure FittingRecords (content : Delta Datum) : Prop where
  entities : ∀ memento ∈ content.entities, (entityNode memento).Fits
  locations : ∀ memento ∈ content.locations, (locationNode memento).Fits
  policies : ∀ memento ∈ content.policies, (policyNode memento).Fits

/-- There are fewer records of each kind than the longest list has items. -/
structure Few {V : Type} (graph : Graph V) : Prop where
  entities : graph.entities.length < Node.lengthBound
  locations : graph.locations.length < Node.lengthBound
  policies : graph.policies.length < Node.lengthBound

/-- The id and the display name of a record that fits are short enough. -/
theorem short_of_fits {common : Common Datum} (fits : (commonNode common).Fits) :
    (bytesOfText common.id).length < Node.lengthBound ∧
      ∀ name, common.displayName = some name → (bytesOfText name).length < Node.lengthBound := by
  have fields := fits_record fits
  refine ⟨fields ("id", .text common.id) (by simp), fun name isName => ?_⟩
  exact fields ("displayName", .text name) (by simp [isName, optionalField])

/-- The common part of a record fits if the record does. -/
theorem fits_commonNode {common : Common Datum} {fields : List (String × Node)}
    (fits : (Node.record (("base", commonNode common) :: fields)).Fits) :
    (commonNode common).Fits :=
  fits_record fits _ List.mem_cons_self

theorem fittingRecords_of_toNode {document : Document} (fits : document.toNode.Fits) :
    FittingRecords document.content := by
  have fields := fits_record fits
  exact {
    entities := fits_list (fields ("entities", _) (by simp))
    locations := fits_list (fields ("locations", _) (by simp))
    policies := fits_list (fields ("policies", _) (by simp)) }

theorem fits_checkpoint {graph : Graph Datum} (now : Int64) (few : Few graph)
    (records : FittingRecords (Delta.ofGraph graph)) :
    (Document.make .checkpoint now (Delta.ofGraph graph)).toNode.Fits := by
  have short : ∀ name ∈ ["formatVersion", "kind", "createdAtUnixMs", "entities", "locations",
      "policies", "checkpoint"], (bytesOfText name).length < Node.lengthBound := by decide
  refine fits_record_of ?_ fun field member => ?_
  · simp only [removedField, make, Delta.ofGraph, List.isEmpty_nil, if_true, List.append_nil]
    exact show 6 < Node.lengthBound by decide
  · simp only [removedField, make, Delta.ofGraph, List.isEmpty_nil, if_true, List.append_nil,
      List.mem_cons, List.not_mem_nil, or_false] at member
    rcases member with rfl | rfl | rfl | rfl | rfl | rfl
    · exact ⟨short "formatVersion" (by simp), trivial⟩
    · exact ⟨short "kind" (by simp), short "checkpoint" (by simp)⟩
    · exact ⟨short "createdAtUnixMs" (by simp), trivial⟩
    · exact ⟨short "entities" (by simp), fits_list_of
        (by simpa [Table.values] using few.entities) records.entities⟩
    · exact ⟨short "locations" (by simp), fits_list_of
        (by simpa [Table.values] using few.locations) records.locations⟩
    · exact ⟨short "policies" (by simp), fits_list_of
        (by simpa [Table.values] using few.policies) records.policies⟩

end GraphCheckpoint.Document
