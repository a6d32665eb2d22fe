import GraphCheckpoint.Document
import GraphCheckpoint.Proofs.Graph

/-!
Contract: what documents make of a graph, whatever the graph was before them.

Owns:
- `Document.Decides`, the ids whose records a document sets or removes;
- the fold of documents over another graph: what they decide is as in the first fold, and all else
  is as in the other graph;
- that folding documents again changes nothing.

Does not own: where documents come from.

What stands under an id that some document decides is settled by the last such document alone.
-/

namespace GraphCheckpoint

variable {V : Type}

namespace Table

variable {α : Type} {key : String} {table other : Table α} {entries : List (String × α)}

/-- A key that is set holds the same whatever the table was. -/
theorem get?_insertAll_congr
    (agree : (∃ value, (key, value) ∈ entries) ∨ table.get? key = other.get? key) :
    (table.insertAll entries).get? key = (other.insertAll entries).get? key := by
  induction entries generalizing table other with
  | nil => exact agree.resolve_left nofun
  | cons entry rest inductionHypothesis =>
      refine inductionHypothesis ?_
      rw [get?_insert, get?_insert]
      rcases agree with ⟨value, member⟩ | same
      · rcases List.mem_cons.mp member with rfl | later
        · exact Or.inr (by simp)
        · exact Or.inl ⟨value, later⟩
      · rw [same]
        exact Or.inr rfl

theorem get?_insertAll_of_absent (absent : ∀ entry ∈ entries, entry.1 ≠ key) :
    (table.insertAll entries).get? key = table.get? key := by
  induction entries generalizing table with
  | nil => rfl
  | cons entry rest inductionHypothesis =>
      have goesOn : table.insertAll (entry :: rest) =
          (table.insert entry.1 entry.2).insertAll rest := rfl
      rw [goesOn, inductionHypothesis fun later member => absent later (by simp [member]),
        get?_insert, if_neg (absent entry (by simp)).symm]

end Table

/-! ## What a delta decides -/

namespace Delta

/-- The records of a kind that the delta brings. -/
def records (delta : Delta V) : ObjectKind → List (ObjectMemento V)
  | .entity => delta.entities.map .entity
  | .location => delta.locations.map .location
  | .policy => delta.policies.map .policy

/-- The ids of a kind that the delta removes. -/
def removed (delta : Delta V) : ObjectKind → IdSet
  | .entity => delta.removedEntities
  | .location => delta.removedLocations
  | .policy => delta.removedPolicies

/-- The delta sets or removes the record of the id. -/
def Touches (delta : Delta V) (kind : ObjectKind) (id : String) : Prop :=
  (∃ record ∈ delta.records kind, record.id = id) ∨ id ∈ delta.removed kind

instance (delta : Delta V) (kind : ObjectKind) (id : String) : Decidable (delta.Touches kind id) :=
  inferInstanceAs (Decidable (_ ∨ _))

end Delta

namespace Graph

variable {graph other : Graph V} {delta : Delta V} {kind : ObjectKind} {id : String}

/-- A delta sets and removes the records of each kind apart from the others. -/
theorem records_apply (delta : Delta V) (graph : Graph V) (kind : ObjectKind) :
    (graph.apply delta).records kind =
      ((graph.records kind).insertAll
        ((delta.records kind).map fun record => (record.id, record))).eraseAll
          (delta.removed kind) := by
  rw [apply_eq]
  cases kind <;>
  · simp only [records, Delta.records, Delta.removed, Table.mapValues_eraseAll,
      Table.mapValues_insertAll, List.map_map]
    rfl

/-- What a delta touches is the same afterwards, whatever stood there before. -/
theorem get?_records_apply_congr (keyed : graph.Keyed) (otherKeyed : other.Keyed)
    (agree : delta.Touches kind id ∨ (graph.records kind).get? id = (other.records kind).get? id) :
    ((graph.apply delta).records kind).get? id = ((other.apply delta).records kind).get? id := by
  rw [records_apply, records_apply, Table.get?_eraseAll ((keyed.ordered kind).insertAll _),
    Table.get?_eraseAll ((otherKeyed.ordered kind).insertAll _)]
  split
  · rfl
  · rename_i stays
    refine Table.get?_insertAll_congr (agree.imp_left fun touched => ?_)
    obtain ⟨record, member, isId⟩ := touched.resolve_right stays
    exact ⟨record, List.mem_map.mpr ⟨record, member, by rw [isId]⟩⟩

theorem get?_records_apply_of_not_touches (keyed : graph.Keyed)
    (untouched : ¬ delta.Touches kind id) :
    ((graph.apply delta).records kind).get? id = (graph.records kind).get? id := by
  rw [records_apply, Table.get?_eraseAll ((keyed.ordered kind).insertAll _),
    if_neg fun gone => untouched (Or.inr gone)]
  refine Table.get?_insertAll_of_absent fun entry member isId => untouched (Or.inl ?_)
  obtain ⟨record, isWritten, rfl⟩ := List.mem_map.mp member
  exact ⟨record, isWritten, isId⟩

/-- Keyed graphs with the same records under the same ids are the same. -/
theorem Keyed.ext (keyed : graph.Keyed) (otherKeyed : other.Keyed)
    (same : ∀ kind id, (graph.records kind).get? id = (other.records kind).get? id) :
    graph = other := by
  have entities : graph.entities = other.entities :=
    keyed.entitiesOrdered.ext otherKeyed.entitiesOrdered fun id => by
      have found := same .entity id
      simp only [records, Table.get?_mapValues] at found
      exact Option.map_injective (fun _ _ => ObjectMemento.entity.inj) found
  have locations : graph.locations = other.locations :=
    keyed.locationsOrdered.ext otherKeyed.locationsOrdered fun id => by
      have found := same .location id
      simp only [records, Table.get?_mapValues] at found
      exact Option.map_injective (fun _ _ => ObjectMemento.location.inj) found
  have policies : graph.policies = other.policies :=
    keyed.policiesOrdered.ext otherKeyed.policiesOrdered fun id => by
      have found := same .policy id
      simp only [records, Table.get?_mapValues] at found
      exact Option.map_injective (fun _ _ => ObjectMemento.policy.inj) found
  cases graph
  cases other
  simp only at entities locations policies
  rw [entities, locations, policies]

end Graph

/-! ## What documents decide -/

/-- The document settles what stands under the id: it touches the id, or clears the whole graph. -/
def Document.Decides (document : Document) (kind : ObjectKind) (id : String) : Prop :=
  document.kind = .checkpoint ∨ document.content.Touches kind id

instance (document : Document) (kind : ObjectKind) (id : String) :
    Decidable (document.Decides kind id) :=
  inferInstanceAs (Decidable (_ ∨ _))

namespace Graph

variable {graph other : Graph Datum} {document : Document} {documents : List Document}
  {kind : ObjectKind} {id : String}

theorem Keyed.applyDocument (keyed : graph.Keyed) (document : Document) :
    (graph.applyDocument document).Keyed := by
  rw [Graph.applyDocument]
  split
  · exact keyed.apply _
  · exact keyed_empty.apply _

theorem Keyed.applyDocuments (keyed : graph.Keyed) (documents : List Document) :
    (graph.applyDocuments documents).Keyed := by
  induction documents generalizing graph with
  | nil => exact keyed
  | cons document rest inductionHypothesis => exact inductionHypothesis (keyed.applyDocument document)

/-- What a document decides is the same afterwards, whatever stood there before. -/
theorem get?_applyDocument_congr (keyed : graph.Keyed) (otherKeyed : other.Keyed)
    (agree : document.Decides kind id ∨
      (graph.records kind).get? id = (other.records kind).get? id) :
    ((graph.applyDocument document).records kind).get? id =
      ((other.applyDocument document).records kind).get? id := by
  rw [applyDocument, applyDocument]
  split
  · rename_i isDelta
    refine get?_records_apply_congr keyed otherKeyed (agree.imp_left fun decides => ?_)
    refine decides.resolve_left fun isCheckpoint => ?_
    rw [isDelta] at isCheckpoint
    cases isCheckpoint
  · rfl

/-- What some document decides is the same after all of them, whatever stood there before. -/
theorem get?_applyDocuments_congr (keyed : graph.Keyed) (otherKeyed : other.Keyed)
    (agree : (∃ document ∈ documents, document.Decides kind id) ∨
      (graph.records kind).get? id = (other.records kind).get? id) :
    ((graph.applyDocuments documents).records kind).get? id =
      ((other.applyDocuments documents).records kind).get? id := by
  induction documents generalizing graph other with
  | nil => exact agree.resolve_left nofun
  | cons document rest inductionHypothesis =>
      refine inductionHypothesis (keyed.applyDocument document) (otherKeyed.applyDocument document) ?_
      rcases agree with ⟨decider, member, decides⟩ | same
      · rcases List.mem_cons.mp member with rfl | later
        · exact Or.inr (get?_applyDocument_congr keyed otherKeyed (Or.inl decides))
        · exact Or.inl ⟨decider, later, decides⟩
      · exact Or.inr (get?_applyDocument_congr keyed otherKeyed (Or.inr same))

theorem get?_applyDocuments_of_undecided (keyed : graph.Keyed)
    (undecided : ¬ ∃ document ∈ documents, document.Decides kind id) :
    ((graph.applyDocuments documents).records kind).get? id = (graph.records kind).get? id := by
  induction documents generalizing graph with
  | nil => rfl
  | cons document rest inductionHypothesis =>
      have notFirst : ¬ document.Decides kind id := fun decides =>
        undecided ⟨document, by simp, decides⟩
      have goesOn : graph.applyDocuments (document :: rest) =
          (graph.applyDocument document).applyDocuments rest := rfl
      rw [goesOn, inductionHypothesis (keyed.applyDocument document) fun ⟨decider, member, decides⟩ =>
        undecided ⟨decider, by simp [member], decides⟩]
      rw [applyDocument]
      split
      · exact get?_records_apply_of_not_touches keyed fun touches => notFirst (Or.inr touches)
      · rename_i isCheckpoint
        exact absurd (Or.inl isCheckpoint) notFirst

/-- Documents that are folded over another graph bring there what they decide, as it came out of
their first fold, and leave all else as it is there. -/
theorem get?_applyDocuments_over (keyed : graph.Keyed) (otherKeyed : other.Keyed)
    (documents : List Document) (kind : ObjectKind) (id : String) :
    ((other.applyDocuments documents).records kind).get? id =
      if ∃ document ∈ documents, document.Decides kind id then
        ((graph.applyDocuments documents).records kind).get? id
      else (other.records kind).get? id := by
  split
  · rename_i decided
    exact get?_applyDocuments_congr otherKeyed keyed (Or.inl decided)
  · rename_i undecided
    exact get?_applyDocuments_of_undecided otherKeyed undecided

/-- Folding documents again changes nothing. -/
theorem applyDocuments_again (keyed : graph.Keyed) (documents : List Document) :
    (graph.applyDocuments documents).applyDocuments documents = graph.applyDocuments documents := by
  have folded := keyed.applyDocuments documents
  refine (folded.applyDocuments documents).ext folded fun kind id => ?_
  rw [get?_applyDocuments_over keyed folded]
  split <;> rfl

end Graph

end GraphCheckpoint
