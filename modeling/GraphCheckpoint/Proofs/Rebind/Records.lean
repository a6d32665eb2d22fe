import GraphCheckpoint.Proofs.Graph
import GraphCheckpoint.Proofs.Rebind.Mentions
import GraphCheckpoint.Proofs.Stateful
import GraphCheckpoint.Rebind.Pass

/-!
Contract: the records of a loaded graph, and their registration.

Owns:
- `Graph.Names`, what a graph has records of, and the conditions under which its records can be rebuilt;
- `Graph.mentions`, the records in the order of their registration, and `Graph.Ordered`, by which no
  record comes twice among them;
- registration of all records as one loop, however it ends, and what the arena tracks after it.

Does not own: how the graph was loaded.
-/

namespace GraphCheckpoint

variable {V W : Type} {kind : ObjectKind} {id : String} {record : ObjectMemento V}

theorem ObjectKind.mem_all (kind : ObjectKind) : kind ∈ all := by
  cases kind <;> decide

/-- The objects to which the links of a record lead. -/
def ObjectMemento.links : ObjectMemento V → List ObjectKey
  | .entity memento => memento.links
  | .location memento => memento.links
  | .policy _ => []

namespace Graph

variable {graph : Graph V}

/-- The graph has a record of the kind and id. -/
def Names (graph : Graph V) (kind : ObjectKind) (id : String) : Prop :=
  graph.contains kind id = true

theorem kind_of_mem_records {entry : String × ObjectMemento V}
    (member : entry ∈ graph.records kind) : entry.2.kind = kind := by
  cases kind <;>
  · obtain ⟨old, -, rfl⟩ := List.mem_map.mp member
    rfl

theorem names_iff : graph.Names kind id ↔ ∃ record, (graph.records kind).get? id = some record := by
  rw [Names, ← Option.isSome_iff_exists]
  cases kind <;>
  · simp only [contains, records, Table.contains, Table.get?_mapValues, Option.isSome_map]

theorem names_iff_mem_keys :
    graph.Names kind id ↔ id ∈ (graph.records kind).map Prod.fst := by
  rw [names_iff]
  constructor
  · rintro ⟨record, found⟩
    exact List.mem_map_of_mem (Table.mem_of_get? found)
  · intro member
    exact Option.isSome_iff_exists.mp (Table.mem_keys_iff.mp member)

/-- No id belongs to two kinds. -/
def OneKind (graph : Graph V) : Prop :=
  ∀ one other id, graph.Names one id → graph.Names other id → one = other

/-- Whether no id belongs to two kinds shows in the keys. -/
theorem oneKind_iff : graph.OneKind ↔
    ∀ one ∈ ObjectKind.all, ∀ other ∈ ObjectKind.all,
      ∀ id ∈ (graph.records one).map Prod.fst, id ∈ (graph.records other).map Prod.fst →
        one = other := by
  simp only [OneKind, names_iff_mem_keys]
  constructor
  · exact fun oneKind one _ other _ id => oneKind one other id
  · intro oneKind one other id
    exact oneKind one one.mem_all other other.mem_all id

instance : Decidable graph.OneKind := decidable_of_iff' _ oneKind_iff

/-- Every link leads to a record of the right kind. -/
def Linked (graph : Graph V) : Prop :=
  ∀ kind, ∀ entry ∈ graph.records kind, ∀ key ∈ entry.2.links, graph.Names key.kind key.id

instance (kind : ObjectKind) (id : String) : Decidable (graph.Names kind id) :=
  inferInstanceAs (Decidable (graph.contains kind id = true))

theorem linked_iff : graph.Linked ↔ ∀ kind ∈ ObjectKind.all, ∀ entry ∈ graph.records kind,
    ∀ key ∈ entry.2.links, graph.Names key.kind key.id :=
  ⟨fun linked kind _ => linked kind, fun linked kind => linked kind kind.mem_all⟩

instance : Decidable graph.Linked := decidable_of_iff' _ linked_iff

/-- A key that comes behind others is none of them. -/
theorem Keyed.not_mem_done (keyed : graph.Keyed) {done rest : Table (ObjectMemento V)}
    {entry : String × ObjectMemento V} (isWhole : graph.records kind = done ++ entry :: rest) :
    entry.1 ∉ done.map Prod.fst := by
  have ordered := keyed.ordered kind
  rw [isWhole, Table.Ordered, List.pairwise_append] at ordered
  intro member
  obtain ⟨earlier, isEarlier, same⟩ := List.mem_map.mp member
  exact String.lt_irrefl entry.1 (same ▸ ordered.2.2 earlier isEarlier entry (by simp))

end Graph

/-! ## Conversions without effects -/

section Pure

variable (conversion : Conversion Id V W)

/-- The record with its values converted. -/
def ObjectMemento.converted : ObjectMemento V → ObjectMemento W
  | .entity memento => .entity (memento.convert conversion)
  | .location memento => .location (memento.convert conversion)
  | .policy memento => .policy (memento.convert conversion)

@[simp] theorem ObjectMemento.links_converted (record : ObjectMemento V) :
    (record.converted conversion).links = record.links := by
  cases record <;> rfl

@[simp] theorem ObjectMemento.typeName_converted (record : ObjectMemento V) :
    (record.converted conversion).typeName = conversion.typeName record.typeName := by
  cases record <;> rfl

namespace Graph

variable (graph : Graph V)

theorem records_convert (kind : ObjectKind) :
    Graph.records (Graph.convert (m := Id) conversion graph) kind =
      (graph.records kind).mapValues (ObjectMemento.converted conversion) := by
  rw [convert_pure]
  cases kind <;>
  · simp only [records, Table.mapValues, List.map_map]
    rfl

theorem names_convert :
    Graph.Names (Graph.convert (m := Id) conversion graph) = graph.Names := by
  funext kind id
  rw [eq_iff_iff, names_iff_mem_keys, names_iff_mem_keys, records_convert]
  exact iff_of_eq (congrArg (id ∈ ·) (Table.keys_mapValues _ _))

theorem linked_convert :
    Graph.Linked (Graph.convert (m := Id) conversion graph) ↔ graph.Linked := by
  simp only [Linked, names_convert, records_convert, Table.mapValues, List.forall_mem_map,
    ObjectMemento.links_converted]

section Converted

variable {V W X : Type} {left : Conversion Id V X} {right : Conversion Id W X} {one : Graph V}
  {other : Graph W} (same : Graph.convert (m := Id) left one = Graph.convert (m := Id) right other)

include same

/-- Graphs that are converted to the same one have records of the same names. -/
theorem names_of_converted : one.Names = other.Names := by
  rw [← names_convert left, ← names_convert right, same]

theorem linked_of_converted : one.Linked ↔ other.Linked := by
  rw [← linked_convert left, ← linked_convert right, same]

end Converted

end Graph

end Pure

/-! ## Registration -/

theorem Arena.Tracks.congr {arena : Arena} {heap : Heap}
    {names registered further : ObjectKind → String → Prop}
    (tracks : arena.Tracks names registered heap)
    (same : ∀ kind id, registered kind id ↔ further kind id) :
    arena.Tracks names further heap where
  toPristine := tracks.toPristine
  within := tracks.within
  recorded := fun id entry found => (tracks.recorded id entry found).trans (same _ _)
  present := fun kind id isRegistered => tracks.present kind id ((same kind id).mpr isRegistered)

namespace Graph

variable {graph : Graph V}

/-- The records of a kind as mentions of their ids, with their types. -/
def mentionsOf (graph : Graph V) (kind : ObjectKind) : List Mention :=
  (graph.records kind).map fun entry => ⟨kind, entry.1, some entry.2.typeName⟩

/-- The records of a graph, in the order of their registration. -/
def mentions (graph : Graph V) : List Mention := ObjectKind.rebindOrder.flatMap graph.mentionsOf

/-- Records are mentioned as before if a conversion leaves their types as they are. -/
theorem mentions_convert (conversion : Conversion Id V W) (graph : Graph V)
    (sameTypes : ∀ typeName, conversion.typeName typeName = typeName) :
    Graph.mentions (Graph.convert (m := Id) conversion graph) = graph.mentions := by
  have same : Graph.mentionsOf (Graph.convert (m := Id) conversion graph) = graph.mentionsOf := by
    funext kind
    simp only [mentionsOf, records_convert, Table.mapValues, List.map_map, Function.comp_def,
      ObjectMemento.typeName_converted, sameTypes]
  rw [mentions, same, mentions]

theorem names_iff_exists_mention :
    graph.Names kind id ↔ ∃ mention ∈ graph.mentions, mention.kind = kind ∧ mention.id = id := by
  rw [names_iff_mem_keys]
  constructor
  · intro isKey
    obtain ⟨entry, member, rfl⟩ := List.mem_map.mp isKey
    exact ⟨_, List.mem_flatMap.mpr ⟨kind, kind.mem_rebindOrder, List.mem_map_of_mem member⟩, rfl, rfl⟩
  · rintro ⟨mention, member, rfl, rfl⟩
    obtain ⟨kind, -, isOfKind⟩ := List.mem_flatMap.mp member
    obtain ⟨entry, isEntry, rfl⟩ := List.mem_map.mp isOfKind
    exact List.mem_map_of_mem isEntry

/-- Every kind has its records in the order of their keys. -/
def Ordered (graph : Graph V) : Prop := ∀ kind, (graph.records kind).Ordered

theorem ordered_iff : graph.Ordered ↔ ∀ kind ∈ ObjectKind.all,
    (graph.records kind).Pairwise fun earlier later => earlier.1 < later.1 :=
  ⟨fun ordered kind _ => ordered kind, fun ordered kind => ordered kind kind.mem_all⟩

instance : Decidable graph.Ordered := decidable_of_iff' _ ordered_iff

/-- The kinds and keys of the records, in the order of their registration. -/
def recordKeys (graph : Graph V) : List ObjectKey :=
  ObjectKind.rebindOrder.flatMap fun kind => (graph.records kind).map fun entry => ⟨kind, entry.1⟩

/-- No two records have the same kind and key. -/
theorem Ordered.recordKeys_nodup (ordered : graph.Ordered) : graph.recordKeys.Nodup := by
  rw [List.Nodup, recordKeys, List.pairwise_flatMap]
  constructor
  · intro kind _
    rw [List.pairwise_map]
    refine List.Pairwise.imp (fun {one other} isLess same => ?_) (ordered kind)
    exact String.ne_of_lt isLess (congrArg ObjectKey.id same)
  · have distinct : ObjectKind.rebindOrder.Pairwise (· ≠ ·) := by decide
    refine distinct.imp fun differs one isOne other isOther same => differs ?_
    obtain ⟨_, _, rfl⟩ := List.mem_map.mp isOne
    obtain ⟨_, _, rfl⟩ := List.mem_map.mp isOther
    exact congrArg ObjectKey.kind same

theorem map_mentions : (graph.mentions.map fun mention => (⟨mention.kind, mention.id⟩ : ObjectKey)) =
    graph.recordKeys := by
  simp only [mentions, mentionsOf, recordKeys, List.map_flatMap, List.map_map, Function.comp_def]

/-- A record that comes behind others is none of them. -/
theorem Ordered.not_mentioned (ordered : graph.Ordered) {done rest : List Mention}
    {mention : Mention} (isWhole : graph.mentions = done ++ mention :: rest) :
    ¬ ∃ earlier ∈ done, earlier.kind = mention.kind ∧ earlier.id = mention.id := by
  have distinct := ordered.recordKeys_nodup
  rw [← map_mentions, isWhole, List.map_append, List.map_cons] at distinct
  rintro ⟨earlier, isEarlier, sameKind, sameId⟩
  refine (List.nodup_append.mp distinct).2.2 _ (List.mem_map_of_mem isEarlier) _
    List.mem_cons_self ?_
  rw [sameKind, sameId]

end Graph

namespace Pass

variable {graph : Graph LiveValue} {heap : Heap} {state : PassState}

/-- Registration of all records goes on as its rounds do, and changes nothing but the arena. -/
theorem registerAll_ends_of (graph : Graph LiveValue) {fails : Failure → Prop}
    (holds : List Mention → Arena → Prop)
    (round : ∀ done kind id typeName rest arena,
      graph.mentions = done ++ ⟨kind, id, some typeName⟩ :: rest → holds done arena →
      (∃ failure, arena.register kind id typeName = .error failure ∧ fails failure) ∨
        ∃ after, arena.register kind id typeName = .ok after ∧
          holds (done ++ [⟨kind, id, some typeName⟩]) after)
    (atFirst : holds [] state.arena) :
    Ends (registerAll graph) state fails fun _ after =>
      after = { state with arena := after.arena } ∧ holds graph.mentions after.arena := by
  refine ends_forM ObjectKind.rebindOrder
    (fun done (next : PassState) => next = { state with arena := next.arena } ∧
      holds (done.flatMap graph.mentionsOf) next.arena)
    (fun done kind rest next isWhole held => ?_) ⟨rfl, atFirst⟩
  have isMiddle : graph.mentions = done.flatMap graph.mentionsOf ++
      (graph.mentionsOf kind ++ rest.flatMap graph.mentionsOf) := by
    rw [Graph.mentions, isWhole, List.flatMap_append, List.flatMap_cons]
  refine Ends.imp (ends_forM (graph.records kind)
    (fun gone (later : PassState) => later = { state with arena := later.arena } ∧
      holds (done.flatMap graph.mentionsOf ++
        gone.map fun entry => ⟨kind, entry.1, some entry.2.typeName⟩) later.arena)
    (fun gone entry left later isRecords laterHeld => ?_) (by simpa using held))
    (fun _ failed => failed) fun _ after afterHeld => ?_
  · refine Ends.step (rfl : Pass.arena later = (.ok later.arena, later)) ?_
    rcases round _ kind entry.1 entry.2.typeName
      ((left.map fun entry => ⟨kind, entry.1, some entry.2.typeName⟩) ++
        rest.flatMap graph.mentionsOf) later.arena
      (by rw [isMiddle, Graph.mentionsOf, isRecords]; simp) laterHeld.2 with
        ⟨failure, ran, failed⟩ | ⟨registered, ran, registeredHolds⟩
    · exact .of_error (bind_error ((lift_run _).trans (by rw [ran]))) failed
    · refine .step ((lift_run _).trans (by rw [ran])) (.of_ok rfl ⟨?_, ?_⟩)
      · rw [laterHeld.1]
      · simpa using registeredHolds
  · simpa [Graph.mentionsOf] using afterHeld

/-- All records are registered: then every id that has been met has one. -/
theorem registerAll_run (keyed : graph.Keyed) (oneKind : graph.OneKind)
    (tracks : state.arena.Tracks graph.Names (fun _ _ => False) heap) :
    ∃ arena, registerAll graph state = (.ok (), { state with arena := arena }) ∧
      arena.Tracks graph.Names graph.Names heap ∧ state.arena.Grown arena := by
  have ends : Ends (registerAll graph) state (fun _ => False) _ := registerAll_ends_of graph
    (fun done arena => arena.Tracks graph.Names (fun kind id =>
      ∃ mention ∈ done, mention.kind = kind ∧ mention.id = id) heap ∧ state.arena.Grown arena)
    (by
      intro done kind id typeName rest arena isWhole ⟨tracks, grown⟩
      have isNamed : graph.Names kind id := Graph.names_iff_exists_mention.mpr
        ⟨⟨kind, id, some typeName⟩, by simp [isWhole], rfl, rfl⟩
      obtain ⟨after, ran, afterTracks, afterGrown⟩ := tracks.register
        (fun other key => ∃ mention ∈ done ++ [⟨kind, id, some typeName⟩],
          mention.kind = other ∧ mention.id = key) typeName oneKind isNamed
        (Graph.Ordered.not_mentioned keyed.ordered isWhole) (by
          intro other key
          simp only [List.mem_append, List.mem_singleton, or_and_right, exists_or, exists_eq_left]
          exact or_congr Iff.rfl (and_congr eq_comm eq_comm))
      exact Or.inr ⟨after, ran, afterTracks, grown.trans afterGrown⟩)
    ⟨tracks.congr (by simp), Arena.Grown.refl _⟩
  obtain ⟨_, after, ran, isAfter, afterTracks, grown⟩ := ends.run
  refine ⟨after.arena, isAfter ▸ ran, afterTracks.congr fun kind id => ?_, grown⟩
  exact Graph.names_iff_exists_mention.symm

end Pass

end GraphCheckpoint
