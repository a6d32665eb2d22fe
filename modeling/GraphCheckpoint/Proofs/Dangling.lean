import GraphCheckpoint.Proofs.Placeholders
import GraphCheckpoint.Proofs.Rebind.Loading
import GraphCheckpoint.Tool.Run

/-!
Contract: the references of a graph that lead to no record of it.

Owns:
- sets of keys in order, and what gathering keys into one leaves;
- which keys are dangling, for a stored graph and for the graph that is loaded from it;
- that the placeholders handed out while a graph loads name no key that is dangling besides.

Does not own: what a rebind makes of a dangling reference.
-/

namespace GraphCheckpoint

/-! ## Sets of keys in order -/

namespace ObjectKey

variable {one other third : ObjectKey}

theorem before_iff : one.before other = true ↔
    one.kind.rank < other.kind.rank ∨ (one.kind = other.kind ∧ one.id < other.id) := by
  simp only [before, Bool.or_eq_true, Bool.and_eq_true, decide_eq_true_eq, beq_iff_eq]
  refine or_congr Iff.rfl (and_congr_left fun _ => ⟨ObjectKind.rank_injective, ?_⟩)
  exact congrArg ObjectKind.rank

theorem before_trans (early : one.before other = true) (late : other.before third = true) :
    one.before third = true := by
  rw [before_iff] at early late ⊢
  rcases early with lower | ⟨sameKind, lowerId⟩ <;> rcases late with lowerToo | ⟨sameToo, lowerIdToo⟩
  · exact Or.inl (Nat.lt_trans lower lowerToo)
  · exact Or.inl (sameToo ▸ lower)
  · exact Or.inl (sameKind ▸ lowerToo)
  · exact Or.inr ⟨sameKind.trans sameToo, String.lt_trans lowerId lowerIdToo⟩

theorem ne_of_before (early : one.before other = true) : one ≠ other := by
  rintro rfl
  rcases before_iff.mp early with lower | ⟨-, lowerId⟩
  · exact Nat.lt_irrefl _ lower
  · exact String.lt_irrefl _ lowerId

theorem before_of_not_before (differs : one ≠ other) (notBefore : one.before other = false) :
    other.before one = true := by
  have notLower := fun lower => Bool.eq_false_iff.mp notBefore (before_iff.mpr lower)
  rw [before_iff]
  rcases Nat.lt_trichotomy one.kind.rank other.kind.rank with lower | same | higher
  · exact absurd (Or.inl lower) notLower
  · have sameKind := ObjectKind.rank_injective same
    refine Or.inr ⟨sameKind.symm, String.not_le.mp fun notHigher => ?_⟩
    have sameId : one.id = other.id := String.le_antisymm notHigher
      (String.not_lt.mp fun lowerId => notLower (Or.inr ⟨sameKind, lowerId⟩))
    exact differs (by rw [ObjectKey.mk.injEq]; exact ⟨sameKind, sameId⟩)
  · exact Or.inl higher

end ObjectKey

namespace Graph

variable {V W : Type} {key other : ObjectKey} {keys found : List ObjectKey}

/-- Keys in their order, each once. -/
def Ascending (keys : List ObjectKey) : Prop :=
  keys.Pairwise fun one other => one.before other = true

theorem mem_insertKey : other ∈ insertKey key keys ↔ other = key ∨ other ∈ keys := by
  induction keys with
  | nil => exact List.mem_cons
  | cons candidate rest inductionHypothesis =>
      rw [insertKey]
      split
      · rename_i same
        rw [same, List.mem_cons, ← or_assoc, or_self]
      · split
        · exact List.mem_cons
        · rw [List.mem_cons, inductionHypothesis, List.mem_cons, or_left_comm]

theorem ascending_insertKey (ascending : Ascending keys) : Ascending (insertKey key keys) := by
  induction keys with
  | nil => exact List.pairwise_singleton _ _
  | cons candidate rest inductionHypothesis =>
      obtain ⟨first, others⟩ := List.pairwise_cons.mp ascending
      rw [insertKey]
      split
      · exact ascending
      · rename_i differs
        split
        · rename_i early
          refine List.pairwise_cons.mpr ⟨fun later member => ?_, ascending⟩
          rcases List.mem_cons.mp member with rfl | isLater
          · exact early
          · exact ObjectKey.before_trans early (first later isLater)
        · rename_i notEarly
          refine List.pairwise_cons.mpr ⟨fun later member => ?_, inductionHypothesis others⟩
          rcases mem_insertKey.mp member with rfl | isLater
          · exact ObjectKey.before_of_not_before differs (Bool.eq_false_iff.mpr notEarly)
          · exact first later isLater

/-- A key that is there is not added again. -/
theorem insertKey_of_mem (ascending : Ascending keys) (member : key ∈ keys) :
    insertKey key keys = keys := by
  induction keys with
  | nil => cases member
  | cons candidate rest inductionHypothesis =>
      obtain ⟨first, others⟩ := List.pairwise_cons.mp ascending
      rw [insertKey]
      split
      · rfl
      · rename_i differs
        have isLater : key ∈ rest := (List.mem_cons.mp member).resolve_left differs
        have late := first key isLater
        rw [if_neg fun early => ObjectKey.ne_of_before (ObjectKey.before_trans early late) rfl,
          inductionHypothesis others isLater]

/-! ## Gathering what a graph does not hold -/

/-- Adds those of some keys to a set of which the graph has no record. -/
def gather (graph : Graph V) (keys found : List ObjectKey) : List ObjectKey :=
  keys.foldl (fun missing key =>
    if graph.contains key.kind key.id then missing else insertKey key missing) found

theorem dangling_eq_gather (ofTable : Table V → List ObjectKey) (graph : Graph V) :
    graph.dangling ofTable = graph.gather (graph.references ofTable) [] := rfl

variable {graph : Graph V}

theorem gather_cons : graph.gather (key :: keys) found = graph.gather keys
    (if graph.contains key.kind key.id then found else insertKey key found) := rfl

theorem mem_gather : other ∈ graph.gather keys found ↔
    other ∈ found ∨ (other ∈ keys ∧ ¬ graph.Names other.kind other.id) := by
  induction keys generalizing found with
  | nil => simp [gather]
  | cons key rest inductionHypothesis =>
      rw [gather_cons, inductionHypothesis]
      split
      · rename_i isNamed
        refine or_congr Iff.rfl (and_congr_left fun notNamed => ?_)
        rw [List.mem_cons, or_iff_right]
        rintro rfl
        exact notNamed isNamed
      · rename_i notNamed
        rw [mem_insertKey, List.mem_cons, or_and_right, or_assoc, or_left_comm]
        refine or_congr Iff.rfl (or_congr ?_ Iff.rfl)
        refine ⟨fun same => ⟨same, same ▸ notNamed⟩, And.left⟩

theorem ascending_gather (ascending : Ascending found) : Ascending (graph.gather keys found) := by
  induction keys generalizing found with
  | nil => exact ascending
  | cons key rest inductionHypothesis =>
      rw [gather_cons]
      refine inductionHypothesis ?_
      split
      · exact ascending
      · exact ascending_insertKey ascending

/-- Keys that have been gathered before change nothing. -/
theorem gather_of_found (ascending : Ascending found)
    (known : ∀ key ∈ keys, ¬ graph.Names key.kind key.id → key ∈ found) :
    graph.gather keys found = found := by
  induction keys with
  | nil => rfl
  | cons key rest inductionHypothesis =>
      have unchanged : (if graph.contains key.kind key.id then found else insertKey key found) =
          found := by
        split
        · rfl
        · rename_i notNamed
          exact insertKey_of_mem ascending (known key List.mem_cons_self notNamed)
      rw [gather_cons, unchanged]
      exact inductionHypothesis fun other member => known other (List.mem_cons_of_mem _ member)

/-- A key is dangling if the graph refers to it and has no record of it. -/
theorem mem_dangling {ofTable : Table V → List ObjectKey} : key ∈ graph.dangling ofTable ↔
    key ∈ graph.references ofTable ∧ ¬ graph.Names key.kind key.id := by
  rw [dangling_eq_gather, mem_gather, or_iff_right List.not_mem_nil]

theorem ascending_dangling (ofTable : Table V → List ObjectKey) :
    Ascending (graph.dangling ofTable) :=
  ascending_gather List.Pairwise.nil

/-! ## What a graph refers to -/

/-- A graph refers to what its records link to, and to what their values refer to. -/
theorem mem_references {ofTable : Table V → List ObjectKey} : key ∈ graph.references ofTable ↔
    (∃ kind, ∃ entry ∈ graph.records kind, key ∈ entry.2.links) ∨
      key ∈ graph.valueReferences ofTable := by
  have ofLinks : (∃ kind, ∃ entry ∈ graph.records kind, key ∈ entry.2.links) ↔
      (∃ memento ∈ graph.entities.values, key ∈ memento.links) ∨
        ∃ memento ∈ graph.locations.values, key ∈ memento.links := by
    simp only [Table.values, List.mem_map]
    constructor
    · rintro ⟨kind, _, member, isLink⟩
      cases kind with
      | entity =>
          obtain ⟨entry, isEntry, rfl⟩ := List.mem_map.mp member
          exact Or.inl ⟨_, ⟨entry, isEntry, rfl⟩, isLink⟩
      | location =>
          obtain ⟨entry, isEntry, rfl⟩ := List.mem_map.mp member
          exact Or.inr ⟨_, ⟨entry, isEntry, rfl⟩, isLink⟩
      | policy =>
          obtain ⟨entry, isEntry, rfl⟩ := List.mem_map.mp member
          cases isLink
    · rintro (⟨_, ⟨entry, isEntry, rfl⟩, isLink⟩ | ⟨_, ⟨entry, isEntry, rfl⟩, isLink⟩)
      · exact ⟨.entity, _, List.mem_map_of_mem isEntry, isLink⟩
      · exact ⟨.location, _, List.mem_map_of_mem isEntry, isLink⟩
  rw [ofLinks]
  simp only [references, valueReferences, List.mem_append, List.mem_flatMap, or_assoc]

/-- A conversion that leaves the references of tables alone leaves those of a graph alone. -/
theorem references_convert (conversion : Conversion Id V W) {ofTable : Table V → List ObjectKey}
    {ofConverted : Table W → List ObjectKey}
    (ofTables : ∀ table, ofConverted (conversion.table table) = ofTable table) (graph : Graph V) :
    Graph.references ofConverted (Graph.convert (m := Id) conversion graph) =
      graph.references ofTable := by
  have values : Graph.valueReferences ofConverted (Graph.convert (m := Id) conversion graph) =
      (graph.valueReferences ofTable).map id :=
    valueReferences_convert conversion
      (fun table => (ofTables table).trans (List.map_id _).symm) graph
  rw [List.map_id] at values
  simp only [references, List.append_assoc]
  simp only [valueReferences, List.append_assoc] at values
  rw [values, convert_pure]
  simp only [Table.values, Table.mapValues, List.map_map, List.flatMap_map]
  rfl

/-- Graphs that refer to the same and name the same have the same dangling references. -/
theorem dangling_congr {left : Graph V} {right : Graph W} {ofLeft : Table V → List ObjectKey}
    {ofRight : Table W → List ObjectKey} (names : left.Names = right.Names)
    (references : left.references ofLeft = right.references ofRight) :
    left.dangling ofLeft = right.dangling ofRight := by
  have contained : ∀ kind id, left.contains kind id = right.contains kind id := fun kind id =>
    Bool.eq_iff_iff.mpr (iff_of_eq (congrFun (congrFun names kind) id))
  simp only [dangling, references, contained]

end Graph

/-! ## Loaded graphs -/

namespace Value

variable {ρ ρ' δ δ' : Type}

/-- What the values of a table refer to. -/
def keysOfEntries (idOf : ρ → String) (table : Table (Value ρ δ)) : List ObjectKey :=
  (referencesOfEntries table).map fun reference => ⟨reference.1, idOf reference.2⟩

theorem keysOfEntries_of_map {change : ρ → ρ'} {idOf : ρ' → String} {table : Table (Value ρ δ)}
    {other : Table (Value ρ' δ')} (same : referencesOfEntries other =
      (referencesOfEntries table).map fun reference => (reference.1, change reference.2)) :
    keysOfEntries idOf other = keysOfEntries (idOf ∘ change) table := by
  rw [keysOfEntries, same, List.map_map]
  rfl

mutual

/-- Computed parts that have become nothing refer to nothing, and the others are left alone. -/
theorem references_settleWith (value : Value ρ δ) :
    ∃ settled, value.settleWith (fun _ => some none) = some settled ∧
      (settled.elim [] references) = value.references := by
  match value with
  | .null | .boolean _ | .integer _ | .float _ | .text _ | .entity _ | .location _ | .deferred _ =>
      exact ⟨_, rfl, rfl⟩
  | .list items =>
      obtain ⟨settled, isSettled, same⟩ := references_settleItemsWith items
      exact ⟨some (.list settled), by rw [settleWith, isSettled]; rfl, same⟩
  | .map entries =>
      obtain ⟨settled, isSettled, same⟩ := references_settleEntriesWith entries
      exact ⟨some (.map settled), by rw [settleWith, isSettled]; rfl, same⟩

theorem references_settleItemsWith (items : List (Value ρ δ)) :
    ∃ settled, settleItemsWith (fun _ => some none) items = some settled ∧
      referencesOfItems settled = referencesOfItems items := by
  match items with
  | [] => exact ⟨[], rfl, rfl⟩
  | item :: rest =>
      obtain ⟨first, isFirst, sameFirst⟩ := references_settleWith item
      obtain ⟨others, areOthers, sameOthers⟩ := references_settleItemsWith rest
      refine ⟨first.getD .null :: others, ?_, ?_⟩
      · rw [settleItemsWith, isFirst, areOthers]
        rfl
      · rw [referencesOfItems, referencesOfItems, ← sameFirst, sameOthers]
        cases first <;> rfl

theorem references_settleEntriesWith (entries : List (String × Value ρ δ)) :
    ∃ settled, settleEntriesWith (fun _ => some none) entries = some settled ∧
      referencesOfEntries settled = referencesOfEntries entries := by
  match entries with
  | [] => exact ⟨[], rfl, rfl⟩
  | (key, value) :: rest =>
      obtain ⟨first, isFirst, sameFirst⟩ := references_settleWith value
      obtain ⟨others, areOthers, sameOthers⟩ := references_settleEntriesWith rest
      cases first with
      | none =>
          refine ⟨others, by rw [settleEntriesWith, isFirst, areOthers]; rfl, ?_⟩
          rw [referencesOfEntries, ← sameFirst, sameOthers]
          rfl
      | some present =>
          refine ⟨(key, present) :: others, by rw [settleEntriesWith, isFirst, areOthers]; rfl, ?_⟩
          rw [referencesOfEntries, referencesOfEntries, ← sameFirst, sameOthers]
          rfl

end

mutual

/-- Values refer to entities and locations alone. -/
theorem kind_of_references (value : Value ρ δ) :
    ∀ reference ∈ value.references, reference.1 = .entity ∨ reference.1 = .location := by
  match value with
  | .null | .boolean _ | .integer _ | .float _ | .text _ | .deferred _ =>
      exact fun _ member => absurd member List.not_mem_nil
  | .entity _ => exact fun _ member => Or.inl (congrArg Prod.fst (List.mem_singleton.mp member))
  | .location _ => exact fun _ member => Or.inr (congrArg Prod.fst (List.mem_singleton.mp member))
  | .list items => exact kind_of_referencesOfItems items
  | .map entries => exact kind_of_referencesOfEntries entries

theorem kind_of_referencesOfItems (items : List (Value ρ δ)) :
    ∀ reference ∈ referencesOfItems items,
      reference.1 = .entity ∨ reference.1 = .location := by
  match items with
  | [] => exact fun _ member => absurd member List.not_mem_nil
  | item :: rest =>
      exact fun reference member => (List.mem_append.mp member).elim
        (kind_of_references item reference) (kind_of_referencesOfItems rest reference)

theorem kind_of_referencesOfEntries (entries : List (String × Value ρ δ)) :
    ∀ reference ∈ referencesOfEntries entries,
      reference.1 = .entity ∨ reference.1 = .location := by
  match entries with
  | [] => exact fun _ member => absurd member List.not_mem_nil
  | (_, value) :: rest =>
      exact fun reference member => (List.mem_append.mp member).elim
        (kind_of_references value reference) (kind_of_referencesOfEntries rest reference)

end

end Value

/-- Without computed values, a table refers to what it refers to directly. -/
theorem Cells.referencedKeys_empty (table : Table LiveValue) :
    Cells.empty.referencedKeys table = Value.keysOfEntries Handle.id table := by
  have nothing : Cells.empty.becomeWithin Cells.empty.size = fun _ => some none := by
    funext cell
    simp [Cells.size, Cells.empty, Cells.becomeWithin, Cells.state]
  obtain ⟨settled, isSettled, same⟩ := Value.references_settleEntriesWith table
  rw [Cells.referencedKeys, Cells.settledTable?, nothing, isSettled, Option.getD_some, same,
    Value.keysOfEntries]

/-- What holds of the references of every table holds of those of a graph. -/
theorem Graph.forall_valueReferences {V α : Type} {ofTable : Table V → List α} {graph : Graph V}
    {holds : α → Prop} (ofTables : ∀ table, ∀ item ∈ ofTable table, holds item) :
    ∀ item ∈ graph.valueReferences ofTable, holds item := by
  intro item member
  obtain ⟨kind, ⟨key, record⟩, -, inRecord⟩ := Graph.mem_valueReferences.mp member
  cases record with
  | entity memento => exact (List.mem_append.mp inRecord).elim (ofTables _ item) (ofTables _ item)
  | location memento => exact (List.mem_append.mp inRecord).elim (ofTables _ item) (ofTables _ item)
  | policy memento =>
      exact (List.mem_append.mp inRecord).elim
        (fun inCommon => (List.mem_append.mp inCommon).elim (ofTables _ item) (ofTables _ item))
        (ofTables _ item)

/-- What a stored graph refers to that it does not hold. -/
def Graph.lacking (graph : Graph Datum) : List ObjectKey :=
  graph.dangling (Value.keysOfEntries Reference.id)

namespace Encoding.Settings

variable {settings : Settings} {graph : Graph Datum} {loaded : Graph LiveValue}

/-- A graph that has been loaded names the records that are stored. -/
theorem names_of_byIds (same : loaded.byIds = settings.readByIds graph) :
    loaded.Names = graph.Names := Graph.names_of_converted same

/-- The references that are missing in a loaded graph are those that the stored graph lacks. -/
theorem danglingReferences_eq (same : loaded.byIds = settings.readByIds graph) :
    Tool.danglingReferences loaded = graph.lacking := by
  have ofLoaded : Graph.references (Value.keysOfEntries id) loaded.byIds =
      loaded.references Cells.empty.referencedKeys := by
    refine Graph.references_convert _ (fun table => ?_) loaded
    rw [Cells.referencedKeys_empty]
    exact Value.keysOfEntries_of_map (Value.referencesOfEntries_mapReferencesOfEntries _ table)
  have ofStored : Graph.references (Value.keysOfEntries id) (settings.readByIds graph) =
      graph.references (Value.keysOfEntries Reference.id) := by
    refine Graph.references_convert _ (fun table => ?_) graph
    exact Value.keysOfEntries_of_map ((Value.referencesOfEntries_liftedEntries _).trans
      (Value.referencesOfEntries_mapReferencesOfEntries Reference.id table))
  exact Graph.dangling_congr (names_of_byIds same)
    (ofLoaded.symm.trans ((congrArg _ same).trans ofStored))

/-- What the values of a graph refer to is what they ask for. -/
theorem mem_keys_iff_asks {key : ObjectKey} :
    key ∈ graph.valueReferences (Value.keysOfEntries Reference.id) ↔
      Asks graph key.kind key.id := by
  have isMap : graph.valueReferences (Value.keysOfEntries Reference.id) =
      (graph.valueReferences Value.referencesOfEntries).map fun reference =>
        ⟨reference.1, reference.2.id⟩ := by
    simp only [Graph.valueReferences, EntityMemento.valueReferences,
      LocationMemento.valueReferences, PolicyMemento.valueReferences, Common.references,
      List.map_append, List.map_flatMap]
    rfl
  obtain ⟨kind, id⟩ := key
  rw [isMap, List.mem_map, Asks]
  simp only [ObjectKey.mk.injEq]

/-- What a stored graph lacks is what its records link to, and what its values ask for, without
there being a record of it. -/
theorem mem_lacking {key : ObjectKey} : key ∈ graph.lacking ↔
    ((∃ kind, ∃ entry ∈ graph.records kind, key ∈ entry.2.links) ∨ Asks graph key.kind key.id) ∧
      ¬ graph.Names key.kind key.id := by
  rw [Graph.lacking, Graph.mem_dangling, Graph.mem_references, mem_keys_iff_asks]

/-- The placeholders that were handed out while a graph was loaded add nothing to its dangling
references. -/
theorem withPlaceholders_eq {lookup : PlaceholderLookup} (tracks : lookup.Tracks (Asks graph))
    (same : loaded.byIds = settings.readByIds graph) :
    Tool.withPlaceholders loaded lookup (Tool.danglingReferences loaded) =
      Tool.danglingReferences loaded := by
  refine Graph.gather_of_found (Graph.ascending_dangling _) fun key isReferenced notNamed => ?_
  rw [danglingReferences_eq same, mem_lacking, ← names_of_byIds same]
  refine ⟨Or.inr ?_, notNamed⟩
  rcases List.mem_append.mp isReferenced with isEntity | isLocation
  · obtain ⟨id, isKey, rfl⟩ := List.mem_map.mp isEntity
    obtain ⟨entry, isEntry, rfl⟩ := List.mem_map.mp isKey
    exact (tracks.entities entry isEntry).2
  · obtain ⟨id, isKey, rfl⟩ := List.mem_map.mp isLocation
    obtain ⟨entry, isEntry, rfl⟩ := List.mem_map.mp isKey
    obtain ⟨kind, notEntity, reference, isReference, rfl, isId⟩ :=
      (tracks.locations entry isEntry).2
    have isLocation := (Graph.forall_valueReferences
      Value.kind_of_referencesOfEntries reference isReference).resolve_left notEntity
    exact ⟨reference, isReference, isLocation, isId⟩

end Encoding.Settings

end GraphCheckpoint
