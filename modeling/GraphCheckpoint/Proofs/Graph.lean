import GraphCheckpoint.Proofs.Memento

/-!
Contract: the fold of deltas into graphs.

Owns:
- the tables of a graph after a delta, kind by kind;
- that a regular graph stays regular, and is what its own records describe;
- that conversions without effects go through the fold;
- the types of the records of a graph and the references in them.

Does not own: where deltas come from.
-/

namespace GraphCheckpoint

variable {V W : Type} {ρ δ : Type} {floats : Prop}

namespace Graph

/-! ## Tables after a delta -/

private theorem foldl_insertEntity (mementos : List (EntityMemento V)) (graph : Graph V) :
    mementos.foldl (fun current memento => current.insertEntity memento) graph =
      { graph with
        entities := graph.entities.insertAll (mementos.map fun memento => (memento.id, memento)) } := by
  induction mementos generalizing graph with
  | nil => rfl
  | cons memento rest inductionHypothesis =>
      rw [List.foldl_cons, inductionHypothesis]
      rfl

private theorem foldl_insertLocation (mementos : List (LocationMemento V)) (graph : Graph V) :
    mementos.foldl (fun current memento => current.insertLocation memento) graph =
      { graph with
        locations :=
          graph.locations.insertAll (mementos.map fun memento => (memento.id, memento)) } := by
  induction mementos generalizing graph with
  | nil => rfl
  | cons memento rest inductionHypothesis =>
      rw [List.foldl_cons, inductionHypothesis]
      rfl

private theorem foldl_insertPolicy (mementos : List (PolicyMemento V)) (graph : Graph V) :
    mementos.foldl (fun current memento => current.insertPolicy memento) graph =
      { graph with
        policies := graph.policies.insertAll (mementos.map fun memento => (memento.id, memento)) } := by
  induction mementos generalizing graph with
  | nil => rfl
  | cons memento rest inductionHypothesis =>
      rw [List.foldl_cons, inductionHypothesis]
      rfl

/-- A delta sets its records under their ids and drops the removed ids, kind by kind. -/
theorem apply_eq (delta : Delta V) (graph : Graph V) :
    graph.apply delta =
      ⟨(graph.entities.insertAll
          (delta.entities.map fun memento => (memento.id, memento))).eraseAll
            delta.removedEntities,
        (graph.locations.insertAll
          (delta.locations.map fun memento => (memento.id, memento))).eraseAll
            delta.removedLocations,
        (graph.policies.insertAll
          (delta.policies.map fun memento => (memento.id, memento))).eraseAll
            delta.removedPolicies⟩ := by
  simp only [apply, foldl_insertEntity, foldl_insertLocation, foldl_insertPolicy]

/-- Every record after a delta was there before, or is one that the delta brings. -/
theorem mem_values_after {M : Type} {idOf : M → String} {table : Table M} {written : List M}
    {gone : List String} {record : M}
    (member : record ∈ Table.values ((table.insertAll
      (written.map fun memento => (idOf memento, memento))).eraseAll gone)) :
    record ∈ written ∨ record ∈ table.values := by
  obtain ⟨entry, isEntry, rfl⟩ := List.mem_map.mp member
  rcases Table.mem_insertAll (Table.mem_of_mem_eraseAll isEntry) with new | old
  · obtain ⟨memento, isWritten, rfl⟩ := List.mem_map.mp new
    exact Or.inl isWritten
  · exact Or.inr (List.mem_map_of_mem old)

/-- A record that stands under an id after a delta was brought by it, or stood there before. -/
theorem get?_after {M : Type} {idOf : M → String} {table : Table M} {written : List M}
    {gone : List String} {id : String} {record : M} (ordered : table.Ordered)
    (found : ((table.insertAll (written.map fun memento => (idOf memento, memento))).eraseAll
      gone).get? id = some record) :
    id ∉ gone ∧ ((record ∈ written ∧ idOf record = id) ∨ table.get? id = some record) := by
  rw [Table.get?_eraseAll (ordered.insertAll _)] at found
  split at found
  · cases found
  · rename_i stays
    refine ⟨stays, (Table.get?_insertAll_cases found).imp (fun new => ?_) fun old => old⟩
    obtain ⟨memento, isWritten, isEntry⟩ := List.mem_map.mp new
    cases isEntry
    exact ⟨isWritten, rfl⟩

/-- Where nothing is removed, the ids after a delta are those before it and those it brings. -/
theorem contains_after {M : Type} {idOf : M → String} {table : Table M} {written : List M}
    {id : String} (known : table.contains id = true ∨ ∃ record ∈ written, idOf record = id) :
    ((table.insertAll (written.map fun memento => (idOf memento, memento))).eraseAll []).contains
      id = true := by
  refine Table.contains_insertAll (known.imp (fun old => old) ?_)
  rintro ⟨record, isWritten, rfl⟩
  exact ⟨record, List.mem_map_of_mem isWritten⟩

/-! ## Keyed graphs -/

/-- Every record stands under its own id, in the order of the ids. -/
structure Keyed (graph : Graph V) : Prop where
  entities : ∀ entry ∈ graph.entities, entry.1 = entry.2.id
  locations : ∀ entry ∈ graph.locations, entry.1 = entry.2.id
  policies : ∀ entry ∈ graph.policies, entry.1 = entry.2.id
  entitiesOrdered : graph.entities.Ordered
  locationsOrdered : graph.locations.Ordered
  policiesOrdered : graph.policies.Ordered

theorem keyed_empty : (empty : Graph V).Keyed := by
  constructor <;> simp [empty, Table.Ordered]

private theorem own_after {M : Type} {idOf : M → String} {table : Table M} {written : List M}
    {gone : List String} (held : ∀ entry ∈ table, entry.1 = idOf entry.2) :
    ∀ entry ∈ (table.insertAll (written.map fun memento => (idOf memento, memento))).eraseAll gone,
      entry.1 = idOf entry.2 := by
  intro entry member
  rcases Table.mem_insertAll (Table.mem_of_mem_eraseAll member) with new | old
  · obtain ⟨memento, -, rfl⟩ := List.mem_map.mp new
    rfl
  · exact held entry old

/-- A delta puts its records under their own ids. -/
theorem Keyed.apply {graph : Graph V} (keyed : graph.Keyed) (delta : Delta V) :
    (graph.apply delta).Keyed := by
  rw [apply_eq]
  exact {
    entities := own_after keyed.entities
    locations := own_after keyed.locations
    policies := own_after keyed.policies
    entitiesOrdered := (keyed.entitiesOrdered.insertAll _).eraseAll _
    locationsOrdered := (keyed.locationsOrdered.insertAll _).eraseAll _
    policiesOrdered := (keyed.policiesOrdered.insertAll _).eraseAll _ }

private theorem ofEntries_values {M : Type} {idOf : M → String} {table : Table M}
    (keyed : ∀ entry ∈ table, entry.1 = idOf entry.2) (ordered : table.Ordered) :
    Table.insertAll [] (table.values.map fun memento => (idOf memento, memento)) = table := by
  have entries : (table.values.map fun memento => (idOf memento, memento)) = table := by
    rw [Table.values, List.map_map]
    refine (List.map_congr_left fun entry member => ?_).trans (List.map_id table)
    exact Prod.ext (keyed entry member).symm rfl
  rw [entries]
  exact Table.ofEntries_of_ordered ordered

/-- A keyed graph is what all its records describe. -/
theorem apply_ofGraph {graph : Graph V} (keyed : graph.Keyed) :
    empty.apply (Delta.ofGraph graph) = graph := by
  rw [apply_eq]
  have entities := ofEntries_values keyed.entities keyed.entitiesOrdered
  have locations := ofEntries_values keyed.locations keyed.locationsOrdered
  have policies := ofEntries_values keyed.policies keyed.policiesOrdered
  simp only [empty, Delta.ofGraph, Table.eraseAll, List.foldl_nil, entities, locations, policies]

theorem Keyed.own {graph : Graph V} (keyed : graph.Keyed) (kind : ObjectKind) :
    ∀ entry ∈ graph.records kind, entry.1 = entry.2.id := by
  cases kind with
  | entity => exact List.forall_mem_map.mpr keyed.entities
  | location => exact List.forall_mem_map.mpr keyed.locations
  | policy => exact List.forall_mem_map.mpr keyed.policies

theorem Keyed.ordered {graph : Graph V} (keyed : graph.Keyed) (kind : ObjectKind) :
    (graph.records kind).Ordered := by
  cases kind with
  | entity => exact keyed.entitiesOrdered.mapValues _
  | location => exact keyed.locationsOrdered.mapValues _
  | policy => exact keyed.policiesOrdered.mapValues _

/-! ## Regular graphs -/

theorem Regular.keyed {graph : Graph (Value ρ δ)} (regular : graph.Regular floats) : graph.Keyed where
  entities := fun entry member => (regular.entities entry member).1
  locations := fun entry member => (regular.locations entry member).1
  policies := fun entry member => (regular.policies entry member).1
  entitiesOrdered := regular.entitiesOrdered
  locationsOrdered := regular.locationsOrdered
  policiesOrdered := regular.policiesOrdered

theorem regular_empty : (empty : Graph (Value ρ δ)).Regular floats := by
  constructor <;> simp [empty, Table.Ordered]

/-- What holds of the old records and of the written ones holds of all records afterwards. -/
theorem forall_after {M : Type} {idOf : M → String} {property : M → Prop} {table : Table M}
    {written : List M} {gone : List String}
    (held : ∀ entry ∈ table, entry.1 = idOf entry.2 ∧ property entry.2)
    (writtenHeld : ∀ memento ∈ written, property memento) :
    ∀ entry ∈ (table.insertAll (written.map fun memento => (idOf memento, memento))).eraseAll gone,
      entry.1 = idOf entry.2 ∧ property entry.2 := by
  intro entry member
  rcases Table.mem_insertAll (Table.mem_of_mem_eraseAll member) with new | old
  · obtain ⟨memento, isWritten, rfl⟩ := List.mem_map.mp new
    exact ⟨rfl, writtenHeld memento isWritten⟩
  · exact held entry old

theorem Regular.apply {graph : Graph (Value ρ δ)} {delta : Delta (Value ρ δ)}
    (regular : graph.Regular floats) (deltaRegular : delta.Regular floats) :
    (graph.apply delta).Regular floats := by
  rw [apply_eq]
  exact {
    entities := forall_after regular.entities deltaRegular.entities
    locations := forall_after regular.locations deltaRegular.locations
    policies := forall_after regular.policies deltaRegular.policies
    entitiesOrdered := (regular.entitiesOrdered.insertAll _).eraseAll _
    locationsOrdered := (regular.locationsOrdered.insertAll _).eraseAll _
    policiesOrdered := (regular.policiesOrdered.insertAll _).eraseAll _ }

/-! ## Conversions with effects -/

section Effects

variable {m : Type → Type} [Monad m] [LawfulMonad m]

private theorem mapM_values {M N : Type} (action : M → m N) (table : Table M) :
    table.values.mapM action =
      Table.values <$> table.mapM fun (key, record) => do return (key, ← action record) := by
  induction table with
  | nil => simp [Table.values]
  | cons entry rest inductionHypothesis =>
      have parts : Table.values (entry :: rest) = entry.2 :: Table.values rest := rfl
      rw [parts, List.mapM_cons, List.mapM_cons, inductionHypothesis]
      simp only [map_eq_pure_bind, bind_assoc, pure_bind]
      rfl

/-- Converting the records of a graph one by one gives the records of the converted graph. -/
theorem convert_ofGraph (conversion : Conversion m V W) (graph : Graph V) :
    (Delta.ofGraph graph).convert conversion = Delta.ofGraph <$> graph.convert conversion := by
  simp only [Delta.convert, Graph.convert, Delta.ofGraph, mapM_values]
  simp only [map_eq_pure_bind, bind_assoc, pure_bind]
  rfl

end Effects

section Partial

variable {ρ' δ' : Type} {conversion : Conversion Option (Value ρ δ) (Value ρ' δ')}

/-- Keys and order stay, and so does what the conversion keeps of each record. -/
private theorem entries_convert {M N : Type} (action : M → Option N) {idOf : M → String}
    {newIdOf : N → String} {before : M → Prop} {after : N → Prop} {table : Table M}
    {converted : Table N}
    (step : ∀ record result, before record → action record = some result →
      newIdOf result = idOf record ∧ after result)
    (held : ∀ entry ∈ table, entry.1 = idOf entry.2 ∧ before entry.2)
    (isConverted : (table.mapM fun entry => (action entry.2).bind fun result =>
      pure (entry.1, result)) = some converted) :
    converted.keys = table.keys ∧
      ∀ entry ∈ converted, entry.1 = newIdOf entry.2 ∧ after entry.2 := by
  induction table generalizing converted with
  | nil =>
      cases isConverted
      exact ⟨rfl, by simp⟩
  | cons entry rest inductionHypothesis =>
      simp only [List.mapM_cons, Option.bind_eq_bind, Option.bind_eq_some_iff] at isConverted
      obtain ⟨first, ⟨result, isResult, isFirst⟩, others, areOthers, isWhole⟩ := isConverted
      cases isFirst
      cases isWhole
      obtain ⟨sameKeys, othersHold⟩ :=
        inductionHypothesis (fun entry member => held entry (by simp [member])) areOthers
      have entryHolds := held entry (by simp)
      have resultHolds := step entry.2 result entryHolds.2 isResult
      refine ⟨congrArg (entry.1 :: ·) sameKeys, ?_⟩
      intro other member
      rcases List.mem_cons.mp member with rfl | later
      · exact ⟨entryHolds.1.trans resultHolds.1.symm, resultHolds.2⟩
      · exact othersHold other later

private theorem ordered_of_sameKeys {M N : Type} {table : Table M} {other : Table N}
    (ordered : table.Ordered) (sameKeys : other.keys = table.keys) : other.Ordered :=
  Value.ordered_of_keys ordered (sameKeys ▸ List.Sublist.refl _)

/-- A conversion that keeps tables regular keeps a graph regular. -/
theorem Regular.convert (keeps : ∀ table converted, Value.RegularTable floats table →
      conversion.table table = some converted → Value.RegularTable floats converted)
    {graph : Graph (Value ρ δ)} {converted : Graph (Value ρ' δ')} (regular : graph.Regular floats)
    (isConverted : graph.convert conversion = some converted) : converted.Regular floats := by
  simp only [Graph.convert, Option.bind_eq_bind, Option.bind_eq_some_iff] at isConverted
  obtain ⟨entities, entitiesMapped, locations, locationsMapped, policies, policiesMapped,
    isResult⟩ := isConverted
  cases isResult
  obtain ⟨entityKeys, entitiesHold⟩ := entries_convert
    (fun memento => EntityMemento.convert conversion memento)
    (fun record result holds isResult =>
      ⟨EntityMemento.id_convert isResult, EntityMemento.Regular.convert keeps holds isResult⟩)
    regular.entities entitiesMapped
  obtain ⟨locationKeys, locationsHold⟩ := entries_convert
    (fun memento => LocationMemento.convert conversion memento)
    (fun record result holds isResult =>
      ⟨LocationMemento.id_convert isResult, LocationMemento.Regular.convert keeps holds isResult⟩)
    regular.locations locationsMapped
  obtain ⟨policyKeys, policiesHold⟩ := entries_convert
    (fun memento => PolicyMemento.convert conversion memento)
    (fun record result holds isResult =>
      ⟨PolicyMemento.id_convert isResult, PolicyMemento.Regular.convert keeps holds isResult⟩)
    regular.policies policiesMapped
  exact {
    entities := entitiesHold
    locations := locationsHold
    policies := policiesHold
    entitiesOrdered := ordered_of_sameKeys regular.entitiesOrdered entityKeys
    locationsOrdered := ordered_of_sameKeys regular.locationsOrdered locationKeys
    policiesOrdered := ordered_of_sameKeys regular.policiesOrdered policyKeys }

end Partial

/-! ## Conversions without effects -/

section Pure

variable (conversion : Conversion Id V W)

/-- Records keep their ids, so a conversion may come before or after a delta. -/
theorem convert_apply (graph : Graph V) (delta : Delta V) :
    (graph.apply delta).convert conversion =
      Graph.apply (Delta.convert (m := Id) conversion delta) (graph.convert conversion) := by
  rw [convert_pure, convert_pure, Delta.convert_pure, apply_eq, apply_eq]
  simp only [Table.mapValues_eraseAll, Table.mapValues_insertAll, List.map_map]
  rfl

theorem ids_convert (graph : Graph V) :
    Graph.ids (Graph.convert (m := Id) conversion graph) = graph.ids := by
  rw [convert_pure]
  simp only [ids, Table.keys_mapValues]

theorem keyed_convert (graph : Graph V) :
    Graph.Keyed (Graph.convert (m := Id) conversion graph) ↔ graph.Keyed := by
  have own : ∀ {M N : Type} {idOf : M → String} {newIdOf : N → String} {change : M → N}
      {table : Table M}, (∀ record, newIdOf (change record) = idOf record) →
      ((∀ entry ∈ table.mapValues change, entry.1 = newIdOf entry.2) ↔
        ∀ entry ∈ table, entry.1 = idOf entry.2) := by
    intro M N idOf newIdOf change table same
    simp only [Table.mapValues, List.forall_mem_map, same]
  have ordered : ∀ {M N : Type} {change : M → N} {table : Table M},
      (table.mapValues change).Ordered ↔ table.Ordered := List.pairwise_map
  rw [convert_pure]
  have ofEntities := fun table =>
    @own (EntityMemento V) (EntityMemento W) EntityMemento.id EntityMemento.id
      (fun memento => memento.convert conversion) table fun _ => rfl
  have ofLocations := fun table =>
    @own (LocationMemento V) (LocationMemento W) LocationMemento.id LocationMemento.id
      (fun memento => memento.convert conversion) table fun _ => rfl
  have ofPolicies := fun table =>
    @own (PolicyMemento V) (PolicyMemento W) PolicyMemento.id PolicyMemento.id
      (fun memento => memento.convert conversion) table fun _ => rfl
  constructor
  · intro keyed
    exact ⟨(ofEntities _).mp keyed.entities, (ofLocations _).mp keyed.locations,
      (ofPolicies _).mp keyed.policies, ordered.mp keyed.entitiesOrdered,
      ordered.mp keyed.locationsOrdered, ordered.mp keyed.policiesOrdered⟩
  · intro keyed
    exact ⟨(ofEntities _).mpr keyed.entities, (ofLocations _).mpr keyed.locations,
      (ofPolicies _).mpr keyed.policies, ordered.mpr keyed.entitiesOrdered,
      ordered.mpr keyed.locationsOrdered, ordered.mpr keyed.policiesOrdered⟩

/-- Of two graphs that are converted to the same one, both are keyed or neither. -/
theorem keyed_of_converted {X : Type} {left : Conversion Id V X} {right : Conversion Id W X}
    {one : Graph V} {other : Graph W}
    (same : Graph.convert (m := Id) left one = Graph.convert (m := Id) right other) :
    one.Keyed ↔ other.Keyed := by
  rw [← keyed_convert left, ← keyed_convert right, same]

end Pure

/-! ## Types and references of the records -/

/-- The types of all records. -/
def typeNames (graph : Graph V) : List String :=
  graph.entities.values.map EntityMemento.typeName ++
    graph.locations.values.map LocationMemento.typeName ++
    graph.policies.values.map PolicyMemento.typeName

/-- The references that stand in values of the graph. -/
def valueReferences {α : Type} (ofTable : Table V → List α) (graph : Graph V) : List α :=
  graph.entities.values.flatMap (EntityMemento.valueReferences ofTable) ++
    graph.locations.values.flatMap (LocationMemento.valueReferences ofTable) ++
    graph.policies.values.flatMap (PolicyMemento.valueReferences ofTable)

section Pure

variable (conversion : Conversion Id V W)

/-- A conversion changes the references of a graph as it changes those of tables. -/
theorem valueReferences_convert {α β : Type} {ofTable : Table V → List α}
    {ofConverted : Table W → List β} {change : α → β}
    (ofTables : ∀ table, ofConverted (conversion.table table) = (ofTable table).map change)
    (graph : Graph V) :
    Graph.valueReferences ofConverted (Graph.convert (m := Id) conversion graph) =
      (graph.valueReferences ofTable).map change := by
  rw [convert_pure]
  simp only [valueReferences, Table.values, Table.mapValues, List.map_map, List.map_append,
    List.map_flatMap, List.flatMap_map, Function.comp_def,
    EntityMemento.valueReferences_convert ofTables,
    LocationMemento.valueReferences_convert ofTables,
    PolicyMemento.valueReferences_convert ofTables]

/-- Conversions that agree on the types and tables of a graph agree on the graph. -/
theorem convert_congr {other : Conversion Id V W} {graph : Graph V}
    (names : ∀ name ∈ graph.typeNames, conversion.typeName name = other.typeName name)
    (tables : ∀ table, conversion.table table = other.table table) :
    Graph.convert (m := Id) conversion graph = graph.convert other := by
  have ofEntity : ∀ memento ∈ graph.entities.values,
      EntityMemento.convert (m := Id) conversion memento = memento.convert other :=
    fun memento member => EntityMemento.convert_congr tables
      (names _ (List.mem_append_left _ (List.mem_append_left _ (List.mem_map_of_mem member))))
  have ofLocation : ∀ memento ∈ graph.locations.values,
      LocationMemento.convert (m := Id) conversion memento = memento.convert other :=
    fun memento member => LocationMemento.convert_congr tables
      (names _ (List.mem_append_left _ (List.mem_append_right _ (List.mem_map_of_mem member))))
  have ofPolicy : ∀ memento ∈ graph.policies.values,
      PolicyMemento.convert (m := Id) conversion memento = memento.convert other :=
    fun memento member => PolicyMemento.convert_congr tables
      (names _ (List.mem_append_right _ (List.mem_map_of_mem member)))
  have same : ∀ {M N : Type} {first second : M → N} {table : Table M},
      (∀ record ∈ table.values, first record = second record) →
        table.mapValues first = table.mapValues second := by
    intro M N first second table agree
    refine List.map_congr_left fun entry member => ?_
    exact congrArg (Prod.mk entry.1) (agree entry.2 (List.mem_map_of_mem member))
  rw [convert_pure, convert_pure, same ofEntity, same ofLocation, same ofPolicy]

end Pure

end Graph

end GraphCheckpoint
