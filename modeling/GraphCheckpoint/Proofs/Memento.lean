import GraphCheckpoint.Graph
import GraphCheckpoint.Proofs.Value

/-!
Contract: records as wholes, under conversion.

Owns:
- `Regular` records, deltas and graphs, which are those that a program can build;
- conversions one after another, and conversions without effects, with what they do to references;
- that a conversion keeps records regular when it keeps their tables so.

Does not own: which conversions there are.
-/

namespace GraphCheckpoint

variable {V W X : Type} {ρ ρ' δ δ' : Type} {floats : Prop} {m : Type → Type} [Monad m]

/-! ## Conversions one after another -/

/-- A conversion with effects, then one without. -/
def Conversion.followedBy (first : Conversion m V W) (second : Conversion Id W X) :
    Conversion m V X where
  typeName := fun name => second.typeName (first.typeName name)
  table := fun table => second.table <$> first.table table

@[simp] theorem Conversion.followedBy_table (first : Conversion m V W)
    (second : Conversion Id W X) (table : Table V) :
    (first.followedBy second).table table = second.table <$> first.table table := rfl

section Composition

variable [LawfulMonad m]

theorem mapM_map_result {α β γ : Type} (action : α → m β) (change : β → γ) (items : List α) :
    items.mapM (fun item => change <$> action item) = List.map change <$> items.mapM action := by
  induction items with
  | nil => simp
  | cons item rest inductionHypothesis =>
      rw [List.mapM_cons, List.mapM_cons, inductionHypothesis]
      simp only [map_eq_pure_bind, bind_assoc, pure_bind, List.map_cons]

/-- The same for keyed records, which keep their keys. -/
theorem mapM_entries_map {M N O : Type} (action : M → m N) (change : N → O) (table : Table M) :
    (table.mapM fun (key, record) => do return (key, ← change <$> action record)) =
      Table.mapValues change <$> table.mapM fun (key, record) => do
        return (key, ← action record) := by
  refine Eq.trans ?_
    (mapM_map_result _ (fun entry : String × N => (entry.1, change entry.2)) table)
  simp only [map_eq_pure_bind, bind_assoc, pure_bind]

variable (first : Conversion m V W) (second : Conversion Id W X)

theorem Common.convert_followedBy (common : Common V) :
    common.convert (first.followedBy second) =
      (fun middle => middle.convert second) <$> common.convert first := by
  simp only [Common.convert, Conversion.followedBy_table, map_eq_pure_bind, bind_assoc, pure_bind]
  rfl

theorem EntityMemento.convert_followedBy (memento : EntityMemento V) :
    memento.convert (first.followedBy second) =
      (fun middle => middle.convert second) <$> memento.convert first := by
  simp only [EntityMemento.convert, Common.convert_followedBy, map_eq_pure_bind, bind_assoc,
    pure_bind]
  rfl

theorem LocationMemento.convert_followedBy (memento : LocationMemento V) :
    memento.convert (first.followedBy second) =
      (fun middle => middle.convert second) <$> memento.convert first := by
  simp only [LocationMemento.convert, Common.convert_followedBy, map_eq_pure_bind, bind_assoc,
    pure_bind]
  rfl

theorem PolicyMemento.convert_followedBy (memento : PolicyMemento V) :
    memento.convert (first.followedBy second) =
      (fun middle => middle.convert second) <$> memento.convert first := by
  simp only [PolicyMemento.convert, Common.convert_followedBy, Conversion.followedBy_table,
    map_eq_pure_bind, bind_assoc, pure_bind]
  rfl

end Composition

/-! ## Conversions without effects -/

section Pure

variable (conversion : Conversion Id V W)

theorem Delta.convert_pure (delta : Delta V) :
    delta.convert conversion =
      (⟨delta.entities.map fun memento => memento.convert conversion,
        delta.locations.map fun memento => memento.convert conversion,
        delta.policies.map fun memento => memento.convert conversion,
        delta.removedEntities, delta.removedLocations, delta.removedPolicies⟩ : Delta W) := by
  have plain : ∀ {α β : Type} (change : α → Id β) (items : List α),
      items.mapM change = (items.map change : List β) := fun change items => List.idRun_mapM
  simp only [Delta.convert, plain]
  rfl

theorem Graph.convert_pure (graph : Graph V) :
    graph.convert conversion =
      (⟨graph.entities.mapValues fun memento => memento.convert conversion,
        graph.locations.mapValues fun memento => memento.convert conversion,
        graph.policies.mapValues fun memento => memento.convert conversion⟩ : Graph W) := by
  have plain : ∀ {α β : Type} (change : α → Id β) (items : List α),
      items.mapM change = (items.map change : List β) := fun change items => List.idRun_mapM
  simp only [Graph.convert, plain]
  rfl

section References

variable {conversion} {α β : Type} {ofTable : Table V → List α} {ofConverted : Table W → List β}
  {change : α → β}
  (ofTables : ∀ table, ofConverted (conversion.table table) = (ofTable table).map change)

include ofTables

/-- A conversion changes the references of a record as it changes those of tables. -/
theorem Common.references_convert (common : Common V) :
    Common.references ofConverted (common.convert (m := Id) conversion) =
      (common.references ofTable).map change := by
  rw [Common.references, Common.references, List.map_append, ← ofTables, ← ofTables]
  rfl

theorem EntityMemento.valueReferences_convert (memento : EntityMemento V) :
    EntityMemento.valueReferences ofConverted (memento.convert (m := Id) conversion) =
      (memento.valueReferences ofTable).map change :=
  Common.references_convert ofTables memento.common

theorem LocationMemento.valueReferences_convert (memento : LocationMemento V) :
    LocationMemento.valueReferences ofConverted (memento.convert (m := Id) conversion) =
      (memento.valueReferences ofTable).map change :=
  Common.references_convert ofTables memento.common

theorem PolicyMemento.valueReferences_convert (memento : PolicyMemento V) :
    PolicyMemento.valueReferences ofConverted (memento.convert (m := Id) conversion) =
      (memento.valueReferences ofTable).map change := by
  rw [PolicyMemento.valueReferences, PolicyMemento.valueReferences, List.map_append,
    ← ofTables, ← Common.references_convert ofTables]
  rfl

end References

section Agreement

variable {conversion} {other : Conversion Id V W}
  (tables : ∀ table, conversion.table table = other.table table)

include tables

/-- Conversions that agree on the type and the tables of a record agree on the record. -/
theorem Common.convert_congr {common : Common V}
    (named : conversion.typeName common.typeName = other.typeName common.typeName) :
    Common.convert (m := Id) conversion common = common.convert other := by
  simp only [Common.convert, named, tables]

theorem EntityMemento.convert_congr {memento : EntityMemento V}
    (named : conversion.typeName memento.typeName = other.typeName memento.typeName) :
    EntityMemento.convert (m := Id) conversion memento = memento.convert other := by
  simp only [EntityMemento.convert, Common.convert_congr tables named]

theorem LocationMemento.convert_congr {memento : LocationMemento V}
    (named : conversion.typeName memento.typeName = other.typeName memento.typeName) :
    LocationMemento.convert (m := Id) conversion memento = memento.convert other := by
  simp only [LocationMemento.convert, Common.convert_congr tables named]

theorem PolicyMemento.convert_congr {memento : PolicyMemento V}
    (named : conversion.typeName memento.typeName = other.typeName memento.typeName) :
    PolicyMemento.convert (m := Id) conversion memento = memento.convert other := by
  simp only [PolicyMemento.convert, Common.convert_congr tables named, tables]

/-- The types of all records. -/
def Delta.typeNames (delta : Delta V) : List String :=
  delta.entities.map EntityMemento.typeName ++ delta.locations.map LocationMemento.typeName ++
    delta.policies.map PolicyMemento.typeName

/-- Conversions that agree on the types and tables of a delta agree on the delta. -/
theorem Delta.convert_congr {delta : Delta V}
    (names : ∀ name ∈ delta.typeNames, conversion.typeName name = other.typeName name) :
    Delta.convert (m := Id) conversion delta = delta.convert other := by
  have ofEntity : ∀ memento ∈ delta.entities,
      EntityMemento.convert (m := Id) conversion memento = memento.convert other :=
    fun memento member => EntityMemento.convert_congr tables
      (names _ (List.mem_append_left _ (List.mem_append_left _ (List.mem_map_of_mem member))))
  have ofLocation : ∀ memento ∈ delta.locations,
      LocationMemento.convert (m := Id) conversion memento = memento.convert other :=
    fun memento member => LocationMemento.convert_congr tables
      (names _ (List.mem_append_left _ (List.mem_append_right _ (List.mem_map_of_mem member))))
  have ofPolicy : ∀ memento ∈ delta.policies,
      PolicyMemento.convert (m := Id) conversion memento = memento.convert other :=
    fun memento member => PolicyMemento.convert_congr tables
      (names _ (List.mem_append_right _ (List.mem_map_of_mem member)))
  rw [convert_pure, convert_pure, List.map_congr_left ofEntity, List.map_congr_left ofLocation,
    List.map_congr_left ofPolicy]

end Agreement

end Pure

theorem Delta.convert_followedBy [LawfulMonad m] (first : Conversion m V W)
    (second : Conversion Id W X) (delta : Delta V) :
    delta.convert (first.followedBy second) =
      (fun middle => middle.convert second) <$> delta.convert first := by
  simp only [Delta.convert_pure]
  simp only [Delta.convert, EntityMemento.convert_followedBy, LocationMemento.convert_followedBy,
    PolicyMemento.convert_followedBy, mapM_map_result]
  simp only [map_eq_pure_bind, bind_assoc, pure_bind]

theorem Delta.convert_convert (first : Conversion Id V W) (second : Conversion Id W X)
    (delta : Delta V) :
    Delta.convert (m := Id) second (delta.convert first) =
      delta.convert (first.followedBy second) :=
  (Delta.convert_followedBy first second delta).symm

theorem Graph.convert_followedBy [LawfulMonad m] (first : Conversion m V W)
    (second : Conversion Id W X) (graph : Graph V) :
    graph.convert (first.followedBy second) =
      (fun middle => middle.convert second) <$> graph.convert first := by
  simp only [Graph.convert_pure]
  simp only [Graph.convert, EntityMemento.convert_followedBy, LocationMemento.convert_followedBy,
    PolicyMemento.convert_followedBy, mapM_entries_map]
  simp only [map_eq_pure_bind, bind_assoc, pure_bind]

theorem Graph.convert_convert (first : Conversion Id V W) (second : Conversion Id W X)
    (graph : Graph V) :
    Graph.convert (m := Id) second (graph.convert first) =
      graph.convert (first.followedBy second) :=
  (Graph.convert_followedBy first second graph).symm

/-! ## Regular records -/

/-- Tables are regular and tags are ascending. -/
structure Common.Regular (floats : Prop) (common : Common (Value ρ δ)) : Prop where
  config : Value.RegularTable floats common.config
  attributes : Value.RegularTable floats common.attributes
  tags : List.Pairwise (· < ·) common.tags

def EntityMemento.Regular (floats : Prop) (memento : EntityMemento (Value ρ δ)) : Prop :=
  memento.common.Regular floats

def LocationMemento.Regular (floats : Prop) (memento : LocationMemento (Value ρ δ)) : Prop :=
  memento.common.Regular floats

structure PolicyMemento.Regular (floats : Prop) (memento : PolicyMemento (Value ρ δ)) : Prop where
  common : memento.common.Regular floats
  flags : Value.RegularTable floats memento.flags

/-- All records are regular and removed ids are ascending. -/
structure Delta.Regular (floats : Prop) (delta : Delta (Value ρ δ)) : Prop where
  entities : ∀ memento ∈ delta.entities, memento.Regular floats
  locations : ∀ memento ∈ delta.locations, memento.Regular floats
  policies : ∀ memento ∈ delta.policies, memento.Regular floats
  removedEntities : List.Pairwise (· < ·) delta.removedEntities
  removedLocations : List.Pairwise (· < ·) delta.removedLocations
  removedPolicies : List.Pairwise (· < ·) delta.removedPolicies

/-- All records are regular, each stands under its id, and the keys are ascending. -/
structure Graph.Regular (floats : Prop) (graph : Graph (Value ρ δ)) : Prop where
  entities : ∀ entry ∈ graph.entities, entry.1 = entry.2.id ∧ entry.2.Regular floats
  locations : ∀ entry ∈ graph.locations, entry.1 = entry.2.id ∧ entry.2.Regular floats
  policies : ∀ entry ∈ graph.policies, entry.1 = entry.2.id ∧ entry.2.Regular floats
  entitiesOrdered : graph.entities.Ordered
  locationsOrdered : graph.locations.Ordered
  policiesOrdered : graph.policies.Ordered

/-- The delta of a regular graph is regular. -/
theorem Delta.regular_ofGraph {graph : Graph (Value ρ δ)} (regular : graph.Regular floats) :
    (Delta.ofGraph graph).Regular floats where
  entities := by
    intro memento member
    obtain ⟨entry, isEntry, rfl⟩ := List.mem_map.mp member
    exact (regular.entities entry isEntry).2
  locations := by
    intro memento member
    obtain ⟨entry, isEntry, rfl⟩ := List.mem_map.mp member
    exact (regular.locations entry isEntry).2
  policies := by
    intro memento member
    obtain ⟨entry, isEntry, rfl⟩ := List.mem_map.mp member
    exact (regular.policies entry isEntry).2
  removedEntities := List.Pairwise.nil
  removedLocations := List.Pairwise.nil
  removedPolicies := List.Pairwise.nil

/-! ## Conversions that may find nothing -/

section Partial

variable {conversion : Conversion Option (Value ρ δ) (Value ρ' δ')}
  (keeps : ∀ table converted, Value.RegularTable floats table →
    conversion.table table = some converted → Value.RegularTable floats converted)

include keeps

theorem Common.Regular.convert {common : Common (Value ρ δ)} {converted : Common (Value ρ' δ')}
    (regular : common.Regular floats) (isConverted : common.convert conversion = some converted) :
    converted.Regular floats := by
  simp only [Common.convert, Option.bind_eq_bind, Option.bind_eq_some_iff] at isConverted
  obtain ⟨config, configConverted, attributes, attributesConverted, isResult⟩ := isConverted
  cases isResult
  exact ⟨keeps _ _ regular.config configConverted, keeps _ _ regular.attributes attributesConverted,
    regular.tags⟩

omit keeps in
theorem Common.id_convert {common : Common (Value ρ δ)} {converted : Common (Value ρ' δ')}
    (isConverted : common.convert conversion = some converted) : converted.id = common.id := by
  simp only [Common.convert, Option.bind_eq_bind, Option.bind_eq_some_iff] at isConverted
  obtain ⟨config, -, attributes, -, isResult⟩ := isConverted
  cases isResult
  rfl

omit keeps in
theorem EntityMemento.id_convert {memento : EntityMemento (Value ρ δ)}
    {converted : EntityMemento (Value ρ' δ')}
    (isConverted : memento.convert conversion = some converted) : converted.id = memento.id := by
  simp only [EntityMemento.convert, Option.bind_eq_bind, Option.bind_eq_some_iff] at isConverted
  obtain ⟨common, commonConverted, isResult⟩ := isConverted
  cases isResult
  exact Common.id_convert commonConverted

omit keeps in
theorem LocationMemento.id_convert {memento : LocationMemento (Value ρ δ)}
    {converted : LocationMemento (Value ρ' δ')}
    (isConverted : memento.convert conversion = some converted) : converted.id = memento.id := by
  simp only [LocationMemento.convert, Option.bind_eq_bind, Option.bind_eq_some_iff] at isConverted
  obtain ⟨common, commonConverted, isResult⟩ := isConverted
  cases isResult
  exact Common.id_convert commonConverted

omit keeps in
theorem PolicyMemento.id_convert {memento : PolicyMemento (Value ρ δ)}
    {converted : PolicyMemento (Value ρ' δ')}
    (isConverted : memento.convert conversion = some converted) : converted.id = memento.id := by
  simp only [PolicyMemento.convert, Option.bind_eq_bind, Option.bind_eq_some_iff] at isConverted
  obtain ⟨common, commonConverted, flags, -, isResult⟩ := isConverted
  cases isResult
  exact Common.id_convert commonConverted

theorem EntityMemento.Regular.convert {memento : EntityMemento (Value ρ δ)}
    {converted : EntityMemento (Value ρ' δ')} (regular : memento.Regular floats)
    (isConverted : memento.convert conversion = some converted) : converted.Regular floats := by
  simp only [EntityMemento.convert, Option.bind_eq_bind, Option.bind_eq_some_iff] at isConverted
  obtain ⟨common, commonConverted, isResult⟩ := isConverted
  cases isResult
  exact Common.Regular.convert keeps regular commonConverted

theorem LocationMemento.Regular.convert {memento : LocationMemento (Value ρ δ)}
    {converted : LocationMemento (Value ρ' δ')} (regular : memento.Regular floats)
    (isConverted : memento.convert conversion = some converted) : converted.Regular floats := by
  simp only [LocationMemento.convert, Option.bind_eq_bind, Option.bind_eq_some_iff] at isConverted
  obtain ⟨common, commonConverted, isResult⟩ := isConverted
  cases isResult
  exact Common.Regular.convert keeps regular commonConverted

theorem PolicyMemento.Regular.convert {memento : PolicyMemento (Value ρ δ)}
    {converted : PolicyMemento (Value ρ' δ')} (regular : memento.Regular floats)
    (isConverted : memento.convert conversion = some converted) : converted.Regular floats := by
  simp only [PolicyMemento.convert, Option.bind_eq_bind, Option.bind_eq_some_iff] at isConverted
  obtain ⟨common, commonConverted, flags, flagsConverted, isResult⟩ := isConverted
  cases isResult
  exact ⟨Common.Regular.convert keeps regular.common commonConverted,
    keeps _ _ regular.flags flagsConverted⟩

omit keeps in
theorem forall_of_mapM {α β : Type} {action : α → Option β} {before : α → Prop}
    {after : β → Prop} (step : ∀ item result, before item → action item = some result →
      after result) {items : List α} {results : List β} (held : ∀ item ∈ items, before item)
    (isMapped : items.mapM action = some results) : ∀ result ∈ results, after result := by
  induction items generalizing results with
  | nil =>
      cases isMapped
      simp
  | cons item rest inductionHypothesis =>
      simp only [List.mapM_cons, Option.bind_eq_bind, Option.bind_eq_some_iff] at isMapped
      obtain ⟨first, isFirst, others, areOthers, isResult⟩ := isMapped
      cases isResult
      intro result member
      rcases List.mem_cons.mp member with rfl | later
      · exact step item result (held item (by simp)) isFirst
      · exact inductionHypothesis (fun item member => held item (by simp [member])) areOthers
          result later

theorem Delta.Regular.convert {delta : Delta (Value ρ δ)} {converted : Delta (Value ρ' δ')}
    (regular : delta.Regular floats) (isConverted : delta.convert conversion = some converted) :
    converted.Regular floats := by
  simp only [Delta.convert, Option.bind_eq_bind, Option.bind_eq_some_iff] at isConverted
  obtain ⟨entities, entitiesMapped, locations, locationsMapped, policies, policiesMapped,
    isResult⟩ := isConverted
  cases isResult
  exact {
    entities := forall_of_mapM (fun _ _ => EntityMemento.Regular.convert keeps) regular.entities
      entitiesMapped
    locations := forall_of_mapM (fun _ _ => LocationMemento.Regular.convert keeps)
      regular.locations locationsMapped
    policies := forall_of_mapM (fun _ _ => PolicyMemento.Regular.convert keeps) regular.policies
      policiesMapped
    removedEntities := regular.removedEntities
    removedLocations := regular.removedLocations
    removedPolicies := regular.removedPolicies }

end Partial

end GraphCheckpoint
