import GraphCheckpoint.Proofs.Rebind.Restoring
import Mathlib.Data.List.Basic

/-!
Contract: a pass rebuilds the graph that has been loaded.

Owns:
- `Faithful`, how rebuilt objects, problems and references stand to the loaded records;
- `Graph.Loaded`, what loading must leave for a pass to succeed;
- that a pass over such a graph succeeds, and is faithful.

Does not own: how a graph is loaded.
-/

namespace GraphCheckpoint

variable {kind : ObjectKind} {id : String} {graph : Graph LiveValue} {heap : Heap}
  {registry : Registry} {strictness : TypeResolution}

/-! ## What an object refers to -/

namespace LiveObject

/-- What stands in the values of an object, table by table. -/
def inValues {α : Type} (ofTable : Table LiveValue → List α) (object : LiveObject) : List α :=
  object.common.references ofTable ++ ofTable object.flags

/-- The references that an object owns by its links. -/
def linked (object : LiveObject) : List (ObjectKind × Handle) :=
  match object.state with
  | .entity links =>
      links.children.map (Prod.mk .entity) ++ links.locations.map (Prod.mk .location) ++
        links.policies.map (Prod.mk .policy) ++ links.enrichers.map (Prod.mk .policy)
  | .location links => links.children.map (Prod.mk .location)
  | .policy _ => []

/-- The references that an object holds: by its links, and at any depth of its values. -/
def handles (object : LiveObject) : List (ObjectKind × Handle) :=
  object.linked ++ object.inValues Value.referencesOfEntries

/-- The links of an object to its parent and to its application. -/
def backLinks (object : LiveObject) : List (ObjectKind × WeakLink) :=
  match object.state with
  | .entity links =>
      links.parent.toList.map (Prod.mk .entity) ++ links.application.toList.map (Prod.mk .entity)
  | .location links => links.parent.toList.map (Prod.mk .location)
  | .policy _ => []

end LiveObject

/-! ## Faithful rebinds -/

/-- Where a name leads: to the very object that has been rebuilt under it, and to none exactly where
the name is that of a problem. -/
def LeadsTo (outcome : RebindOutcome) (problems : List RebindProblem) (kind : ObjectKind)
    (id : String) (target : Option Address) : Prop :=
  target = (outcome.objects kind).get? id ∧
    (target = none ↔ ∃ problem ∈ problems, problem.kind = kind ∧ problem.id = id)

/-- How a rebuilt graph and its problems stand to the records that it was rebuilt from. -/
structure Faithful (registry : Registry) (graph : Graph LiveValue) (outcome : RebindOutcome)
    (problems : List RebindProblem) (heap : Heap) : Prop where
  /-- The rebuilt objects are those whose type is registered for their kind. -/
  held : ∀ kind id, (outcome.objects kind).contains id = true ↔
    ∃ record, (graph.records kind).get? id = some record ∧
      registry.contains kind record.typeName = true
  /-- The others are problems. -/
  others : problems = ObjectKind.rebindOrder.flatMap fun kind =>
    (graph.records kind).values.filterMap (Pass.problem? registry)
  /-- Every rebuilt object is of its kind, and records again what it was rebuilt from. -/
  records : ∀ kind id address, (outcome.objects kind).get? id = some address →
    ∃ record object, (graph.records kind).get? id = some record ∧
      heap.object? address = some object ∧ object.key = ⟨kind, id⟩ ∧
      object.memento = .ok record
  /-- So do all references that a rebuilt object holds lead. -/
  handles : ∀ kind id address object, (outcome.objects kind).get? id = some address →
    heap.object? address = some object → ∀ reference ∈ object.handles,
      LeadsTo outcome problems reference.1 reference.2.id (heap.target? reference.2)
  /-- And so do its links back. -/
  backLinks : ∀ kind id address object, (outcome.objects kind).get? id = some address →
    heap.object? address = some object → ∀ link ∈ object.backLinks,
      LeadsTo outcome problems link.1 link.2.id (heap.follow? link.2)
  /-- None of its values has a computed part, in which there could be further references. -/
  settled : ∀ kind id address object, (outcome.objects kind).get? id = some address →
    heap.object? address = some object → object.inValues Value.deferralsOfEntries = []
  /-- The applications are the rebuilt entities whose records say so, in the order of their ids. -/
  applications : outcome.applications =
    Table.values (outcome.entities.filter fun entry =>
      (graph.entities.get? entry.1).any EntityMemento.isApplication)

/-- A heap that has lost other objects than the rebuilt ones is as faithful. -/
theorem Faithful.kept {outcome : RebindOutcome} {problems : List RebindProblem} {before after : Heap}
    (faithful : Faithful registry graph outcome problems before)
    (sameTargets : ∀ handle, after.target? handle = before.target? handle)
    (rebuiltKept : ∀ kind id address object, (outcome.objects kind).get? id = some address →
      before.object? address = some object → after.object? address = some object)
    (noneMade : ∀ address object, after.object? address = some object →
      before.object? address = some object) :
    Faithful registry graph outcome problems after where
  held := faithful.held
  others := faithful.others
  records := by
    intro kind id address isBuilt
    obtain ⟨record, object, isRecord, isObject, isKey, isMemento⟩ :=
      faithful.records kind id address isBuilt
    exact ⟨record, object, isRecord, rebuiltKept kind id address object isBuilt isObject, isKey,
      isMemento⟩
  handles := by
    intro kind id address object isBuilt isObject reference member
    rw [sameTargets]
    exact faithful.handles kind id address object isBuilt (noneMade _ _ isObject) reference member
  backLinks := by
    intro kind id address object isBuilt isObject link member
    obtain ⟨leads, isProblem⟩ :=
      faithful.backLinks kind id address object isBuilt (noneMade _ _ isObject) link member
    have follows : after.follow? link.2 = before.follow? link.2 := by
      unfold Heap.follow? at leads ⊢
      cases isTarget : link.2.target with
      | none => rfl
      | some target =>
          rw [isTarget, Option.filter_some] at leads
          rw [Option.filter_some, Option.filter_some]
          cases isAlive : before.object? target with
          | none =>
              cases isLeft : after.object? target with
              | none => rfl
              | some object =>
                  rw [noneMade _ _ isLeft] at isAlive
                  cases isAlive
          | some object =>
              rw [isAlive] at leads
              rw [rebuiltKept _ _ target object leads.symm isAlive]
    exact ⟨follows.trans leads, follows ▸ isProblem⟩
  settled := fun kind id address object isBuilt isObject =>
    faithful.settled kind id address object isBuilt (noneMade _ _ isObject)
  applications := faithful.applications

/-! ## What a rebuilt object refers to -/

section Rebuilt

variable {entries : Table ArenaEntry} {built : ObjectKind → Table Address}
  {record : ObjectMemento LiveValue}

theorem inValues_rebuilt {α : Type} {ofTable : Table LiveValue → List α} (empty : ofTable [] = []) :
    (rebuilt entries built record).inValues ofTable = record.valueReferences ofTable := by
  cases record with
  | entity record => exact (congrArg _ empty).trans (List.append_nil _)
  | location record => exact (congrArg _ empty).trans (List.append_nil _)
  | policy record => rfl

/-- A rebuilt object owns the references of the ids that its record links to. -/
theorem mem_linked_rebuilt {reference : ObjectKind × Handle}
    (member : reference ∈ (rebuilt entries built record).linked) :
    ∃ key ∈ record.links, reference = (key.kind, handleOf entries key.id) := by
  have ofLinks : ∀ {kind : ObjectKind} {ids : List String},
      (∀ id ∈ ids, ⟨kind, id⟩ ∈ record.links) →
      reference ∈ (ids.map (handleOf entries)).map (Prod.mk kind) →
      ∃ key ∈ record.links, reference = (key.kind, handleOf entries key.id) := by
    intro kind ids inLinks isLink
    simp only [List.map_map, List.mem_map, Function.comp] at isLink
    obtain ⟨id, isId, rfl⟩ := isLink
    exact ⟨⟨kind, id⟩, inLinks id isId, rfl⟩
  cases record with
  | entity record =>
      obtain ⟨-, -, children, locations, policies, enrichers⟩ :=
        (@EntityMemento.forall_links _ record _).mp fun _ isKey => isKey
      simp only [LiveObject.linked, rebuilt, List.mem_append] at member
      rcases member with ((isChild | isLocation) | isPolicy) | isEnricher
      · exact ofLinks children isChild
      · exact ofLinks locations isLocation
      · exact ofLinks policies isPolicy
      · exact ofLinks enrichers isEnricher
  | location record =>
      obtain ⟨-, children⟩ :=
        (@LocationMemento.forall_links _ record _).mp fun _ isKey => isKey
      exact ofLinks children member
  | policy record => cases member

/-- The links back of a rebuilt object are those to the ids that its record names. -/
theorem mem_backLinks_rebuilt {link : ObjectKind × WeakLink}
    (member : link ∈ (rebuilt entries built record).backLinks) :
    ∃ key ∈ record.links, link = (key.kind, linkOf entries built key.kind key.id) := by
  have ofBack : ∀ {kind : ObjectKind} {back : Option String},
      (∀ id ∈ back, ⟨kind, id⟩ ∈ record.links) →
      link ∈ (back.map (linkOf entries built kind)).toList.map (Prod.mk kind) →
      ∃ key ∈ record.links, link = (key.kind, linkOf entries built key.kind key.id) := by
    intro kind back inLinks isLink
    cases back with
    | none => cases isLink
    | some id =>
        rw [List.mem_singleton.mp isLink]
        exact ⟨⟨kind, id⟩, inLinks id rfl, rfl⟩
  cases record with
  | entity record =>
      obtain ⟨parent, application, -⟩ :=
        (@EntityMemento.forall_links _ record _).mp fun _ isKey => isKey
      simp only [LiveObject.backLinks, rebuilt, List.mem_append] at member
      exact member.elim (ofBack parent) (ofBack application)
  | location record =>
      obtain ⟨parent, -⟩ :=
        (@LocationMemento.forall_links _ record _).mp fun _ isKey => isKey
      exact ofBack parent member
  | policy record => cases member

end Rebuilt

/-! ## A whole pass -/

/-- What loading must leave: every record under its own id, every id of one kind, every link to a
record, and in the values only references of the arena to records. -/
structure Loaded (graph : Graph LiveValue) (heap : Heap) (arena : Arena) : Prop where
  keyed : graph.Keyed
  oneKind : graph.OneKind
  linked : graph.Linked
  tracks : arena.Tracks graph.Names (fun _ _ => False) heap
  values : ∀ kind, ∀ entry ∈ graph.records kind,
    ∀ reference ∈ entry.2.valueReferences Value.referencesOfEntries,
      arena.Knows reference.1 reference.2.id reference.2
  settled : ∀ kind, ∀ entry ∈ graph.records kind,
    entry.2.valueReferences Value.deferralsOfEntries = []

namespace Pass

variable {outcome : RebindOutcome} {problems : List RebindProblem} {state : PassState}

/-- Where the name of a record leads: to what has been built for it, or to none for a problem. -/
theorem leadsTo_of_names (keyed : graph.Keyed)
    (held : ∀ kind id, (outcome.objects kind).contains id = true ↔
      ∃ record, (graph.records kind).get? id = some record ∧
        registry.contains kind record.typeName = true)
    (others : problems = ObjectKind.rebindOrder.flatMap fun kind =>
      (graph.records kind).values.filterMap (problem? registry))
    (isNamed : graph.Names kind id) :
    LeadsTo outcome problems kind id ((outcome.objects kind).get? id) := by
  refine ⟨rfl, ?_⟩
  obtain ⟨record, isRecord⟩ := Graph.names_iff.mp isNamed
  have isHeld : (outcome.objects kind).contains id = registry.contains kind record.typeName := by
    rw [Bool.eq_iff_iff, held]
    constructor
    · rintro ⟨same, isSame, isType⟩
      rw [isRecord] at isSame
      cases isSame
      exact isType
    · exact fun isType => ⟨record, isRecord, isType⟩
  rw [← Option.not_isSome_iff_eq_none, ← Table.contains, isHeld, others,
    exists_problem_iff keyed isRecord, Bool.not_eq_true]

/-- The applications of a graph that have been built, in the order of their ids. -/
theorem filterMap_applicationIds (keyed : graph.Keyed) {entities : Table Address}
    (ordered : entities.Ordered)
    (within : ∀ entry ∈ entities, graph.Names .entity entry.1) :
    graph.applicationIds.filterMap entities.get? =
      Table.values (entities.filter fun entry =>
        (graph.entities.get? entry.1).any EntityMemento.isApplication) := by
  have own : ∀ entry ∈ graph.entities, entry.1 = entry.2.id := fun entry member =>
    keyed.own .entity (entry.1, .entity entry.2) (List.mem_map_of_mem member)
  have entitiesOrdered : graph.entities.Ordered := by
    have mapped := keyed.ordered .entity
    rwa [Graph.records, Table.Ordered, Table.mapValues, List.pairwise_map] at mapped
  refine Eq.trans ?_ (Table.filterMap_get?_eq entitiesOrdered ordered within
    EntityMemento.isApplication)
  rw [Graph.applicationIds, Table.values, List.filterMap_map, List.filterMap_filterMap]
  refine List.filterMap_congr fun entry member => ?_
  simp only [Function.comp, own entry member]
  split <;> rfl

variable {entries : Table ArenaEntry}

section Restored

variable (restored : Restored graph entries outcome.objects problems graph.Names state)
  (held : ∀ kind id, (outcome.objects kind).contains id = true ↔
    ∃ record, (graph.records kind).get? id = some record ∧
      registry.contains kind record.typeName = true)

include restored held

/-- What has been built for a record is as the record says. -/
theorem Restored.object_of_built {address : Address}
    (isBuilt : (outcome.objects kind).get? id = some address) :
    ∃ record, (graph.records kind).get? id = some record ∧
      state.arena.heap.object? address = some (rebuilt entries outcome.objects record) := by
  obtain ⟨record, isRecord, -⟩ := (held kind id).mp (Option.isSome_iff_exists.mpr ⟨_, isBuilt⟩)
  refine ⟨record, isRecord, ?_⟩
  rcases restored.objects kind id address record isBuilt isRecord with ⟨-, isObject⟩ | ⟨notDone, -⟩
  · exact isObject
  · exact absurd (Graph.names_iff.mpr ⟨record, isRecord⟩) notDone

theorem Restored.eq_rebuilt {address : Address} {object : LiveObject}
    (isBuilt : (outcome.objects kind).get? id = some address)
    (isObject : state.arena.heap.object? address = some object) :
    ∃ record, (graph.records kind).get? id = some record ∧
      object = rebuilt entries outcome.objects record := by
  obtain ⟨record, isRecord, isRebuilt⟩ := restored.object_of_built held isBuilt
  rw [isObject] at isRebuilt
  exact ⟨record, isRecord, Option.some.inj isRebuilt⟩

/-- A link back leads to what has been built for its record. -/
theorem Restored.follow?_linkOf (kind : ObjectKind) (id : String) :
    state.arena.heap.follow? (linkOf entries outcome.objects kind id) =
      (outcome.objects kind).get? id := by
  rw [Heap.follow?, linkOf]
  cases isTarget : (outcome.objects kind).get? id with
  | none => rfl
  | some target =>
      obtain ⟨other, -, isAlive⟩ := restored.object_of_built held isTarget
      rw [Option.filter_some, isAlive]
      rfl

/-- Once all objects have their state, the pass has been faithful. -/
theorem Restored.faithful (keyed : graph.Keyed) (linked : graph.Linked)
    (registered : Registered graph entries)
    (values : ∀ kind, ∀ entry ∈ graph.records kind,
      ∀ reference ∈ entry.2.valueReferences Value.referencesOfEntries,
        ∃ recorded, entries.get? reference.2.id = some ⟨reference.1, reference.2, recorded⟩)
    (settled : ∀ kind, ∀ entry ∈ graph.records kind,
      entry.2.valueReferences Value.deferralsOfEntries = [])
    (others : problems = ObjectKind.rebindOrder.flatMap fun kind =>
      (graph.records kind).values.filterMap (problem? registry))
    (ordered : outcome.entities.Ordered)
    (applications : outcome.applications =
      graph.applicationIds.filterMap outcome.entities.get?) :
    Faithful registry graph outcome problems state.arena.heap := by
  have leads : ∀ {kind id entry}, graph.Names kind id → entries.get? id = some entry →
      entry.kind = kind → LeadsTo outcome problems kind id
        (state.arena.heap.target? entry.handle) := by
    intro kind id entry isNamed isEntry isKind
    rw [restored.leads id entry isEntry, isKind]
    exact leadsTo_of_names keyed held others isNamed
  refine {
    held := held
    others := others
    records := fun kind id address isBuilt => ?_
    handles := fun kind id address object isBuilt isObject reference member => ?_
    backLinks := fun kind id address object isBuilt isObject link member => ?_
    settled := fun kind id address object isBuilt isObject => ?_
    applications := ?_ }
  · obtain ⟨record, isRecord, isObject⟩ := restored.object_of_built held isBuilt
    have member := Table.mem_of_get? isRecord
    refine ⟨record, _, isRecord, isObject, ?_, registered.memento_rebuilt (linked kind _ member)⟩
    have isId : id = record.id := keyed.own kind _ member
    have isKind : record.kind = kind := Graph.kind_of_mem_records member
    rw [isId, ← isKind]
    cases record <;> rfl
  · obtain ⟨record, isRecord, rfl⟩ := restored.eq_rebuilt held isBuilt isObject
    have isMember := Table.mem_of_get? isRecord
    rcases List.mem_append.mp member with isLinked | isValue
    · obtain ⟨key, isKey, rfl⟩ := mem_linked_rebuilt isLinked
      have isNamed := linked kind _ isMember key isKey
      rw [registered.id_handleOf isNamed]
      exact leads isNamed (registered.get?_handleOf isNamed) rfl
    · rw [inValues_rebuilt rfl] at isValue
      obtain ⟨recorded, isEntry⟩ := values kind _ isMember reference isValue
      exact leads (registered.only _ _ isEntry) isEntry rfl
  · obtain ⟨record, isRecord, rfl⟩ := restored.eq_rebuilt held isBuilt isObject
    obtain ⟨key, isKey, rfl⟩ := mem_backLinks_rebuilt member
    have isNamed := linked kind _ (Table.mem_of_get? isRecord) key isKey
    have isId : (linkOf entries outcome.objects key.kind key.id).id = key.id :=
      registered.id_handleOf isNamed
    rw [restored.follow?_linkOf held, isId]
    exact leadsTo_of_names keyed held others isNamed
  · obtain ⟨record, isRecord, rfl⟩ := restored.eq_rebuilt held isBuilt isObject
    rw [inValues_rebuilt rfl]
    exact settled kind _ (Table.mem_of_get? isRecord)
  · rw [applications]
    refine filterMap_applicationIds keyed ordered fun entry member => ?_
    obtain ⟨record, isRecord, -⟩ := (held .entity entry.1).mp
      (Option.isSome_iff_exists.mpr ⟨_, Table.get?_of_mem ordered member⟩)
    exact Graph.names_iff.mpr ⟨record, isRecord⟩

end Restored

theorem builtOf_held {built : ObjectKind → Table Address} {table : Table Address}
    (keyed : graph.Keyed)
    (builtOf : BuiltOf registry graph kind entries built problems (graph.records kind) table state)
    (id : String) : table.contains id = true ↔ ∃ record, (graph.records kind).get? id = some record ∧
      registry.contains kind record.typeName = true := by
  refine (builtOf.isBuilt id).trans (exists_congr fun record => and_congr_left fun _ => ?_)
  exact ⟨Table.get?_of_mem (keyed.ordered kind), Table.mem_of_get?⟩

/-- The objects that have been built get their state, kind by kind. -/
theorem reconstructKinds_run (registry : Registry) (registered : Registered graph entries)
    (linked : graph.Linked) (keyed : graph.Keyed)
    (assembled : Assembled graph entries outcome.objects state.arena.heap)
    (sameEntries : state.arena.entries = entries) :
    ∃ first second third,
      reconstructKind registry graph .location outcome.locations state = (.ok (), first) ∧
      reconstructKind registry graph .entity outcome.entities first = (.ok (), second) ∧
      reconstructKind registry graph .policy outcome.policies second = (.ok (), third) ∧
      Restored graph entries outcome.objects state.problems graph.Names third := by
  obtain ⟨first, firstRan, firstRestored⟩ :=
    reconstructKind_run registry .location
      (fun kind id => kind = .location ∧ graph.Names .location id) registered linked keyed
      assembled.apart (restored_of_assembled assembled sameEntries)
      (fun _ impossible => impossible) (by simp)
  obtain ⟨second, secondRan, secondRestored⟩ :=
    reconstructKind_run registry .entity
      (fun kind id => (kind = .location ∧ graph.Names .location id) ∨
        (kind = .entity ∧ graph.Names .entity id)) registered linked keyed
      assembled.apart firstRestored (by simp) (by simp)
  obtain ⟨third, thirdRan, thirdRestored⟩ :=
    reconstructKind_run registry .policy graph.Names registered
      linked keyed assembled.apart secondRestored (by simp) (by
        intro kind id
        cases kind <;> simp)
  exact ⟨first, second, third, firstRan, secondRan, thirdRan, thirdRestored⟩

/-- A pass over the arena of a loaded graph whose records have been registered succeeds, and is
faithful. -/
theorem hydrate_run (keyed : graph.Keyed) (linked : graph.Linked)
    (tracks : state.arena.Tracks graph.Names graph.Names heap)
    (values : ∀ kind, ∀ entry ∈ graph.records kind,
      ∀ reference ∈ entry.2.valueReferences Value.referencesOfEntries,
        state.arena.Knows reference.1 reference.2.id reference.2)
    (settled : ∀ kind, ∀ entry ∈ graph.records kind,
      entry.2.valueReferences Value.deferralsOfEntries = [])
    (basic : registry.Basic) (accepts : ∀ kind, Accepts registry strictness graph kind)
    (isFirst : state.problems = []) :
    ∃ outcome after, hydrate registry strictness graph state = (.ok outcome, after) ∧
      Faithful registry graph outcome after.problems after.arena.heap := by
  have registered := tracks.isRegistered
  obtain ⟨locations, withLocations, locationsRan, -, locationsBuilt⟩ :=
    buildKind_run .location basic keyed registered (accepts _) rfl tracks.assembled rfl
  obtain ⟨entities, withEntities, entitiesRan, entitiesOrdered, entitiesBuilt⟩ :=
    buildKind_run .entity basic keyed registered (accepts _) locationsBuilt.sameEntries
      locationsBuilt.assembled rfl
  obtain ⟨policies, withPolicies, policiesRan, -, policiesBuilt⟩ :=
    buildKind_run .policy basic keyed registered (accepts _) entitiesBuilt.sameEntries
      entitiesBuilt.assembled rfl
  let outcome : RebindOutcome :=
    ⟨graph.applicationIds.filterMap entities.get?, entities, locations, policies⟩
  have sameBuilt : withKind .policy policies (withKind .entity entities
      (withKind .location locations fun _ => [])) = outcome.objects := by
    funext kind
    cases kind <;> rfl
  obtain ⟨first, second, third, firstRan, secondRan, thirdRan, thirdRestored⟩ :=
    @reconstructKinds_run graph outcome withPolicies _ registry registered linked keyed
      (sameBuilt ▸ policiesBuilt.assembled) policiesBuilt.sameEntries
  refine ⟨outcome, third, ?_, ?_⟩
  · rw [hydrate]
    refine (bind_ok (rfl : Pass.arena state = (.ok state.arena, state))).trans ?_
    refine (bind_ok ((lift_run _).trans (by rw [tracks.checkReferences]))).trans ?_
    refine (bind_ok locationsRan).trans ((bind_ok entitiesRan).trans ((bind_ok policiesRan).trans ?_))
    exact (bind_ok firstRan).trans ((bind_ok secondRan).trans ((bind_ok thirdRan).trans rfl))
  · refine (thirdRestored.sameProblems ▸ thirdRestored).faithful ?_ keyed linked registered values
      settled ?_ entitiesOrdered rfl
    · intro kind id
      cases kind with
      | entity => exact builtOf_held keyed entitiesBuilt id
      | location => exact builtOf_held keyed locationsBuilt id
      | policy => exact builtOf_held keyed policiesBuilt id
    · rw [thirdRestored.sameProblems, policiesBuilt.noted, entitiesBuilt.noted,
        locationsBuilt.noted, isFirst]
      simp [ObjectKind.rebindOrder]

end Pass

end GraphCheckpoint
