import GraphCheckpoint.Proofs.Rebind.Building

/-!
Contract: built objects get the state of their records.

Owns:
- `rebuilt`, the object that a record describes over an arena whose objects have been built;
- what one reconstruction leaves, and what the reconstruction of a kind leaves.

Does not own: the order of the kinds.

No slot is bound any more, so a weak link leads to what its id's slot is bound to for good.
-/

namespace GraphCheckpoint

variable {kind : ObjectKind} {id : String} {graph : Graph LiveValue} {entries : Table ArenaEntry}
  {built : ObjectKind → Table Address} {heap : Heap} {address : Address}
  {record : ObjectMemento LiveValue} {done : ObjectKind → String → Prop}

/-! ## Links of a record, list by list -/

theorem forall_mem_map_key {ids : List String} {holds : ObjectKey → Prop} :
    (∀ key ∈ ids.map (ObjectKey.mk kind), holds key) ↔ ∀ id ∈ ids, holds ⟨kind, id⟩ :=
  List.forall_mem_map

theorem EntityMemento.forall_links {V : Type} {memento : EntityMemento V}
    {holds : ObjectKey → Prop} :
    (∀ key ∈ memento.links, holds key) ↔
      (∀ id ∈ memento.parent, holds ⟨.entity, id⟩) ∧
      (∀ id ∈ memento.application, holds ⟨.entity, id⟩) ∧
      (∀ id ∈ memento.children, holds ⟨.entity, id⟩) ∧
      (∀ id ∈ memento.locations, holds ⟨.location, id⟩) ∧
      (∀ id ∈ memento.policies, holds ⟨.policy, id⟩) ∧
      ∀ id ∈ memento.enrichers, holds ⟨.policy, id⟩ := by
  simp only [EntityMemento.links, List.forall_mem_append, forall_mem_map_key, Option.mem_toList,
    Option.mem_def, and_assoc]

theorem LocationMemento.forall_links {V : Type} {memento : LocationMemento V}
    {holds : ObjectKey → Prop} :
    (∀ key ∈ memento.links, holds key) ↔
      (∀ id ∈ memento.parent, holds ⟨.location, id⟩) ∧
      ∀ id ∈ memento.children, holds ⟨.location, id⟩ := by
  simp only [LocationMemento.links, List.forall_mem_append, forall_mem_map_key, Option.mem_toList,
    Option.mem_def]

/-! ## The object of a record -/

/-- The reference of an id. -/
def handleOf (entries : Table ArenaEntry) (id : String) : Handle :=
  ((entries.get? id).map ArenaEntry.handle).getD default

/-- The link to what has been built for an id. -/
def linkOf (entries : Table ArenaEntry) (built : ObjectKind → Table Address) (kind : ObjectKind)
    (id : String) : WeakLink :=
  ⟨(handleOf entries id).id, (handleOf entries id).declaredType, (built kind).get? id⟩

/-- The object that a record describes. -/
def rebuilt (entries : Table ArenaEntry) (built : ObjectKind → Table Address) :
    ObjectMemento LiveValue → LiveObject
  | .entity record =>
      ⟨record.common, .entity ⟨record.parent.map (linkOf entries built .entity),
        record.children.map (handleOf entries), record.locations.map (handleOf entries),
        record.policies.map (handleOf entries), record.enrichers.map (handleOf entries),
        record.application.map (linkOf entries built .entity)⟩, .ordinary, none⟩
  | .location record =>
      ⟨record.common, .location ⟨record.parent.map (linkOf entries built .location),
        record.children.map (handleOf entries)⟩, .ordinary, none⟩
  | .policy record => ⟨record.common, .policy record.flags, .ordinary, none⟩

namespace Registered

variable (registered : Registered graph entries)

include registered

theorem get?_handleOf (isNamed : graph.Names kind id) :
    entries.get? id = some ⟨kind, handleOf entries id, true⟩ := by
  obtain ⟨handle, isEntry⟩ := registered.known kind id isNamed
  rw [handleOf, isEntry]
  rfl

theorem id_handleOf (isNamed : graph.Names kind id) : (handleOf entries id).id = id :=
  registered.apart.named id _ (registered.get?_handleOf isNamed)

theorem map_id_handleOf {ids : List String} (named : ∀ id ∈ ids, graph.Names kind id) :
    (ids.map (handleOf entries)).map Handle.id = ids := by
  rw [List.map_map]
  refine (List.map_congr_left fun id member => ?_).trans (List.map_id ids)
  exact registered.id_handleOf (named id member)

theorem map_id_linkOf {back : Option String} (named : ∀ id ∈ back, graph.Names kind id) :
    (back.map (linkOf entries built kind)).map WeakLink.id = back := by
  cases back with
  | none => rfl
  | some id => exact congrArg some (registered.id_handleOf (named id rfl))

/-- The weak link to a reference leads to what has been built for its id. -/
theorem map_downgrade_handleOf
    (leads : ∀ id entry, entries.get? id = some entry →
      heap.target? entry.handle = (built entry.kind).get? id)
    {back : Option String} (named : ∀ id ∈ back, graph.Names kind id) :
    (back.map (handleOf entries)).map heap.downgrade = back.map (linkOf entries built kind) := by
  cases back with
  | none => rfl
  | some id =>
      have isEntry := registered.get?_handleOf (named id rfl)
      simp only [Option.map_some, Heap.downgrade, linkOf, leads id _ isEntry]

/-- An object records what it was rebuilt from. -/
theorem memento_rebuilt (named : ∀ key ∈ record.links, graph.Names key.kind key.id) :
    (rebuilt entries built record).memento = .ok record := by
  cases record with
  | entity record =>
      obtain ⟨parent, application, children, locations, policies, enrichers⟩ :=
        EntityMemento.forall_links.mp named
      simp only [rebuilt, LiveObject.memento, LiveObject.stateMemento,
        registered.map_id_linkOf parent, registered.map_id_linkOf application,
        registered.map_id_handleOf children, registered.map_id_handleOf locations,
        registered.map_id_handleOf policies, registered.map_id_handleOf enrichers]
  | location record =>
      obtain ⟨parent, children⟩ := LocationMemento.forall_links.mp named
      simp only [rebuilt, LiveObject.memento, LiveObject.stateMemento,
        registered.map_id_linkOf parent, registered.map_id_handleOf children]
  | policy record => rfl

end Registered

namespace Pass

variable {state : PassState}

/-! ## References that are looked up -/

section References

variable (registered : Registered graph entries) (sameEntries : state.arena.entries = entries)

include registered sameEntries

theorem reference_run (isNamed : graph.Names kind id) :
    reference kind id state = (.ok (handleOf entries id), state) := by
  have isReference : state.arena.reference kind id = .ok (handleOf entries id) :=
    Arena.reference_eq_ok_iff.mpr (sameEntries ▸ registered.get?_handleOf isNamed)
  rw [reference_eq, isReference]

theorem references_run {ids : List String} (named : ∀ id ∈ ids, graph.Names kind id) :
    ids.mapM (reference kind) state = (.ok (ids.map (handleOf entries)), state) :=
  mapM_reads fun id member => reference_run registered sameEntries (named id member)

theorem backReference_run {back : Option String} (named : ∀ id ∈ back, graph.Names kind id) :
    back.mapM (reference kind) state = (.ok (back.map (handleOf entries)), state) := by
  cases back with
  | none => rfl
  | some id => exact (bind_ok (reference_run registered sameEntries (named id rfl))).trans rfl

end References

/-! ## One object -/

/-- The pass has put another object in the place of one, and done nothing else. -/
structure Replaced (address : Address) (object : LiveObject) (before after : PassState) : Prop where
  sameEntries : after.arena.entries = before.arena.entries
  sameProblems : after.problems = before.problems
  sameSlots : after.arena.heap.slots = before.arena.heap.slots
  objects : ∀ other, after.arena.heap.object? other =
    if other = address then some object else before.arena.heap.object? other

theorem replaced_mapHeap (change : Heap → LiveObject → LiveObject) {old new : LiveObject}
    (isOld : state.arena.heap.object? address = some old)
    (changes : change state.arena.heap old = new) :
    ∃ after, mapHeap (fun heap => heap.update address (change heap)) state = (.ok (), after) ∧
      Replaced address new state after := by
  refine ⟨_, rfl, rfl, rfl, rfl, fun other => ?_⟩
  refine (Heap.object?_update _).trans ?_
  split
  · rename_i same
    rw [same, isOld, Option.map_some, changes]
  · rfl

/-- A blank object becomes the one that its record describes. -/
theorem restore_run (registered : Registered graph entries)
    (sameEntries : state.arena.entries = entries)
    (leads : ∀ id entry, entries.get? id = some entry →
      state.arena.heap.target? entry.handle = (built entry.kind).get? id)
    (linked : ∀ key ∈ record.links, graph.Names key.kind key.id)
    (isBlank : state.arena.heap.object? address =
      some (LiveObject.blank record.kind record.id record.typeName)) :
    ∃ after, restore address record state = (.ok (), after) ∧
      Replaced address (rebuilt entries built record) state after := by
  cases record with
  | entity record =>
      obtain ⟨parent, application, children, locations, policies, enrichers⟩ :=
        EntityMemento.forall_links.mp linked
      rw [restore]
      obtain ⟨after, ran, replaced⟩ := replaced_mapHeap
        (fun heap object =>
          { object with
            common := restored record.common object.common
            state := .entity ⟨(record.parent.map (handleOf entries)).map heap.downgrade,
              record.children.map (handleOf entries), record.locations.map (handleOf entries),
              record.policies.map (handleOf entries), record.enrichers.map (handleOf entries),
              (record.application.map (handleOf entries)).map heap.downgrade⟩ })
        isBlank (by
          simp only [registered.map_downgrade_handleOf leads parent,
            registered.map_downgrade_handleOf leads application]
          rfl)
      refine ⟨after, ?_, replaced⟩
      refine (bind_ok (backReference_run registered sameEntries parent)).trans ?_
      refine (bind_ok (backReference_run registered sameEntries application)).trans ?_
      refine (bind_ok (references_run registered sameEntries children)).trans ?_
      refine (bind_ok (references_run registered sameEntries locations)).trans ?_
      refine (bind_ok (references_run registered sameEntries policies)).trans ?_
      exact (bind_ok (references_run registered sameEntries enrichers)).trans ran
  | location record =>
      obtain ⟨parent, children⟩ := LocationMemento.forall_links.mp linked
      rw [restore]
      obtain ⟨after, ran, replaced⟩ := replaced_mapHeap
        (fun heap object =>
          { object with
            common := restored record.common object.common
            state := .location ⟨(record.parent.map (handleOf entries)).map heap.downgrade,
              record.children.map (handleOf entries)⟩ })
        isBlank (by
          simp only [registered.map_downgrade_handleOf leads parent]
          rfl)
      refine ⟨after, ?_, replaced⟩
      refine (bind_ok (backReference_run registered sameEntries parent)).trans ?_
      exact (bind_ok (references_run registered sameEntries children)).trans ran
  | policy record =>
      rw [restore]
      exact replaced_mapHeap (fun _ object =>
        { object with
          common := restored record.common object.common
          state := .policy record.flags }) isBlank rfl

/-! ## All objects of a kind -/

/-- All objects have been built, and those of some records have their state. -/
structure Restored (graph : Graph LiveValue) (entries : Table ArenaEntry)
    (built : ObjectKind → Table Address) (problems : List RebindProblem)
    (done : ObjectKind → String → Prop) (state : PassState) : Prop where
  sameEntries : state.arena.entries = entries
  sameProblems : state.problems = problems
  leads : ∀ id entry, entries.get? id = some entry →
    state.arena.heap.target? entry.handle = (built entry.kind).get? id
  objects : ∀ kind id address record, (built kind).get? id = some address →
    (graph.records kind).get? id = some record →
    (done kind id ∧ state.arena.heap.object? address = some (rebuilt entries built record)) ∨
      (¬ done kind id ∧ state.arena.heap.object? address =
        some (LiveObject.blank kind id record.typeName))

/-- Nothing has its state where everything has just been built. -/
theorem restored_of_assembled (assembled : Assembled graph entries built state.arena.heap)
    (sameEntries : state.arena.entries = entries) :
    Restored graph entries built state.problems (fun _ _ => False) state where
  sameEntries := sameEntries
  sameProblems := rfl
  leads := assembled.leads
  objects := by
    intro kind id address record isBuilt isRecord
    obtain ⟨same, isSame, isBlank⟩ := assembled.blank kind id address isBuilt
    rw [isRecord] at isSame
    cases isSame
    exact Or.inr ⟨fun impossible => impossible, isBlank⟩

variable {registry : Registry} {problems : List RebindProblem} {further : ObjectKind → String → Prop}

/-- A record of which nothing has been built is passed over. -/
theorem Restored.passOver (restored : Restored graph entries built problems done state)
    (notBuilt : (built kind).get? id = none)
    (goesOn : ∀ other key, further other key ↔ done other key ∨ (other = kind ∧ key = id)) :
    Restored graph entries built problems further state where
  sameEntries := restored.sameEntries
  sameProblems := restored.sameProblems
  leads := restored.leads
  objects := by
    intro other key address found isAddress isFound
    refine (restored.objects other key address found isAddress isFound).imp
      (And.imp_left fun wasDone => (goesOn other key).mpr (Or.inl wasDone))
      (And.imp_left fun notDone isDone => ?_)
    rcases (goesOn other key).mp isDone with wasDone | ⟨rfl, rfl⟩
    · exact notDone wasDone
    · rw [notBuilt] at isAddress
      cases isAddress

/-- One more object has its state. It stands in the place of no other. -/
theorem Restored.replace {after : PassState}
    (restored : Restored graph entries built problems done state)
    (apart : ∀ one other id otherId address, (built one).get? id = some address →
      (built other).get? otherId = some address → one = other ∧ id = otherId)
    (isBuilt : (built kind).get? id = some address)
    (isRecord : (graph.records kind).get? id = some record)
    (replaced : Replaced address (rebuilt entries built record) state after)
    (goesOn : ∀ other key, further other key ↔ done other key ∨ (other = kind ∧ key = id)) :
    Restored graph entries built problems further after where
  sameEntries := replaced.sameEntries.trans restored.sameEntries
  sameProblems := replaced.sameProblems.trans restored.sameProblems
  leads := by
    intro other entry isEntry
    rw [Heap.target?, replaced.sameSlots]
    exact restored.leads other entry isEntry
  objects := by
    intro other key place found isPlace isFound
    rw [replaced.objects, goesOn]
    by_cases same : place = address
    · subst same
      obtain ⟨rfl, rfl⟩ := apart other kind key id place isPlace isBuilt
      rw [isRecord] at isFound
      cases isFound
      exact Or.inl ⟨Or.inr ⟨rfl, rfl⟩, if_pos rfl⟩
    · have differs : ¬ (other = kind ∧ key = id) := by
        rintro ⟨rfl, rfl⟩
        rw [isBuilt] at isPlace
        exact same (Option.some.inj isPlace).symm
      rw [if_neg same, or_iff_left differs]
      exact restored.objects other key place found isPlace isFound

/-- One more record: its object gets its state, if it has been built. -/
theorem reconstruct_run (registered : Registered graph entries) (linked : graph.Linked)
    (keyed : graph.Keyed)
    (apart : ∀ one other id otherId address, (built one).get? id = some address →
      (built other).get? otherId = some address → one = other ∧ id = otherId)
    (restored : Restored graph entries built problems done state)
    (member : (id, record) ∈ graph.records kind) (isNew : ¬ done kind id)
    (goesOn : ∀ other key, further other key ↔ done other key ∨ (other = kind ∧ key = id)) :
    ∃ after, (match (built kind).get? id with
        | some address => reconstruct registry address record
        | none => pure ()) state = (.ok (), after) ∧
      Restored graph entries built problems further after := by
  have isRecord := Table.get?_of_mem (keyed.ordered kind) member
  cases isBuilt : (built kind).get? id with
  | none => exact ⟨state, rfl, restored.passOver isBuilt goesOn⟩
  | some address =>
      have isBlank : state.arena.heap.object? address =
          some (LiveObject.blank kind id record.typeName) := by
        rcases restored.objects kind id address record isBuilt isRecord with ⟨isDone, -⟩ | ⟨-, blank⟩
        · exact absurd isDone isNew
        · exact blank
      have isKind : record.kind = kind := Graph.kind_of_mem_records member
      have isId : id = record.id := keyed.own kind _ member
      obtain ⟨after, ran, replaced⟩ :=
        restore_run registered restored.sameEntries
          restored.leads (linked kind _ member) (by rw [isKind, ← isId]; exact isBlank)
      refine ⟨after, ?_, restored.replace apart isBuilt isRecord replaced goesOn⟩
      refine (bind_ok (rfl : Pass.arena state = (.ok state.arena, state))).trans ?_
      rw [isBlank]
      exact ran

/-- The objects of a kind get their state. -/
theorem reconstructKind_run (registry : Registry) (kind : ObjectKind)
    (further : ObjectKind → String → Prop) (registered : Registered graph entries) (linked : graph.Linked)
    (keyed : graph.Keyed)
    (apart : ∀ one other id otherId address, (built one).get? id = some address →
      (built other).get? otherId = some address → one = other ∧ id = otherId)
    (restored : Restored graph entries built problems done state) (isNew : ∀ id, ¬ done kind id)
    (goesOn : ∀ other key, further other key ↔
      done other key ∨ (other = kind ∧ graph.Names kind key)) :
    ∃ after, reconstructKind registry graph kind (built kind) state = (.ok (), after) ∧
      Restored graph entries built problems further after := by
  obtain ⟨after, ran, afterRestored⟩ := forM_run (graph.records kind)
    (fun entry : String × ObjectMemento LiveValue =>
      match (built kind).get? entry.1 with
      | some address => reconstruct registry address entry.2
      | none => pure ())
    (fun gone next => Restored graph entries built problems
      (fun other key => done other key ∨ (other = kind ∧ key ∈ gone.map Prod.fst)) next)
    (by
      intro gone entry rest next isWhole nextRestored
      refine reconstruct_run registered linked keyed apart nextRestored
        (by rw [isWhole]; simp) ?_ ?_
      · rintro (wasDone | ⟨-, isGone⟩)
        · exact isNew entry.1 wasDone
        · exact keyed.not_mem_done isWhole isGone
      · intro other key
        simp only [List.map_append, List.map_cons, List.map_nil, List.mem_append,
          List.mem_singleton, and_or_left, or_assoc])
    (by simpa using restored)
  refine ⟨after, ran, afterRestored.sameEntries, afterRestored.sameProblems, afterRestored.leads, ?_⟩
  intro other key address found isAddress isFound
  rw [goesOn, Graph.names_iff_mem_keys]
  exact afterRestored.objects other key address found isAddress isFound

end Pass

end GraphCheckpoint
