import GraphCheckpoint.Proofs.Live.Heap
import GraphCheckpoint.Proofs.Rebind.Meeting
import GraphCheckpoint.Proofs.Rebind.Restoring

/-!
Contract: what a pass comes to where references may lead to no record.

Owns:
- `Failure.Blames`, a failure that names a missing object only where one is missing;
- registration of all records, however it ends;
- building of the objects of registered types;
- rebuilding of their state, which finds the links that lead to no record;
- `Pass.hydrate_ends`: a pass that succeeds has found a record for all that was asked for and for all
  links, and one that fails for want of an object names one that has no record.

Does not own: which objects a pass rebuilds where nothing is missing.
-/

namespace GraphCheckpoint

variable {kind : ObjectKind} {id key typeName : String} {graph : Graph LiveValue}
  {registry : Registry} {strictness : TypeResolution} {lacks : ObjectKey → Prop}
  {asked : ObjectKind → String → Prop} {heap : Heap} {address other : Address}

/-- A failure for want of an object names one that is lacking. -/
def Failure.Blames (lacks : ObjectKey → Prop) (failure : Failure) : Prop :=
  failure.isNoSuchObject = true →
    ∃ key : ObjectKey, failure = .noSuchObject key.kind key.id ∧ lacks key

theorem Failure.blames_of_other {failure : Failure} (differs : failure.isNoSuchObject = false) :
    failure.Blames lacks := by
  intro isMissing
  rw [differs] at isMissing
  cases isMissing

theorem Failure.blames_noSuchObject (isLacking : lacks ⟨kind, id⟩) :
    (Failure.noSuchObject kind id).Blames lacks :=
  fun _ => ⟨⟨kind, id⟩, rfl, isLacking⟩

theorem Failure.Blames.imp {failure : Failure} {more : ObjectKey → Prop}
    (blames : failure.Blames lacks) (areMore : ∀ key, lacks key → more key) :
    failure.Blames more := fun isMissing =>
  (blames isMissing).imp fun key found => ⟨found.1, areMore key found.2⟩

/-- Every record of the graph has an entry of its kind, and no other entry counts as a record. -/
structure Recorded (graph : Graph LiveValue) (entries : Table ArenaEntry) : Prop where
  present : ∀ kind id, graph.Names kind id → ∃ handle, entries.get? id = some ⟨kind, handle, true⟩
  only : ∀ id entry, entries.get? id = some entry → entry.hasRecord = true →
    graph.Names entry.kind id

theorem Arena.Meets.isRecorded {arena : Arena} (meets : arena.Meets asked graph.Names) :
    Recorded graph arena.entries := ⟨meets.present, meets.onlyRecorded⟩

/-- A registered id has a reference. -/
theorem Recorded.reference_eq_ok {arena : Arena} (recorded : Recorded graph arena.entries)
    (isNamed : graph.Names kind id) : ∃ handle, arena.reference kind id = .ok handle := by
  exact (recorded.present kind id isNamed).imp fun _ => Arena.reference_eq_ok_iff.mpr

/-- An id without a record has none. -/
theorem Recorded.reference_eq_error {arena : Arena} (recorded : Recorded graph arena.entries)
    (notNamed : ¬ graph.Names kind id) :
    arena.reference kind id = .error (.noSuchObject kind id) := by
  rcases arena.reference_cases kind id with ⟨fails, -⟩ | ⟨handle, -, isMet⟩
  · exact fails
  · exact absurd (recorded.only id _ isMet rfl) notNamed

/-! ## Objects that take their state back -/

/-- There is an object at the address, and it behaves as objects ordinarily do. -/
def Heap.Restorable (heap : Heap) (address : Address) : Prop :=
  ∃ object, heap.object? address = some object ∧ object.behaviour = .ordinary

theorem Heap.Restorable.update {change : LiveObject → LiveObject}
    (restorable : heap.Restorable other)
    (keeps : ∀ object, (change object).behaviour = object.behaviour) :
    (heap.update address change).Restorable other := by
  obtain ⟨object, isObject, isOrdinary⟩ := restorable
  rw [Restorable, object?_update]
  split
  · exact ⟨change object, by rw [isObject, Option.map_some], (keeps object).trans isOrdinary⟩
  · exact ⟨object, isObject, isOrdinary⟩

namespace Pass

variable {state after : PassState}

/-- No id is met, and objects that behave ordinarily stay so. -/
structure Kept (before after : PassState) : Prop where
  sameEntries : after.arena.entries = before.arena.entries
  restorable : ∀ address, before.arena.heap.Restorable address → after.arena.heap.Restorable address

theorem Kept.refl (state : PassState) : Kept state state := ⟨rfl, fun _ restorable => restorable⟩

theorem Kept.trans {first second third : PassState} (early : Kept first second)
    (late : Kept second third) : Kept first third :=
  ⟨late.sameEntries.trans early.sameEntries, fun address restorable =>
    late.restorable address (early.restorable address restorable)⟩

theorem Kept.recorded (kept : Kept state after) (recorded : Recorded graph state.arena.entries) :
    Recorded graph after.arena.entries := kept.sameEntries ▸ recorded

/-! ## Registration -/

/-- All records are registered over what was asked for before, or one of them is refused. -/
theorem registerAll_ends (graph : Graph LiveValue)
    (meets : state.arena.Meets asked fun _ _ => False) :
    Ends (registerAll graph) state (fun failure => failure.isNoSuchObject = false) fun _ after =>
      after.arena.Meets asked graph.Names := by
  refine Ends.imp (registerAll_ends_of graph
    (fun done arena => arena.Meets asked fun kind id =>
      ∃ mention ∈ done, mention.kind = kind ∧ mention.id = id)
    (fun done kind id typeName rest arena _ arenaMeets => ?_)
    (meets.congr (fun _ _ => Iff.rfl) (by simp)))
    (fun _ failed => failed) fun _ after held => ?_
  · refine (arenaMeets.register kind id typeName).imp_right ?_
    rintro ⟨registered, ran, registeredMeets⟩
    refine ⟨registered, ran, registeredMeets.congr (fun _ _ => Iff.rfl) fun other key => ?_⟩
    simp only [List.mem_append, List.mem_singleton, or_and_right, exists_or, exists_eq_left]
    exact or_congr Iff.rfl (and_congr eq_comm eq_comm)
  · exact held.2.congr (fun _ _ => Iff.rfl) fun _ _ => Graph.names_iff_exists_mention

/-! ## Building -/

/-- The object of a record is built, unless its slot is bound already. -/
theorem build_ends (basic : registry.Basic) (recorded : Recorded graph state.arena.entries)
    (isNamed : graph.Names kind key) (isType : registry.contains kind typeName = true) :
    Ends (build registry kind key typeName) state
      (fun failure => failure.isTypeNotFound = false ∧ failure.isNoSuchObject = false)
      fun address after => Kept state after ∧ after.arena.heap.Restorable address := by
  obtain ⟨handle, isReference⟩ := (⟨recorded.present, recorded.only⟩ :
    Recorded graph (made kind key typeName state).entries).reference_eq_ok isNamed
  have binds := Arena.bind_eq isReference (newAddress state)
  split at binds
  · obtain ⟨remembered, ran⟩ := build_of_bind basic isType binds
    exact .of_error ran ⟨rfl, rfl⟩
  · obtain ⟨remembered, ran⟩ := build_of_bind basic isType binds
    refine .of_ok ran ⟨⟨rfl, ?_⟩, ⟨_, (Heap.object?_create _).trans (if_pos rfl), rfl⟩⟩
    rintro other ⟨old, isOld, isOrdinary⟩
    exact ⟨old, Heap.object?_create_of_some _ isOld, isOrdinary⟩

/-- Every record of the kind has an object that takes its state back. -/
def BuiltAll (graph : Graph LiveValue) (kind : ObjectKind) (table : Table Address) (heap : Heap) :
    Prop :=
  ∀ entry ∈ graph.records kind,
    ∃ address, table.get? entry.1 = some address ∧ heap.Restorable address

theorem Kept.builtAll {table : Table Address} (kept : Kept state after)
    (builtAll : BuiltAll graph kind table state.arena.heap) :
    BuiltAll graph kind table after.arena.heap := fun entry member =>
  (builtAll entry member).imp fun address => And.imp_right (kept.restorable address)

/-- All objects of a kind are built where all their types are registered. -/
theorem buildKind_ends (kind : ObjectKind) (basic : registry.Basic)
    (recorded : Recorded graph state.arena.entries)
    (registered : ∀ entry ∈ graph.records kind,
      registry.contains kind entry.2.typeName = true) :
    Ends (buildKind registry strictness graph kind) state
      (fun failure => failure.isNoSuchObject = false)
      fun table after => Kept state after ∧ BuiltAll graph kind table after.arena.heap := by
  rw [buildKind]
  refine Ends.bind (ends_mapM (graph.records kind)
    (fun done results next => Kept state next ∧ ∀ entry ∈ done,
      ∃ address, (Table.ofEntries (results.filterMap id)).get? entry.1 = some address ∧
        next.arena.heap.Restorable address)
    (fun done results entry rest next isWhole held => ?_)
    ⟨Kept.refl state, fun _ member => absurd member List.not_mem_nil⟩)
    fun results after held => .of_ok rfl held
  obtain ⟨kept, built⟩ := held
  have member : entry ∈ graph.records kind := by
    rw [isWhole]
    simp
  have isKind : entry.2.kind = kind := Graph.kind_of_mem_records member
  have isNamed : graph.Names kind entry.1 :=
    Graph.names_iff_mem_keys.mpr (List.mem_map_of_mem member)
  have building := build_ends basic (kept.recorded recorded) isNamed
    (registered entry member)
  rw [← isKind] at building
  rcases building with ⟨failure, after, ran, notUnknown, notMissing⟩ |
    ⟨address, after, ran, afterKept, isOrdinary⟩
  · exact .of_error (bind_error (buildOrSkip_failed ran notUnknown)) notMissing
  · refine .step (buildOrSkip_built ran) (.of_ok rfl ⟨kept.trans afterKept, fun other isOther => ?_⟩)
    have isLast : Table.ofEntries ((results ++ [some (entry.1, address)]).filterMap id) =
        (Table.ofEntries (results.filterMap id)).insert entry.1 address := by
      simp [Table.ofEntries]
    rw [Option.map_some, isLast, Table.get?_insert]
    split
    · exact ⟨address, rfl, isOrdinary⟩
    · rename_i differs
      have isDone : other ∈ done := (List.mem_append.mp isOther).resolve_right fun isNew =>
        differs (congrArg Prod.fst (List.mem_singleton.mp isNew))
      exact (built other isDone).imp fun _ => And.imp_right (afterKept.restorable _)

/-! ## Rebuilding -/

section Links

variable (recorded : Recorded graph state.arena.entries)

include recorded

/-- A reference is found if the id has a record, and else the object is missing. -/
theorem reference_ends (kind : ObjectKind) (id : String) :
    Ends (reference kind id) state
      (Failure.Blames fun key => key = ⟨kind, id⟩ ∧ ¬ graph.Names key.kind key.id)
      fun _ after => after = state ∧ graph.Names kind id := by
  have ran := reference_eq kind id state
  by_cases isNamed : graph.Names kind id
  · obtain ⟨handle, isReference⟩ := recorded.reference_eq_ok isNamed
    exact .of_ok (isReference ▸ ran) ⟨rfl, isNamed⟩
  · refine .of_error (recorded.reference_eq_error isNamed ▸ ran) ?_
    exact Failure.blames_noSuchObject ⟨rfl, isNamed⟩

variable {links : ObjectKey → Prop}

/-- The references of a list of links are found if all of them have records. -/
theorem references_ends {ids : List String} (areLinks : ∀ id ∈ ids, links ⟨kind, id⟩) :
    Ends (ids.mapM (reference kind)) state
      (Failure.Blames fun key => links key ∧ ¬ graph.Names key.kind key.id)
      fun _ after => after = state ∧ ∀ id ∈ ids, graph.Names kind id := by
  refine ends_mapM ids (fun done _ after => after = state ∧ ∀ id ∈ done, graph.Names kind id)
    (fun done _ id rest after isWhole held => ?_)
    ⟨rfl, fun _ member => absurd member List.not_mem_nil⟩
  obtain ⟨rfl, named⟩ := held
  have isMember : id ∈ ids := by
    rw [isWhole]
    simp
  refine (reference_ends recorded kind id).imp
    (fun _ blames => blames.imp fun key found => ⟨found.1 ▸ areLinks id isMember, found.2⟩)
    fun _ after found => ⟨found.1, fun other member => ?_⟩
  rcases List.mem_append.mp member with isDone | isLast
  · exact named other isDone
  · rw [List.mem_singleton.mp isLast]
    exact found.2

/-- The same for a link back, which there may be or not. -/
theorem backReference_ends {back : Option String} (isLink : ∀ id ∈ back, links ⟨kind, id⟩) :
    Ends (back.mapM (reference kind)) state
      (Failure.Blames fun key => links key ∧ ¬ graph.Names key.kind key.id)
      fun _ after => after = state ∧ ∀ id ∈ back, graph.Names kind id := by
  cases back with
  | none => exact .of_ok rfl ⟨rfl, fun _ member => by cases member⟩
  | some id =>
      refine Ends.bind_reads ((reference_ends recorded kind id).imp
        (fun _ blames => blames.imp fun key found => ⟨found.1 ▸ isLink id rfl, found.2⟩)
        fun _ _ held => held) fun handle isNamed => .of_ok rfl ⟨rfl, fun other member => ?_⟩
      cases member
      exact isNamed

/-- An object gets its state if all links of its record lead to records. -/
theorem restore_ends (address : Address) {record : ObjectMemento LiveValue}
    (areLinks : ∀ key ∈ record.links, links key) :
    Ends (restore address record) state
      (Failure.Blames fun key => links key ∧ ¬ graph.Names key.kind key.id)
      fun _ after => Kept state after ∧ ∀ key ∈ record.links, graph.Names key.kind key.id := by
  have updates : ∀ (change : Heap → LiveObject → LiveObject),
      (∀ heap object, (change heap object).behaviour = object.behaviour) →
      Ends (mapHeap fun heap => heap.update address (change heap)) state
        (Failure.Blames fun key => links key ∧ ¬ graph.Names key.kind key.id)
        fun _ after => Kept state after := fun change keeps =>
    .of_ok rfl ⟨rfl, fun _ restorable => restorable.update (keeps _)⟩
  cases record with
  | entity record =>
      obtain ⟨parent, application, children, locations, policies, enrichers⟩ :=
        EntityMemento.forall_links.mp areLinks
      rw [restore]
      refine (backReference_ends recorded parent).bind_reads fun _ parentNamed => ?_
      refine (backReference_ends recorded application).bind_reads fun _ applicationNamed => ?_
      refine (references_ends recorded children).bind_reads fun _ childrenNamed => ?_
      refine (references_ends recorded locations).bind_reads fun _ locationsNamed => ?_
      refine (references_ends recorded policies).bind_reads fun _ policiesNamed => ?_
      refine (references_ends recorded enrichers).bind_reads fun _ enrichersNamed => ?_
      refine Ends.imp (updates _ fun _ _ => rfl) (fun _ failed => failed) fun _ _ kept => ?_
      exact ⟨kept, EntityMemento.forall_links.mpr ⟨parentNamed, applicationNamed, childrenNamed,
        locationsNamed, policiesNamed, enrichersNamed⟩⟩
  | location record =>
      obtain ⟨parent, children⟩ := LocationMemento.forall_links.mp areLinks
      rw [restore]
      refine (backReference_ends recorded parent).bind_reads fun _ parentNamed => ?_
      refine (references_ends recorded children).bind_reads fun _ childrenNamed => ?_
      refine Ends.imp (updates _ fun _ _ => rfl) (fun _ failed => failed) fun _ _ kept => ?_
      exact ⟨kept, LocationMemento.forall_links.mpr ⟨parentNamed, childrenNamed⟩⟩
  | policy record =>
      rw [restore]
      refine Ends.imp (updates _ fun _ _ => rfl) (fun _ failed => failed) fun _ _ kept => ?_
      exact ⟨kept, fun _ member => absurd member List.not_mem_nil⟩

/-- The objects of a kind get their state if all links of their records lead to records. -/
theorem reconstructKind_ends (registry : Registry) (kind : ObjectKind) {table : Table Address}
    (builtAll : BuiltAll graph kind table state.arena.heap)
    (areLinks : ∀ entry ∈ graph.records kind, ∀ key ∈ entry.2.links, links key) :
    Ends (reconstructKind registry graph kind table) state
      (Failure.Blames fun key => links key ∧ ¬ graph.Names key.kind key.id)
      fun _ after => Kept state after ∧ ∀ entry ∈ graph.records kind, ∀ key ∈ entry.2.links,
        graph.Names key.kind key.id := by
  refine ends_forM (graph.records kind)
    (fun done after => Kept state after ∧ ∀ entry ∈ done, ∀ key ∈ entry.2.links,
      graph.Names key.kind key.id)
    (fun done entry rest next isWhole held => ?_)
    ⟨Kept.refl state, fun _ member => absurd member List.not_mem_nil⟩
  obtain ⟨kept, named⟩ := held
  have member : entry ∈ graph.records kind := by
    rw [isWhole]
    simp
  obtain ⟨address, isBuilt, object, isObject, isOrdinary⟩ := kept.builtAll builtAll entry member
  simp only [isBuilt]
  refine .step (rfl : Pass.arena next = (.ok next.arena, next)) ?_
  rw [isObject]
  simp only [isOrdinary]
  refine (restore_ends (kept.recorded recorded) address (areLinks entry member)).imp
    (fun _ failed => failed) fun _ after restored => ⟨kept.trans restored.1, ?_⟩
  intro other isOther
  rcases List.mem_append.mp isOther with isDone | isLast
  · exact named other isDone
  · rw [List.mem_singleton.mp isLast]
    exact restored.2

end Links

/-! ## A whole pass -/

/-- A pass that succeeds has found a record for everything that was asked for and for every link, and
one that fails for want of an object names one that was asked for or linked to and has no record. -/
theorem hydrate_ends (strictness : TypeResolution) (basic : registry.Basic)
    (registered : ∀ kind, ∀ entry ∈ graph.records kind,
      registry.contains kind entry.2.typeName = true)
    (meets : state.arena.Meets asked graph.Names) {refers : ObjectKey → Prop}
    (areAsked : ∀ kind id, asked kind id → refers ⟨kind, id⟩)
    (areLinks : ∀ kind, ∀ entry ∈ graph.records kind, ∀ key ∈ entry.2.links, refers key) :
    Ends (hydrate registry strictness graph) state
      (Failure.Blames fun key => refers key ∧ ¬ graph.Names key.kind key.id)
      fun _ _ => (∀ kind id, asked kind id → graph.Names kind id) ∧ graph.Linked := by
  rw [hydrate]
  refine .step (rfl : Pass.arena state = (.ok state.arena, state)) ?_
  rcases meets.checkReferences with ⟨key, isMissing, isAsked, notNamed⟩ | ⟨passes, allNamed⟩
  · refine .of_error (bind_error ((lift_run _).trans (by rw [isMissing]))) ?_
    exact Failure.blames_noSuchObject ⟨areAsked _ _ isAsked, notNamed⟩
  refine .step ((lift_run _).trans (by rw [passes])) ?_
  -- No id is met from here on, so the entries stay those of the records.
  have recorded := meets.isRecorded
  have others : ∀ failure : Failure, failure.isNoSuchObject = false →
      failure.Blames fun key => refers key ∧ ¬ graph.Names key.kind key.id :=
    fun _ => Failure.blames_of_other
  refine Ends.bind ((buildKind_ends .location basic recorded (registered _)).imp others
    fun _ _ built => built) fun locations first built => ?_
  obtain ⟨firstKept, locationsBuilt⟩ := built
  refine Ends.bind ((buildKind_ends .entity basic (firstKept.recorded recorded) (registered _)).imp
    others fun _ _ built => built) fun entities second built => ?_
  obtain ⟨secondKept, entitiesBuilt⟩ := built
  have keptTwice := firstKept.trans secondKept
  refine Ends.bind ((buildKind_ends .policy basic (keptTwice.recorded recorded) (registered _)).imp
    others fun _ _ built => built) fun policies third built => ?_
  obtain ⟨thirdKept, policiesBuilt⟩ := built
  have kept := keptTwice.trans thirdKept
  refine (reconstructKind_ends (kept.recorded recorded) registry .location
    (thirdKept.builtAll (secondKept.builtAll locationsBuilt)) (areLinks _)).bind
      fun _ fourth restored => ?_
  obtain ⟨fourthKept, locationsLinked⟩ := restored
  refine (reconstructKind_ends ((kept.trans fourthKept).recorded recorded) registry .entity
    (fourthKept.builtAll (thirdKept.builtAll entitiesBuilt)) (areLinks _)).bind
      fun _ fifth restored => ?_
  obtain ⟨fifthKept, entitiesLinked⟩ := restored
  refine (reconstructKind_ends (((kept.trans fourthKept).trans fifthKept).recorded recorded)
    registry .policy (fifthKept.builtAll (fourthKept.builtAll policiesBuilt)) (areLinks _)).bind
      fun _ last restored => ?_
  refine .of_ok rfl ⟨allNamed, fun kind => ?_⟩
  cases kind with
  | entity => exact entitiesLinked
  | location => exact locationsLinked
  | policy => exact restored.2

/-- Records are registered and rebuilt only if all that was asked for, and all links, lead to records;
this fails for want of an object only if there is no record of it. -/
theorem rebuilding_ends (strictness : TypeResolution) (basic : registry.Basic)
    (registered : ∀ kind, ∀ entry ∈ graph.records kind,
      registry.contains kind entry.2.typeName = true)
    (meets : state.arena.Meets asked fun _ _ => False) {refers : ObjectKey → Prop}
    (areAsked : ∀ kind id, asked kind id → refers ⟨kind, id⟩)
    (areLinks : ∀ kind, ∀ entry ∈ graph.records kind, ∀ key ∈ entry.2.links, refers key) :
    Ends (do registerAll graph; hydrate registry strictness graph) state
      (Failure.Blames fun key => refers key ∧ ¬ graph.Names key.kind key.id)
      fun _ _ => (∀ kind id, asked kind id → graph.Names kind id) ∧ graph.Linked := by
  refine ((registerAll_ends graph meets).imp (fun _ => Failure.blames_of_other)
    fun _ _ meets => meets).bind fun _ after afterMeets => ?_
  exact hydrate_ends strictness basic registered afterMeets areAsked areLinks

end Pass

end GraphCheckpoint
