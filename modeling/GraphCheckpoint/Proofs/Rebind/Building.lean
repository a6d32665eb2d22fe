import GraphCheckpoint.Proofs.Live.Heap
import GraphCheckpoint.Proofs.Rebind.Records

/-!
Contract: the objects that a pass builds, before any of them has its state.

Owns:
- `Registered`, an arena whose ids all have records;
- `Assembled`, blank objects at addresses of their own, each bound to the slot of its id;
- that the objects of a kind which are built are those of registered types, the others being problems.

Does not own: the state that the objects get.
-/

namespace GraphCheckpoint

variable {kind : ObjectKind} {key typeName : String} {graph : Graph LiveValue}
  {entries : Table ArenaEntry} {built : ObjectKind → Table Address} {heap : Heap}
  {registry : Registry} {strictness : TypeResolution}

/-- The ids met are those of the records of a graph, and each has a slot of its own. -/
structure Registered (graph : Graph LiveValue) (entries : Table ArenaEntry) : Prop where
  apart : Apart entries
  known : ∀ kind id, graph.Names kind id → ∃ handle, entries.get? id = some ⟨kind, handle, true⟩
  only : ∀ id entry, entries.get? id = some entry → graph.Names entry.kind id

theorem Arena.Tracks.isRegistered {arena : Arena}
    (tracks : arena.Tracks graph.Names graph.Names heap) : Registered graph arena.entries where
  apart := tracks.apart
  known := by
    intro kind id isNamed
    obtain ⟨handle, recorded, found⟩ := tracks.present kind id isNamed
    have isRecorded : recorded = true := (tracks.recorded id _ found).mpr isNamed
    exact ⟨handle, isRecorded ▸ found⟩
  only := fun id entry found => tracks.within _ _ _ (Arena.knows_of_get? found)

/-- Some tables of built objects, with another one in the place of that of a kind. -/
def withKind (kind : ObjectKind) (table : Table Address) (built : ObjectKind → Table Address) :
    ObjectKind → Table Address :=
  fun other => if other = kind then table else built other

@[simp] theorem withKind_self (table : Table Address) : withKind kind table built kind = table :=
  if_pos rfl

theorem withKind_of_ne {other : ObjectKind} (differs : other ≠ kind) (table : Table Address) :
    withKind kind table built other = built other := if_neg differs

theorem withKind_withKind {first second : Table Address} :
    withKind kind second (withKind kind first built) = withKind kind second built := by
  funext other
  unfold withKind
  split <;> rfl

/-- The built objects are blank, each has an address of its own, and the slot of every id leads to
what has been built for it. -/
structure Assembled (graph : Graph LiveValue) (entries : Table ArenaEntry)
    (built : ObjectKind → Table Address) (heap : Heap) : Prop where
  leads : ∀ id entry, entries.get? id = some entry →
    heap.target? entry.handle = (built entry.kind).get? id
  inRange : ∀ id entry, entries.get? id = some entry →
    entry.handle.slot < heap.slots.bindings.size
  blank : ∀ kind id address, (built kind).get? id = some address →
    ∃ record, (graph.records kind).get? id = some record ∧
      heap.object? address = some (LiveObject.blank kind id record.typeName)
  apart : ∀ one other id otherId address, (built one).get? id = some address →
    (built other).get? otherId = some address → one = other ∧ id = otherId

theorem Arena.Tracks.assembled {arena : Arena} {names registered : ObjectKind → String → Prop}
    (tracks : arena.Tracks names registered heap) :
    Assembled graph arena.entries (fun _ => []) arena.heap where
  leads := tracks.unbound
  inRange := tracks.inRange
  blank := nofun
  apart := nofun

/-! ## One object -/

/-- The factories make ordinary objects under the ids that they are asked for. -/
def Registry.Basic (registry : Registry) : Prop :=
  ∀ kind typeName factory, (registry.factories kind).get? typeName = some factory →
    factory.behaviour = .ordinary ∧ factory.fixedId = none

/-- It is enough to look at the factories that there are. -/
theorem Registry.basic_of_entries
    (each : ∀ kind ∈ ObjectKind.all, ∀ entry ∈ registry.factories kind,
      entry.2.behaviour = .ordinary ∧ entry.2.fixedId = none) : registry.Basic :=
  fun kind _ _ found => each kind kind.mem_all _ (Table.mem_of_get? found)

theorem Registry.Basic.make (basic : registry.Basic) (key : String) {factory : Factory}
    (found : (registry.factories kind).get? typeName = some factory) :
    factory.make kind typeName key = LiveObject.blank kind key typeName := by
  obtain ⟨isOrdinary, isFree⟩ := basic kind typeName factory found
  rw [Factory.make, isOrdinary, isFree]
  rfl

theorem target?_setIfInBounds (slots : Slots) (slot : Nat) (address : Address) (handle : Handle)
    (inRange : slot < slots.bindings.size) :
    Slots.target? ⟨slots.bindings.setIfInBounds slot (some address)⟩ handle =
      if handle.slot = slot then some address else slots.target? handle := by
  rw [Slots.target?, Slots.target?, Array.getElem?_setIfInBounds]
  by_cases same : handle.slot = slot
  · rw [if_pos same, if_pos same.symm, if_pos inRange]
    rfl
  · rw [if_neg same, if_neg fun flipped => same flipped.symm]

/-- A slot that has a reference is bound, unless it is bound already. -/
theorem Arena.bind_eq {arena : Arena} {handle : Handle}
    (isReference : arena.reference kind key = .ok handle) (address : Address) :
    arena.bind kind key address =
      if arena.heap.slots.isBound handle then
        .error (.invalidState ("object '" ++ handle.id ++ "' is already bound"))
      else
        .ok { arena with
          heap := { arena.heap with
            slots := ⟨arena.heap.slots.bindings.setIfInBounds handle.slot (some address)⟩ } } := by
  rw [Arena.bind, isReference]
  change (arena.heap.slots.bind handle address >>= _) = _
  rw [Slots.bind]
  cases arena.heap.slots.isBound handle <;> rfl

theorem Arena.bind_free {arena : Arena} {handle : Handle}
    (isReference : arena.reference kind key = .ok handle)
    (isFree : arena.heap.target? handle = none) (address : Address) :
    arena.bind kind key address = .ok { arena with
      heap := { arena.heap with
        slots := ⟨arena.heap.slots.bindings.setIfInBounds handle.slot (some address)⟩ } } := by
  have notBound : arena.heap.slots.isBound handle = false := congrArg Option.isSome isFree
  rw [bind_eq isReference, notBound, if_neg Bool.false_ne_true]

/-- A slot is bound for a registered id whose slot is not bound, and else nothing is. -/
theorem Arena.bind_cases (arena : Arena) (kind : ObjectKind) (id : String) (address : Address) :
    arena.bind kind id address = .error (.noSuchObject kind id) ∨
    (∃ detail, arena.bind kind id address = .error (.invalidState detail)) ∨
    ∃ handle, arena.entries.get? id = some ⟨kind, handle, true⟩ ∧
      arena.heap.target? handle = none ∧
      arena.bind kind id address = .ok { arena with
        heap := { arena.heap with
          slots := ⟨arena.heap.slots.bindings.setIfInBounds handle.slot (some address)⟩ } } := by
  rcases arena.reference_cases kind id with ⟨fails, -⟩ | ⟨handle, isReference, isMet⟩
  · refine Or.inl ?_
    rw [Arena.bind, fails]
    rfl
  · have binds := bind_eq isReference address
    split at binds
    · exact Or.inr (Or.inl ⟨_, binds⟩)
    · rename_i isFree
      exact Or.inr (Or.inr ⟨handle, isMet, Option.not_isSome_iff_eq_none.mp isFree, binds⟩)

/-- The heap in which one more object has been made, to which a slot is bound. -/
def Heap.withBuilt (object : LiveObject) (slot : Nat) (heap : Heap) : Heap :=
  { (heap.create object).2 with
    slots := ⟨heap.slots.bindings.setIfInBounds slot (some ⟨heap.objects.size⟩)⟩ }

theorem Heap.object?_withBuilt (object : LiveObject) (slot : Nat) (address : Address) :
    (heap.withBuilt object slot).object? address =
      if address.index = heap.objects.size then some object else heap.object? address :=
  object?_create object

theorem Heap.target?_withBuilt {slot : Nat} (inRange : slot < heap.slots.bindings.size)
    (object : LiveObject) (handle : Handle) :
    (heap.withBuilt object slot).target? handle =
      if handle.slot = slot then some ⟨heap.objects.size⟩ else heap.target? handle :=
  target?_setIfInBounds heap.slots slot ⟨heap.objects.size⟩ handle inRange

theorem Heap.size_bindings_withBuilt (object : LiveObject) (slot : Nat) :
    (heap.withBuilt object slot).slots.bindings.size = heap.slots.bindings.size :=
  Array.size_setIfInBounds

/-- One more object is built for a record, and the slot of its id is bound to it. -/
theorem Assembled.withBuilt (assembled : Assembled graph entries built heap)
    (registered : Registered graph entries) {record : ObjectMemento LiveValue} {handle : Handle}
    (isRecord : (graph.records kind).get? key = some record)
    (isEntry : entries.get? key = some ⟨kind, handle, true⟩) :
    Assembled graph entries
      (withKind kind ((built kind).insert key ⟨heap.objects.size⟩) built)
      (heap.withBuilt (LiveObject.blank kind key record.typeName) handle.slot) := by
  have isOld : ∀ other id address, (built other).get? id = some address →
      address.index ≠ heap.objects.size := by
    intro other id address found isLast
    obtain ⟨old, -, isObject⟩ := assembled.blank other id address found
    rw [Heap.object?, isLast, Array.getElem?_eq_none (Nat.le_refl _)] at isObject
    cases isObject
  have cases : ∀ other id address,
      (withKind kind ((built kind).insert key ⟨heap.objects.size⟩) built other).get? id =
        some address → (other = kind ∧ id = key ∧ address = ⟨heap.objects.size⟩) ∨
          (built other).get? id = some address := by
    intro other id address found
    by_cases sameKind : other = kind
    · subst sameKind
      rw [withKind_self, Table.get?_insert] at found
      split at found
      · rename_i sameId
        cases found
        exact Or.inl ⟨rfl, sameId, rfl⟩
      · exact Or.inr found
    · rw [withKind_of_ne sameKind] at found
      exact Or.inr found
  refine {
    leads := fun id entry found => ?_
    inRange := fun id entry found => ?_
    blank := fun other id address found => ?_
    apart := fun one other id otherId address found otherFound => ?_ }
  · rw [Heap.target?_withBuilt (assembled.inRange key _ isEntry)]
    by_cases sameId : id = key
    · subst sameId
      rw [isEntry] at found
      cases found
      rw [if_pos rfl, withKind_self, Table.get?_insert_self]
    · rw [if_neg fun sameSlot =>
        sameId (registered.apart.distinct id key entry _ found isEntry sameSlot)]
      refine (assembled.leads id entry found).trans ?_
      by_cases sameKind : entry.kind = kind
      · rw [sameKind, withKind_self, Table.get?_insert_of_ne sameId]
      · rw [withKind_of_ne sameKind]
  · rw [Heap.size_bindings_withBuilt]
    exact assembled.inRange id entry found
  · rcases cases other id address found with ⟨rfl, rfl, rfl⟩ | old
    · exact ⟨record, isRecord, (Heap.object?_withBuilt _ _ _).trans (if_pos rfl)⟩
    · obtain ⟨oldRecord, isOldRecord, isObject⟩ := assembled.blank other id address old
      exact ⟨oldRecord, isOldRecord,
        ((Heap.object?_withBuilt _ _ _).trans (if_neg (isOld other id address old))).trans isObject⟩
  · rcases cases one id address found with ⟨rfl, rfl, rfl⟩ | old <;>
      rcases cases other otherId _ otherFound with ⟨rfl, rfl, isLast⟩ | otherOld
    · exact ⟨rfl, rfl⟩
    · exact absurd rfl (isOld other otherId _ otherOld)
    · exact absurd (congrArg Address.index isLast) (isOld one id address old)
    · exact assembled.apart one other id otherId address old otherOld

namespace Pass

variable {state : PassState} {record : ObjectMemento LiveValue}

theorem reference_eq (kind : ObjectKind) (id : String) (state : PassState) :
    reference kind id state = (state.arena.reference kind id, state) := by
  rw [reference]
  exact (bind_ok (rfl : Pass.arena state = (.ok state.arena, state))).trans (lift_run _)

/-- The arena of a state once a blank object has been made for a record. -/
def made (kind : ObjectKind) (key typeName : String) (state : PassState) : Arena :=
  { state.arena with heap := (state.arena.heap.create (LiveObject.blank kind key typeName)).2 }

/-- The address of that object. -/
def newAddress (state : PassState) : Address := ⟨state.arena.heap.objects.size⟩

/-- A registered type lets an object be made, and how its building ends is up to the slot. -/
theorem build_of_bind (basic : registry.Basic) (isType : registry.contains kind typeName = true)
    {bound : Outcome Arena}
    (binds : (made kind key typeName state).bind kind key (newAddress state) = bound) :
    ∃ remembered, build registry kind key typeName state =
      (bound.map fun _ => newAddress state,
        { state with
          arena := bound.toOption.getD (made kind key typeName state), remembered := remembered }) := by
  obtain ⟨factory, isFactory⟩ := Option.isSome_iff_exists.mp isType
  have foundFactory : registry.factory kind typeName = .ok factory := by
    rw [Registry.factory, isFactory]
  have hasId : Registry.checkId kind key (LiveObject.blank kind key typeName) = .ok () := if_pos rfl
  have finishes : ∀ next : PassState, next.arena = made kind key typeName state →
      (do
        Registry.checkId kind key (LiveObject.blank kind key typeName)
        setArena (← (← Pass.arena).bind kind key (newAddress state))
        return newAddress state : Pass Address) next =
          (bound.map fun _ => newAddress state,
            { next with arena := bound.toOption.getD (made kind key typeName state) }) := by
    rintro ⟨arena, problems, remembered, answers⟩ rfl
    refine (bind_ok ((lift_run _).trans (by rw [hasId]))).trans ?_
    refine (bind_ok (rfl : Pass.arena _ = (.ok (made kind key typeName state), _))).trans ?_
    rw [binds]
    cases bound with
    | ok arena => exact bind_ok (lift_run (.ok arena))
    | error failure => exact bind_error (lift_run (.error failure))
  refine ⟨if factory.remembers then state.remembered ++ [(⟨kind, key⟩, newAddress state)]
    else state.remembered, ?_⟩
  rw [build]
  refine (bind_ok ((lift_run _).trans (by rw [foundFactory]))).trans ?_
  refine (bind_ok (rfl : Pass.arena state = (.ok state.arena, state))).trans ?_
  rw [basic.make key isFactory]
  refine (bind_ok (rfl : setArena (made kind key typeName state) state = (.ok (), _))).trans ?_
  cases factory.remembers with
  | true => exact (bind_ok (rfl : (modify _ : Pass Unit) _ = (.ok (), _))).trans (finishes _ rfl)
  | false => exact finishes _ rfl

/-- An object of a registered type is built. -/
theorem build_run (basic : registry.Basic) (registered : Registered graph entries)
    (sameEntries : state.arena.entries = entries)
    (assembled : Assembled graph entries built state.arena.heap)
    (isRecord : (graph.records kind).get? key = some record)
    (isNew : (built kind).get? key = none)
    (isType : registry.contains kind record.typeName = true) :
    ∃ address after, build registry kind key record.typeName state = (.ok address, after) ∧
      after.arena.entries = entries ∧ after.problems = state.problems ∧
      Assembled graph entries (withKind kind ((built kind).insert key address) built)
        after.arena.heap := by
  obtain ⟨handle, isEntry⟩ := registered.known kind key
    (Graph.names_iff.mpr ⟨record, isRecord⟩)
  have isFree : (made kind key record.typeName state).heap.target? handle = none := by
    have nowhere := assembled.leads key _ isEntry
    rw [isNew] at nowhere
    exact nowhere
  let blank := LiveObject.blank kind key record.typeName
  have binds : (made kind key record.typeName state).bind kind key (newAddress state) =
      .ok ⟨entries, state.arena.heap.withBuilt blank handle.slot⟩ := by
    have isReference : (made kind key record.typeName state).reference kind key = .ok handle :=
      Arena.reference_eq_ok_iff.mpr (sameEntries.symm ▸ isEntry)
    rw [Arena.bind_free isReference isFree, ← sameEntries]
    rfl
  obtain ⟨remembered, ran⟩ := build_of_bind basic isType binds
  exact ⟨_, _, ran, rfl, rfl, assembled.withBuilt registered isRecord isEntry⟩

/-- An object of a type that is not registered is not built, and nothing happens. -/
theorem build_unknown (isUnknown : registry.contains kind typeName = false) :
    build registry kind key typeName state = (.error (.typeNotFound typeName), state) := by
  have notFound : registry.factory kind typeName = .error (.typeNotFound typeName) := by
    rw [Registry.factory, Option.not_isSome_iff_eq_none.mp (Bool.eq_false_iff.mp isUnknown)]
  rw [build]
  exact bind_error ((lift_run _).trans (by rw [notFound]))

/-- The problem that a record is, if its type is not registered. -/
def problem? (registry : Registry) (record : ObjectMemento LiveValue) : Option RebindProblem :=
  if registry.contains record.kind record.typeName then none
  else
    some ⟨record.kind, record.id, record.typeName, (Failure.typeNotFound record.typeName).message⟩

theorem eq_of_problem? {problem : RebindProblem}
    (isProblem : problem? registry record = some problem) :
    registry.contains record.kind record.typeName = false ∧
      problem = ⟨record.kind, record.id, record.typeName,
        (Failure.typeNotFound record.typeName).message⟩ := by
  unfold problem? at isProblem
  split at isProblem
  · cases isProblem
  · rename_i isUnknown
    exact ⟨Bool.eq_false_iff.mpr isUnknown, (Option.some.inj isProblem).symm⟩

/-- A problem of a graph is that of a record of an unregistered type. -/
theorem mem_problems (keyed : graph.Keyed) {problem : RebindProblem} :
    (problem ∈ ObjectKind.rebindOrder.flatMap fun kind =>
      (graph.records kind).values.filterMap (problem? registry)) ↔
      ∃ record, (graph.records problem.kind).get? problem.id = some record ∧
        registry.contains problem.kind record.typeName = false ∧
        problem.typeName = record.typeName ∧
        problem.reason = (Failure.typeNotFound record.typeName).message := by
  simp only [List.mem_flatMap, List.mem_filterMap]
  constructor
  · rintro ⟨kind, -, record, isRecord, isProblem⟩
    obtain ⟨entry, member, rfl⟩ := List.mem_map.mp isRecord
    obtain ⟨isUnknown, rfl⟩ := eq_of_problem? isProblem
    refine ⟨entry.2, ?_, isUnknown, rfl, rfl⟩
    change (graph.records entry.2.kind).get? entry.2.id = some entry.2
    rw [Graph.kind_of_mem_records member, ← keyed.own kind entry member]
    exact Table.get?_of_mem (keyed.ordered kind) member
  · rintro ⟨record, isRecord, isUnknown, sameType, sameReason⟩
    have member := Table.mem_of_get? isRecord
    have isKind : record.kind = problem.kind := Graph.kind_of_mem_records member
    have isId : problem.id = record.id := keyed.own problem.kind _ member
    refine ⟨problem.kind, problem.kind.mem_rebindOrder, record, List.mem_map_of_mem member, ?_⟩
    rw [problem?, isKind, isUnknown, ← isId, ← sameReason, ← sameType]
    rfl

/-- So a record has a problem exactly if its type is not registered. -/
theorem exists_problem_iff (keyed : graph.Keyed)
    (isRecord : (graph.records kind).get? key = some record) :
    (∃ problem ∈ ObjectKind.rebindOrder.flatMap fun kind =>
        (graph.records kind).values.filterMap (problem? registry),
      problem.kind = kind ∧ problem.id = key) ↔
      registry.contains kind record.typeName = false := by
  constructor
  · rintro ⟨problem, member, rfl, rfl⟩
    obtain ⟨other, isOther, isUnknown, -⟩ := (mem_problems keyed).mp member
    cases isRecord.symm.trans isOther
    exact isUnknown
  · intro isUnknown
    exact ⟨⟨kind, key, record.typeName, (Failure.typeNotFound record.typeName).message⟩,
      (mem_problems keyed).mpr ⟨record, isRecord, isUnknown, rfl, rfl⟩, rfl, rfl⟩
/-- Once its object is built, a record has been gone through. -/
theorem buildOrSkip_built {address : Address} {after : PassState}
    (ran : build registry record.kind key record.typeName state = (.ok address, after)) :
    buildOrSkip registry strictness key record state = (.ok (some address), after) :=
  tryCatch_ok ((bind_ok ran).trans rfl)

/-- A failure for another reason than a missing type is passed on. -/
theorem buildOrSkip_failed {failure : Failure} {after : PassState}
    (ran : build registry record.kind key record.typeName state = (.error failure, after))
    (known : failure.isTypeNotFound = false) :
    buildOrSkip registry strictness key record state = (.error failure, after) := by
  have unhandled : ¬ (failure.isTypeNotFound = true ∧ strictness = .lenient) := by simp [known]
  exact (tryCatch_error (bind_error ran)).trans ((congrFun (if_neg unhandled) after).trans rfl)

/-- A lenient pass notes a type that is not registered, and goes on. -/
theorem buildOrSkip_lenient
    (isUnknown : registry.contains record.kind record.typeName = false) :
    buildOrSkip registry .lenient key record state = (.ok none, { state with
      problems := state.problems ++ [⟨record.kind, record.id, record.typeName,
        (Failure.typeNotFound record.typeName).message⟩] }) :=
  (tryCatch_error (bind_error (build_unknown isUnknown))).trans
    ((congrFun (if_pos ⟨rfl, rfl⟩) state).trans rfl)

/-- A strict pass stops there, having noted nothing. -/
theorem buildOrSkip_strict
    (isUnknown : registry.contains record.kind record.typeName = false) :
    buildOrSkip registry .strict key record state =
      (.error (.typeNotFound record.typeName), state) := by
  have insists : ¬ ((Failure.typeNotFound record.typeName).isTypeNotFound = true ∧
      TypeResolution.strict = .lenient) := by simp
  exact (tryCatch_error (bind_error (build_unknown isUnknown))).trans
    ((congrFun (if_neg insists) state).trans rfl)

/-- What becomes of the records that have been gone through: an object has been built where their
types are registered, and nowhere else. -/
def HoldsTypes (registry : Registry) (kind : ObjectKind)
    (records : Table (ObjectMemento LiveValue)) (built : Built) : Prop :=
  ∀ key, built.contains key = true ↔
    ∃ record, (key, record) ∈ records ∧ registry.contains kind record.typeName = true

/-- One more record has been gone through. -/
theorem HoldsTypes.concat {records : Table (ObjectMemento LiveValue)} {built : Built}
    (holds : HoldsTypes registry kind records built) {address? : Option Address}
    (isBuilt : address?.isSome = registry.contains kind record.typeName) :
    HoldsTypes registry kind (records ++ [(key, record)])
      (address?.elim built fun address => built.insert key address) := by
  intro other
  have one : (∃ found, (other, found) ∈ records ++ [(key, record)] ∧
      registry.contains kind found.typeName = true) ↔
        built.contains other = true ∨ (other = key ∧ address?.isSome = true) := by
    rw [holds other, isBuilt]
    simp only [List.mem_append, List.mem_singleton, Prod.mk.injEq, or_and_right, exists_or]
    refine or_congr_right ⟨?_, ?_⟩
    · rintro ⟨found, ⟨rfl, rfl⟩, isType⟩
      exact ⟨rfl, isType⟩
    · rintro ⟨rfl, isType⟩
      exact ⟨record, ⟨rfl, rfl⟩, isType⟩
  rw [one]
  cases address? with
  | none => simp
  | some address =>
      rw [Option.elim_some, Table.contains, Table.get?_insert]
      by_cases same : other = key
      · simp [same]
      · simp [same, Table.contains]

/-- The pass goes on where a type is not registered, or all types of the kind are. -/
def Accepts (registry : Registry) (strictness : TypeResolution) (graph : Graph LiveValue)
    (kind : ObjectKind) : Prop :=
  strictness = .lenient ∨
    ∀ entry ∈ graph.records kind, registry.contains kind entry.2.typeName = true

/-- What has been built when some records of a kind have been gone through. -/
structure BuiltOf (registry : Registry) (graph : Graph LiveValue) (kind : ObjectKind)
    (entries : Table ArenaEntry) (built : ObjectKind → Table Address) (problems : List RebindProblem)
    (done : Table (ObjectMemento LiveValue)) (table : Table Address) (state : PassState) : Prop where
  sameEntries : state.arena.entries = entries
  assembled : Assembled graph entries (withKind kind table built) state.arena.heap
  noted : state.problems = problems ++ done.values.filterMap (problem? registry)
  isBuilt : ∀ id, table.contains id = true ↔
    ∃ record, (id, record) ∈ done ∧ registry.contains kind record.typeName = true

variable {problems : List RebindProblem} {done rest : Table (ObjectMemento LiveValue)}
  {table : Table Address}

/-- One more record has been gone through. -/
theorem buildOrSkip_run (basic : registry.Basic) (keyed : graph.Keyed)
    (registered : Registered graph entries) (accepts : Accepts registry strictness graph kind)
    (builtOf : BuiltOf registry graph kind entries built problems done table state)
    (isWhole : graph.records kind = done ++ (key, record) :: rest) :
    ∃ result after, buildOrSkip registry strictness key record state = (.ok result, after) ∧
      BuiltOf registry graph kind entries built problems (done ++ [(key, record)])
        (result.elim table fun address => table.insert key address) after := by
  have member : (key, record) ∈ graph.records kind := by
    rw [isWhole]
    simp
  have isRecord := Table.get?_of_mem (keyed.ordered kind) member
  have isKind : record.kind = kind := Graph.kind_of_mem_records member
  have isNew : table.get? key = none := by
    rw [← Option.not_isSome_iff_eq_none]
    intro isSome
    obtain ⟨other, isDone, -⟩ := (builtOf.isBuilt key).mp isSome
    exact keyed.not_mem_done isWhole (List.mem_map.mpr ⟨(key, other), isDone, rfl⟩)
  have values : (done ++ [(key, record)]).values = done.values ++ [record] := by
    simp [Table.values]
  have holds : ∀ {address? : Option Address},
      address?.isSome = registry.contains kind record.typeName →
        HoldsTypes registry kind (done ++ [(key, record)])
          (address?.elim table fun address => table.insert key address) :=
    HoldsTypes.concat builtOf.isBuilt
  cases isType : registry.contains kind record.typeName with
  | true =>
      obtain ⟨address, after, ran, sameEntries, sameProblems, assembled⟩ :=
        build_run basic registered builtOf.sameEntries builtOf.assembled isRecord
          (by rw [withKind_self, isNew]) isType
      rw [withKind_self, withKind_withKind] at assembled
      refine ⟨some address, after, buildOrSkip_built (isKind.symm ▸ ran), {
        sameEntries := sameEntries
        assembled := assembled
        noted := ?_
        isBuilt := holds isType.symm }⟩
      rw [sameProblems, builtOf.noted, values, List.filterMap_append]
      simp [problem?, isKind, isType]
  | false =>
      have isLenient : strictness = .lenient := accepts.resolve_right fun all => by
        have known := all _ member
        rw [isType] at known
        cases known
      subst isLenient
      refine ⟨none, _, buildOrSkip_lenient (isKind.symm ▸ isType), {
        sameEntries := builtOf.sameEntries
        assembled := builtOf.assembled
        noted := ?_
        isBuilt := holds isType.symm }⟩
      rw [builtOf.noted, values, List.filterMap_append, List.append_assoc]
      simp [problem?, isKind, isType]

/-- The objects of a kind are built: those of registered types, the others being problems. -/
theorem buildKind_run (kind : ObjectKind) (basic : registry.Basic) (keyed : graph.Keyed)
    (registered : Registered graph entries) (accepts : Accepts registry strictness graph kind)
    (sameEntries : state.arena.entries = entries)
    (assembled : Assembled graph entries built state.arena.heap) (isFirst : built kind = []) :
    ∃ table after, buildKind registry strictness graph kind state = (.ok table, after) ∧
      table.Ordered ∧
      BuiltOf registry graph kind entries built state.problems (graph.records kind) table after := by
  obtain ⟨results, after, ran, builtOf⟩ := mapM_run (graph.records kind)
    (fun entry : String × ObjectMemento LiveValue => (do
      return (← buildOrSkip registry strictness entry.1 entry.2).map fun address =>
        (entry.1, address) : Pass (Option (String × Address))))
    (fun done results next => BuiltOf registry graph kind entries built state.problems done
      (Table.ofEntries (results.filterMap id)) next)
    (by
      intro done results entry rest next isWhole builtOf
      obtain ⟨result, after, ran, afterBuilt⟩ :=
        buildOrSkip_run basic keyed registered accepts builtOf isWhole
      refine ⟨result.map fun address => (entry.1, address), after, (bind_ok ran).trans rfl, ?_⟩
      rw [List.filterMap_append]
      cases result with
      | none => simpa using afterBuilt
      | some address => simpa [Table.ofEntries] using afterBuilt)
    { sameEntries := sameEntries
      assembled := by
        have same : withKind kind (Table.ofEntries ([].filterMap id)) built = built := by
          funext other
          by_cases isKind : other = kind
          · subst isKind
            rw [withKind_self, isFirst]
            rfl
          · exact withKind_of_ne isKind _
        rw [same]
        exact assembled
      noted := by simp [Table.values]
      isBuilt := by simp [Table.ofEntries, Table.contains, Table.get?] }
  refine ⟨Table.ofEntries (results.filterMap id), after, (bind_ok ran).trans rfl, ?_, builtOf⟩
  exact Table.Ordered.insertAll List.Pairwise.nil _

end Pass

end GraphCheckpoint
