import GraphCheckpoint.Proofs.Rebind.Declaring

/-!
Contract: a pass that goes on where a type is not registered, and the pass that stops there.

Owns:
- `Pass.Agree`, how a strict part of a pass stands to the lenient one from the same state, and that
  parts in turn and loops keep it;
- that a whole strict pass stands so to the lenient one, whatever the graph and the registry are;
- `Divided`, how a pass that succeeds divides the records between objects and problems.

Does not own: which passes succeed.

Only building asks how strict the pass is, and only where no factory is found. Until then both runs
are one; from then on the lenient run is alone.
-/

namespace GraphCheckpoint

variable {graph : Graph LiveValue} {registry : Registry} {strictness : TypeResolution}
  {kind : ObjectKind} {key typeName : String} {record : ObjectMemento LiveValue}

namespace Pass

variable {α β : Type} {state : PassState}

/-! ## Parts that note no problem -/

/-- However the part ends, the problems are those that there were. -/
def NotesNone (part : Pass α) : Prop := ∀ state, (part state).2.problems = state.problems

theorem NotesNone.bind {part : Pass α} {next : α → Pass β} (notesNone : NotesNone part)
    (nextNotesNone : ∀ result, NotesNone (next result)) : NotesNone (part >>= next) := by
  intro state
  have first := notesNone state
  rcases ran : part state with ⟨failure | result, between⟩
  · rw [bind_error ran]
    rwa [ran] at first
  · rw [bind_ok ran, nextNotesNone result between]
    rwa [ran] at first

theorem NotesNone.map {part : Pass α} (notesNone : NotesNone part) (change : α → β) :
    NotesNone (change <$> part) := by
  rw [map_eq_pure_bind]
  exact notesNone.bind fun _ _ => rfl

theorem notesNone_lift (outcome : Outcome α) : NotesNone (liftM outcome : Pass α) := by
  intro state
  rw [lift_run]

theorem notesNone_mapM {items : List α} {action : α → Pass β}
    (each : ∀ item, NotesNone (action item)) : NotesNone (items.mapM action) := by
  induction items with
  | nil => exact fun _ => rfl
  | cons item rest inductionHypothesis =>
      rw [List.mapM_cons]
      exact (each item).bind fun _ => inductionHypothesis.bind fun _ _ => rfl

theorem notesNone_optionMapM {item : Option α} {action : α → Pass β}
    (each : ∀ item, NotesNone (action item)) : NotesNone (item.mapM action) := by
  cases item with
  | none => exact fun _ => rfl
  | some item => exact (each item).map some

theorem notesNone_forM {items : List α} {action : α → Pass Unit}
    (each : ∀ item, NotesNone (action item)) : NotesNone (items.forM action) := by
  induction items with
  | nil => exact fun _ => rfl
  | cons item rest inductionHypothesis => exact (each item).bind fun _ => inductionHypothesis

theorem notesNone_registerAll (graph : Graph LiveValue) : NotesNone (registerAll graph) :=
  notesNone_forM fun _ => notesNone_forM fun _ =>
    NotesNone.bind (fun _ => rfl) fun _ => (notesNone_lift _).bind fun _ _ => rfl

theorem notesNone_build : NotesNone (build registry kind key typeName) := by
  refine (notesNone_lift _).bind fun factory => NotesNone.bind (fun _ => rfl) fun arena =>
    NotesNone.bind (fun _ => rfl) fun _ => ?_
  have finishes : NotesNone (do
      Registry.checkId kind key (factory.make kind typeName key)
      setArena (← (← Pass.arena).bind kind key
        (arena.heap.create (factory.make kind typeName key)).1)
      return (arena.heap.create (factory.make kind typeName key)).1 : Pass Address) :=
    (notesNone_lift _).bind fun _ => NotesNone.bind (fun _ => rfl) fun _ =>
      (notesNone_lift _).bind fun _ => NotesNone.bind (fun _ => rfl) fun _ _ => rfl
  cases factory.remembers with
  | true => exact NotesNone.bind (fun _ => rfl) fun _ => finishes
  | false => exact finishes

theorem notesNone_reference (kind : ObjectKind) (id : String) : NotesNone (reference kind id) :=
  NotesNone.bind (fun _ => rfl) fun _ => notesNone_lift _

theorem notesNone_restore (address : Address) (record : ObjectMemento LiveValue) :
    NotesNone (restore address record) := by
  have back : ∀ kind (id : Option String), NotesNone (id.mapM (reference kind)) :=
    fun kind _ => notesNone_optionMapM (notesNone_reference kind)
  have all : ∀ kind (ids : List String), NotesNone (ids.mapM (reference kind)) :=
    fun kind _ => notesNone_mapM (notesNone_reference kind)
  cases record with
  | entity record =>
      exact (back _ _).bind fun _ => (back _ _).bind fun _ => (all _ _).bind fun _ =>
        (all _ _).bind fun _ => (all _ _).bind fun _ => (all _ _).bind fun _ _ => rfl
  | location record => exact (back _ _).bind fun _ => (all _ _).bind fun _ _ => rfl
  | policy record => exact fun _ => rfl

theorem notesNone_reconstruct (registry : Registry) (address : Address)
    (record : ObjectMemento LiveValue) : NotesNone (reconstruct registry address record) := by
  refine NotesNone.bind (fun _ => rfl) fun arena => ?_
  cases arena.heap.object? address with
  | none => exact fun _ => rfl
  | some object =>
      have asks : NotesNone (ask registry record) := notesNone_forM fun _ =>
        NotesNone.bind (fun _ => rfl) fun _ => (notesNone_lift _).bind fun _ _ => rfl
      cases isBehaviour : object.behaviour <;> simp only [isBehaviour]
      all_goals first | exact asks | exact notesNone_restore address record

theorem notesNone_reconstructKind (registry : Registry) (graph : Graph LiveValue)
    (kind : ObjectKind) (built : Built) :
    NotesNone (reconstructKind registry graph kind built) := by
  refine notesNone_forM fun entry => ?_
  obtain ⟨key, record⟩ := entry
  cases found : built.get? key <;> simp only [found]
  · exact fun _ => rfl
  · exact notesNone_reconstruct registry _ record

/-! ## Two runs from one state -/

/-- How a strict part of a pass stands to the lenient one, from the same state. -/
inductive Agree (lenient strict : Pass α) (state : PassState) : Prop
  /-- Both fail. -/
  | fail {failure other : Failure} {after stopped : PassState}
      (lenientRan : lenient state = (.error failure, after))
      (strictRan : strict state = (.error other, stopped))
  /-- Nothing tells them apart. -/
  | same {result : α} {after : PassState} (lenientRan : lenient state = (.ok result, after))
      (noted : after.problems = state.problems) (strictRan : strict state = (.ok result, after))
  /-- The strict one fails for the first problem that the lenient one notes. -/
  | stop {result : α} {after stopped : PassState} {first : RebindProblem}
      {rest : List RebindProblem} (lenientRan : lenient state = (.ok result, after))
      (noted : after.problems = state.problems ++ first :: rest)
      (strictRan : strict state = (.error (.typeNotFound first.typeName), stopped))

/-- A part that notes no problem is the same in both. -/
theorem agree_of_notesNone {part : Pass α} (notesNone : NotesNone part) (state : PassState) :
    Agree part part state := by
  have noted := notesNone state
  rcases ran : part state with ⟨failure | result, after⟩
  · exact .fail ran ran
  · rw [ran] at noted
    exact .same ran noted ran

/-- Once the strict run has stopped, the lenient one only adds to the problems. -/
theorem Agree.bind {lenient strict : Pass α} {next strictNext : α → Pass β}
    (agree : Agree lenient strict state)
    (nextAgree : ∀ result after, Agree (next result) (strictNext result) after) :
    Agree (lenient >>= next) (strict >>= strictNext) state := by
  cases agree with
  | fail lenientRan strictRan => exact .fail (bind_error lenientRan) (bind_error strictRan)
  | @same result after lenientRan noted strictRan =>
      cases nextAgree result after with
      | fail nextRan strictNextRan =>
          exact .fail ((bind_ok lenientRan).trans nextRan)
            ((bind_ok strictRan).trans strictNextRan)
      | same nextRan nextNoted strictNextRan =>
          exact .same ((bind_ok lenientRan).trans nextRan) (nextNoted.trans noted)
            ((bind_ok strictRan).trans strictNextRan)
      | stop nextRan nextNoted strictNextRan =>
          exact .stop ((bind_ok lenientRan).trans nextRan) (noted ▸ nextNoted)
            ((bind_ok strictRan).trans strictNextRan)
  | @stop result after stopped first rest lenientRan noted strictRan =>
      cases nextAgree result after with
      | fail nextRan strictNextRan =>
          exact .fail ((bind_ok lenientRan).trans nextRan) (bind_error strictRan)
      | same nextRan nextNoted strictNextRan =>
          exact .stop ((bind_ok lenientRan).trans nextRan) (nextNoted.trans noted)
            (bind_error strictRan)
      | @stop _ ended _ later others nextRan nextNoted strictNextRan =>
          have bothNoted : ended.problems =
              state.problems ++ first :: (rest ++ later :: others) := by
            rw [nextNoted, noted, List.append_assoc, List.cons_append]
          exact .stop ((bind_ok lenientRan).trans nextRan) bothNoted (bind_error strictRan)

theorem agree_mapM {lenient strict : α → Pass β}
    (each : ∀ item state, Agree (lenient item) (strict item) state) (items : List α)
    (state : PassState) : Agree (items.mapM lenient) (items.mapM strict) state := by
  induction items generalizing state with
  | nil => exact .same rfl rfl rfl
  | cons item rest inductionHypothesis =>
      rw [List.mapM_cons, List.mapM_cons]
      exact (each item state).bind fun _ after => (inductionHypothesis after).bind fun _ _ =>
        .same rfl rfl rfl

/-! ## Building -/

/-- With a factory, building fails for other reasons than a missing one. -/
theorem build_known (isType : registry.contains kind typeName = true) (state : PassState) :
    Ends (build registry kind key typeName) state (fun failure => failure.isTypeNotFound = false)
      fun _ after => after.problems = state.problems := by
  suffices fails : Ends (build registry kind key typeName) state
      (fun failure => failure.isTypeNotFound = false) fun _ _ => True by
    have noted := @notesNone_build registry kind key typeName state
    rcases fails with ⟨failure, after, ran, known⟩ | ⟨result, after, ran, -⟩
    · exact .of_error ran known
    · rw [ran] at noted
      exact .of_ok ran noted
  obtain ⟨factory, isFactory⟩ := Option.isSome_iff_exists.mp isType
  have foundFactory : registry.factory kind typeName = .ok factory := by
    rw [Registry.factory, isFactory]
  let object := factory.make kind typeName key
  let address := (state.arena.heap.create object).1
  have finishes : ∀ next : PassState, Ends (do
      Registry.checkId kind key object
      setArena (← (← Pass.arena).bind kind key address)
      return address : Pass Address) next (fun failure => failure.isTypeNotFound = false)
        fun _ _ => True := by
    intro next
    by_cases hasId : object.id = key
    · refine .step ((lift_run _).trans (congrArg (·, next) (if_pos hasId))) ?_
      refine .step (rfl : Pass.arena next = (.ok next.arena, next)) ?_
      rcases next.arena.bind_ends kind key address with ⟨failure, fails, known, -⟩ | ⟨_, -, binds⟩
      · exact .of_error (bind_error ((lift_run _).trans (by rw [fails]))) known
      · exact .step ((lift_run _).trans (by rw [binds])) (.of_ok rfl trivial)
    · exact .of_error (bind_error ((lift_run _).trans (congrArg (·, next) (if_neg hasId)))) rfl
  rw [build]
  refine .step ((lift_run _).trans (by rw [foundFactory])) ?_
  refine .step (rfl : Pass.arena state = (.ok state.arena, state)) ?_
  refine .step (rfl : setArena _ state = (.ok (), _)) ?_
  cases factory.remembers with
  | true => exact .step (rfl : (modify _ : Pass Unit) _ = (.ok (), _)) (finishes _)
  | false => exact finishes _

theorem agree_buildOrSkip (registry : Registry) (key : String) (record : ObjectMemento LiveValue)
    (state : PassState) :
    Agree (buildOrSkip registry .lenient key record) (buildOrSkip registry .strict key record)
      state := by
  cases isType : registry.contains record.kind record.typeName with
  | true =>
      rcases @build_known registry record.kind key record.typeName isType state with
        ⟨failure, after, ran, known⟩ | ⟨address, after, ran, noted⟩
      · exact .fail (buildOrSkip_failed ran known) (buildOrSkip_failed ran known)
      · exact .same (buildOrSkip_built ran) noted (buildOrSkip_built ran)
  | false =>
      let problem : RebindProblem := ⟨record.kind, record.id, record.typeName,
        (Failure.typeNotFound record.typeName).message⟩
      let after : PassState := { state with problems := state.problems ++ [problem] }
      have noted : after.problems = state.problems ++ problem :: [] := rfl
      exact .stop (buildOrSkip_lenient isType) noted (buildOrSkip_strict isType)

theorem agree_buildKind (registry : Registry) (graph : Graph LiveValue) (kind : ObjectKind)
    (state : PassState) :
    Agree (buildKind registry .lenient graph kind) (buildKind registry .strict graph kind) state :=
  (agree_mapM (fun entry between => (agree_buildOrSkip registry entry.1 entry.2 between).bind
    fun _ _ => .same rfl rfl rfl) _ state).bind fun _ _ => .same rfl rfl rfl

/-- So the whole strict pass stands to the lenient one. -/
theorem agree_hydrate (registry : Registry) (graph : Graph LiveValue) (state : PassState) :
    Agree (hydrate registry .lenient graph) (hydrate registry .strict graph) state := by
  have rebuilds : ∀ kind built between, Agree (reconstructKind registry graph kind built)
      (reconstructKind registry graph kind built) between := fun kind built =>
    agree_of_notesNone (notesNone_reconstructKind registry graph kind built)
  unfold hydrate
  refine (agree_of_notesNone (fun _ => rfl) state).bind fun arena _ => ?_
  refine (agree_of_notesNone (notesNone_lift _) _).bind fun _ _ => ?_
  refine (agree_buildKind registry graph .location _).bind fun locations _ => ?_
  refine (agree_buildKind registry graph .entity _).bind fun entities _ => ?_
  refine (agree_buildKind registry graph .policy _).bind fun policies _ => ?_
  exact (rebuilds .location locations _).bind fun _ _ =>
    (rebuilds .entity entities _).bind fun _ _ =>
      (rebuilds .policy policies _).bind fun _ _ => .same rfl rfl rfl

/-! ## Success -/

/-- Where a record has been gone through, its object has been built or a problem noted. -/
theorem buildOrSkip_divides (registry : Registry) (strictness : TypeResolution) (key : String)
    (record : ObjectMemento LiveValue) (state : PassState) :
    Ends (buildOrSkip registry strictness key record) state (fun _ => True) fun result after =>
      result.isSome = registry.contains record.kind record.typeName ∧
        after.problems = state.problems ++ (problem? registry record).toList := by
  cases isType : registry.contains record.kind record.typeName with
  | true =>
      have noProblem : problem? registry record = none := if_pos isType
      rcases @build_known registry record.kind key record.typeName isType state with
        ⟨failure, after, ran, known⟩ | ⟨address, after, ran, noted⟩
      · exact .of_error (buildOrSkip_failed ran known) trivial
      · refine .of_ok (buildOrSkip_built ran) ⟨rfl, ?_⟩
        rw [noProblem, noted, Option.toList_none, List.append_nil]
  | false =>
      cases strictness with
      | lenient =>
          refine .of_ok (buildOrSkip_lenient isType) ⟨rfl, ?_⟩
          rw [problem?, isType]
          rfl
      | strict => exact .of_error (buildOrSkip_strict isType) trivial

/-- Where the records of a kind have been gone through, the objects are those of registered types,
and the problems the others. -/
theorem buildKind_divides (registry : Registry) (strictness : TypeResolution)
    (graph : Graph LiveValue) (kind : ObjectKind) (state : PassState) :
    Ends (buildKind registry strictness graph kind) state (fun _ => True) fun built after =>
      built.Ordered ∧ HoldsTypes registry kind (graph.records kind) built ∧
        after.problems = state.problems ++
          (graph.records kind).values.filterMap (problem? registry) := by
  refine Ends.bind (ends_mapM (graph.records kind)
    (fun done results (next : PassState) =>
      HoldsTypes registry kind done (Table.ofEntries (results.filterMap id)) ∧
      next.problems = state.problems ++ (Table.values done).filterMap (problem? registry))
    (fun done results entry rest next isWhole held => ?_) ⟨?_, ?_⟩)
    fun results after held => .of_ok rfl ⟨Table.Ordered.insertAll List.Pairwise.nil _, held⟩
  · obtain ⟨holds, noted⟩ := held
    have isRecord : (entry.1, entry.2) ∈ graph.records kind := by
      rw [isWhole]
      exact List.mem_append_right done List.mem_cons_self
    have isKind : entry.2.kind = kind := Graph.kind_of_mem_records isRecord
    refine (buildOrSkip_divides registry strictness entry.1 entry.2 next).bind
      fun result after divided => ?_
    obtain ⟨isBuilt, afterNoted⟩ := divided
    rw [isKind] at isBuilt
    refine .of_ok rfl ⟨?_, ?_⟩
    · have afterHolds : HoldsTypes registry kind (done ++ [(entry.1, entry.2)]) _ :=
        holds.concat isBuilt
      cases result with
      | none => simpa using afterHolds
      | some address => simpa [Table.ofEntries] using afterHolds
    · rw [afterNoted, noted, List.append_assoc]
      cases found : problem? registry entry.2 <;> simp [Table.values, found]
  · intro key
    simp [Table.ofEntries, Table.contains, Table.get?]
  · simp [Table.values]

/-- A pass that succeeds has divided the records between objects and problems. -/
theorem hydrate_divides (registry : Registry) (strictness : TypeResolution)
    (graph : Graph LiveValue) (state : PassState) :
    Ends (hydrate registry strictness graph) state (fun _ => True) fun outcome after =>
      (∀ kind, (outcome.objects kind).Ordered ∧
        HoldsTypes registry kind (graph.records kind) (outcome.objects kind)) ∧
      after.problems = state.problems ++ ObjectKind.rebindOrder.flatMap fun kind =>
        (graph.records kind).values.filterMap (problem? registry) := by
  have rebuilds : ∀ kind built between, Ends (reconstructKind registry graph kind built) between
      (fun _ => True) fun _ after => after.problems = between.problems := by
    intro kind built between
    have noted := notesNone_reconstructKind registry graph kind built between
    rcases ran : reconstructKind registry graph kind built between with ⟨failure | _, after⟩
    · exact .of_error ran trivial
    · rw [ran] at noted
      exact .of_ok ran noted
  unfold hydrate
  refine .step (rfl : Pass.arena state = (.ok state.arena, state)) ?_
  rcases checked : state.arena.checkReferences with failure | _
  · exact .of_error (bind_error (lift_run _)) trivial
  refine .step (lift_run _) ?_
  refine (buildKind_divides registry strictness graph .location state).bind
    fun locations withLocations isLocations => ?_
  refine (buildKind_divides registry strictness graph .entity withLocations).bind
    fun entities withEntities isEntities => ?_
  refine (buildKind_divides registry strictness graph .policy withEntities).bind
    fun policies withPolicies isPolicies => ?_
  refine (rebuilds .location locations withPolicies).bind fun _ first sameFirst => ?_
  refine (rebuilds .entity entities first).bind fun _ second sameSecond => ?_
  refine (rebuilds .policy policies second).bind fun _ third sameThird => .of_ok rfl ⟨?_, ?_⟩
  · intro kind
    cases kind with
    | entity => exact ⟨isEntities.1, isEntities.2.1⟩
    | location => exact ⟨isLocations.1, isLocations.2.1⟩
    | policy => exact ⟨isPolicies.1, isPolicies.2.1⟩
  · rw [sameThird, sameSecond, sameFirst, isPolicies.2.2, isEntities.2.2, isLocations.2.2]
    simp [ObjectKind.rebindOrder]

end Pass

/-! ## Objects and problems -/

/-- A problem stands for the id. -/
def IsProblem (problems : List RebindProblem) (kind : ObjectKind) (id : String) : Prop :=
  ∃ problem ∈ problems, problem.kind = kind ∧ problem.id = id

/-- Locations come first, then entities, then policies, and those of one kind in the order of their
ids. -/
def RebindProblem.Before (one other : RebindProblem) : Prop :=
  ObjectKind.rebindOrder.idxOf one.kind < ObjectKind.rebindOrder.idxOf other.kind ∨
    one.kind = other.kind ∧ one.id < other.id

/-- How loaded records are divided between rebuilt objects and problems. -/
structure Divided {V : Type} (registry : Registry) (loaded : Graph V) (outcome : RebindOutcome)
    (problems : List RebindProblem) : Prop where
  /-- Every id of a kind has one object at most. -/
  ordered : ∀ kind, (outcome.objects kind).Ordered
  /-- The objects and the problems together are the loaded ids. -/
  together : ∀ kind id, loaded.Names kind id ↔
    (outcome.objects kind).contains id = true ∨ IsProblem problems kind id
  /-- None of them is both. -/
  apart : ∀ kind id, (outcome.objects kind).contains id = true → ¬ IsProblem problems kind id
  /-- The problems are those whose type is not registered for their kind. -/
  unregistered : ∀ kind id record, (loaded.records kind).get? id = some record →
    (IsProblem problems kind id ↔ registry.contains kind record.typeName = false)
  /-- A problem tells the type of its record. -/
  told : ∀ problem ∈ problems, ∃ record,
    (loaded.records problem.kind).get? problem.id = some record ∧
      problem.typeName = record.typeName ∧
      problem.reason = (Failure.typeNotFound record.typeName).message
  listed : problems.Pairwise RebindProblem.Before

section Divided

variable {outcome : RebindOutcome} {problems : List RebindProblem}

/-- The problems of a graph stand in the order of rebinding. -/
theorem pairwise_problems (keyed : graph.Keyed) :
    (ObjectKind.rebindOrder.flatMap fun kind =>
      (graph.records kind).values.filterMap (Pass.problem? registry)).Pairwise
        RebindProblem.Before := by
  refine List.pairwise_flatMap.mpr ⟨fun kind _ => ?_, ?_⟩
  · rw [List.pairwise_filterMap, Table.values, List.pairwise_map]
    refine (keyed.ordered kind).imp_of_mem ?_
    intro first second isFirst isSecond before one isOne other isOther
    obtain ⟨-, rfl⟩ := Pass.eq_of_problem? isOne
    obtain ⟨-, rfl⟩ := Pass.eq_of_problem? isOther
    refine Or.inr ⟨?_, ?_⟩
    · exact (Graph.kind_of_mem_records isFirst).trans (Graph.kind_of_mem_records isSecond).symm
    · rwa [keyed.own kind first isFirst, keyed.own kind second isSecond] at before
  · have inOrder : ObjectKind.rebindOrder.Pairwise fun one other =>
        ObjectKind.rebindOrder.idxOf one < ObjectKind.rebindOrder.idxOf other := by decide
    refine inOrder.imp fun before one isOne other isOther => Or.inl ?_
    have isOf : ∀ kind problem, problem ∈ (graph.records kind).values.filterMap
        (Pass.problem? registry) → problem.kind = kind := by
      intro kind problem member
      obtain ⟨record, isRecord, isProblem⟩ := List.mem_filterMap.mp member
      obtain ⟨entry, isEntry, rfl⟩ := List.mem_map.mp isRecord
      obtain ⟨-, rfl⟩ := Pass.eq_of_problem? isProblem
      exact Graph.kind_of_mem_records isEntry
    rw [isOf _ one isOne, isOf _ other isOther]
    exact before

/-- A pass that holds the registered types and notes the others has divided the records. -/
theorem divided_of_holdsTypes (keyed : graph.Keyed)
    (ordered : ∀ kind, (outcome.objects kind).Ordered)
    (holds : ∀ kind, Pass.HoldsTypes registry kind (graph.records kind) (outcome.objects kind))
    (noted : problems = ObjectKind.rebindOrder.flatMap fun kind =>
      (graph.records kind).values.filterMap (Pass.problem? registry)) :
    Divided registry graph outcome problems := by
  have isBuilt : ∀ kind id record, (graph.records kind).get? id = some record →
      ((outcome.objects kind).contains id = true ↔
        registry.contains kind record.typeName = true) := by
    intro kind id record isRecord
    rw [holds kind id]
    constructor
    · rintro ⟨other, member, isType⟩
      cases isRecord.symm.trans (Table.get?_of_mem (keyed.ordered kind) member)
      exact isType
    · exact fun isType => ⟨record, Table.mem_of_get? isRecord, isType⟩
  have isProblem : ∀ kind id record, (graph.records kind).get? id = some record →
      (IsProblem problems kind id ↔ registry.contains kind record.typeName = false) := by
    intro kind id record isRecord
    rw [noted]
    exact Pass.exists_problem_iff keyed isRecord
  have isNamed : ∀ kind id, (outcome.objects kind).contains id = true ∨ IsProblem problems kind id →
      ∃ record, (graph.records kind).get? id = some record := by
    rintro kind id (isObject | ⟨problem, member, rfl, rfl⟩)
    · obtain ⟨record, member, -⟩ := (holds kind id).mp isObject
      exact ⟨record, Table.get?_of_mem (keyed.ordered kind) member⟩
    · rw [noted] at member
      obtain ⟨record, isRecord, -⟩ := (Pass.mem_problems keyed).mp member
      exact ⟨record, isRecord⟩
  refine {
    ordered := ordered
    together := fun kind id => ?_
    apart := fun kind id isObject isToo => ?_
    unregistered := isProblem
    told := fun problem member => ?_
    listed := noted ▸ pairwise_problems keyed }
  · rw [Graph.names_iff]
    refine ⟨?_, isNamed kind id⟩
    rintro ⟨record, isRecord⟩
    rw [isBuilt kind id record isRecord, isProblem kind id record isRecord]
    exact (Bool.eq_false_or_eq_true _)
  · obtain ⟨record, isRecord⟩ := isNamed kind id (Or.inl isObject)
    have isType := (isBuilt kind id record isRecord).mp isObject
    rw [(isProblem kind id record isRecord).mp isToo] at isType
    cases isType
  · rw [noted] at member
    obtain ⟨record, isRecord, -, sameType, sameReason⟩ := (Pass.mem_problems keyed).mp member
    exact ⟨record, isRecord, sameType, sameReason⟩

/-- What is kept of the values does not matter. -/
theorem Divided.converted {V W : Type} {loaded : Graph V} {conversion : Conversion Id V W}
    (divided : Divided registry loaded outcome problems)
    (keepsTypes : ∀ name, conversion.typeName name = name) :
    Divided registry (Graph.convert (m := Id) conversion loaded) outcome problems where
  ordered := divided.ordered
  together := by
    rw [Graph.names_convert]
    exact divided.together
  apart := divided.apart
  unregistered := by
    intro kind id record isRecord
    rw [Graph.records_convert, Table.get?_mapValues] at isRecord
    obtain ⟨old, isOld, rfl⟩ := Option.map_eq_some_iff.mp isRecord
    rw [ObjectMemento.typeName_converted, keepsTypes]
    exact divided.unregistered kind id old isOld
  told := by
    intro problem member
    obtain ⟨record, isRecord, sameType, sameReason⟩ := divided.told problem member
    refine ⟨record.converted conversion, ?_, ?_, ?_⟩
    · rw [Graph.records_convert, Table.get?_mapValues, isRecord]
      rfl
    · rw [ObjectMemento.typeName_converted, keepsTypes]
      exact sameType
    · rw [ObjectMemento.typeName_converted, keepsTypes]
      exact sameReason
  listed := divided.listed

end Divided

end GraphCheckpoint
