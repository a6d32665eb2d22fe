import GraphCheckpoint.Proofs.Rebind.History

/-!
Contract: a pass that keeps a log of the records it registers and the objects it builds.

Owns:
- `LoggedPass`, parts of a pass that keep a log, and the pass made of them;
- `Graph.calls`, one call for each record of a graph, and `Graph.plan`, the calls of a pass that nothing
  stops;
- `LoggedPass.Mirrors`: the logged pass ends as the pass does and leaves the same, whatever the records
  and the registry are.

Does not own: what the calls return.

A call is added to the log when it returns, also when it fails. References that are looked up while
state comes back are not in the log: by then nothing is registered or built any more.
-/

namespace GraphCheckpoint

variable {α β : Type} {registry : Registry} {strictness : TypeResolution} {graph : Graph LiveValue}

/-- The key of the object that a call is about. -/
def ArenaCall.key (call : ArenaCall) : ObjectKey := ⟨call.kind, call.id⟩

namespace Graph

variable {V : Type}

/-- One call for each record of a kind. -/
def callsOf (make : ObjectKind → String → String → ArenaCall) (graph : Graph V) (kind : ObjectKind) :
    List ArenaCall :=
  (graph.records kind).map fun entry => make kind entry.1 entry.2.typeName

/-- One call for each record, in the order of rebinding. -/
def calls (make : ObjectKind → String → String → ArenaCall) (graph : Graph V) : List ArenaCall :=
  ObjectKind.rebindOrder.flatMap (graph.callsOf make)

/-- The calls of a pass that nothing stops. -/
def plan (graph : Graph V) : List ArenaCall := graph.calls .register ++ graph.calls .build

section Calls

variable {make : ObjectKind → String → String → ArenaCall} {graph : Graph V}

theorem mem_calls {call : ArenaCall} : call ∈ graph.calls make ↔
    ∃ kind, ∃ entry ∈ graph.records kind, make kind entry.1 entry.2.typeName = call := by
  simp only [calls, callsOf, List.mem_flatMap, List.mem_map, ObjectKind.mem_rebindOrder, true_and]

/-- The call for a record stands behind those for other kinds and for earlier records of its kind. -/
theorem calls_of_record (make : ObjectKind → String → String → ArenaCall)
    {kinds others : List ObjectKind} {kind : ObjectKind} {gone left : Table (ObjectMemento V)}
    {entry : String × ObjectMemento V} (isKinds : ObjectKind.rebindOrder = kinds ++ kind :: others)
    (isRecords : graph.records kind = gone ++ entry :: left) :
    ∃ rest, graph.calls make = (kinds.flatMap (graph.callsOf make) ++
      gone.map fun entry => make kind entry.1 entry.2.typeName) ++
        make kind entry.1 entry.2.typeName :: rest := by
  refine ⟨(left.map fun entry => make kind entry.1 entry.2.typeName) ++
    others.flatMap (graph.callsOf make), ?_⟩
  rw [calls, isKinds, List.flatMap_append, List.flatMap_cons, callsOf, isRecords]
  simp only [List.map_append, List.map_cons, List.append_assoc, List.cons_append]

end Calls

/-- The calls are about the records. -/
theorem map_key_calls {make : ObjectKind → String → String → ArenaCall}
    (isAbout : ∀ kind id typeName, (make kind id typeName).key = ⟨kind, id⟩) (graph : Graph V) :
    (graph.calls make).map ArenaCall.key = graph.recordKeys := by
  simp only [calls, callsOf, recordKeys, List.map_flatMap, List.map_map, Function.comp_def, isAbout]

/-- A call that comes behind others is about another object than they are. -/
theorem Ordered.key_not_mem {graph : Graph V} (ordered : graph.Ordered)
    {make : ObjectKind → String → String → ArenaCall}
    (isAbout : ∀ kind id typeName, (make kind id typeName).key = ⟨kind, id⟩)
    {done rest : List ArenaCall} {call : ArenaCall}
    (isWhole : graph.calls make = done ++ call :: rest) : call.key ∉ done.map ArenaCall.key := by
  have distinct := ordered.recordKeys_nodup
  rw [← map_key_calls isAbout, isWhole, List.map_append, List.map_cons] at distinct
  exact fun member => (List.nodup_append.mp distinct).2.2 _ member _ List.mem_cons_self rfl

end Graph

/-- A part of a pass that keeps a log. -/
abbrev LoggedPass (α : Type) := ExceptT Failure (StateM CallHistory) α

namespace LoggedPass

/-! ## The logged pass -/

/-- A part that is a call, which is added to the log with what it returns. -/
def logging (call : ArenaCall) (part : Pass α) : LoggedPass α := fun history =>
  let ran := part.run.run history.state
  (ran.1, ⟨history.events ++ [(call, ran.1.map fun _ => none)], ran.2⟩)

/-- A part that adds nothing to the log. -/
def silently (part : Pass α) : LoggedPass α := fun history =>
  let ran := part.run.run history.state
  (ran.1, ⟨history.events, ran.2⟩)

def register (kind : ObjectKind) (id typeName : String) : LoggedPass Unit :=
  logging (.register kind id typeName) do
    Pass.setArena (← (← Pass.arena).register kind id typeName)

def registerAll (graph : Graph LiveValue) : LoggedPass Unit :=
  ObjectKind.rebindOrder.forM fun kind =>
    (graph.records kind).forM fun (key, record) => register kind key record.typeName

def build (registry : Registry) (kind : ObjectKind) (id typeName : String) : LoggedPass Address :=
  logging (.build kind id typeName) (Pass.build registry kind id typeName)

/-- What is made of the failure to build the object of a record. -/
def skip (strictness : TypeResolution) (record : ObjectMemento LiveValue) (failure : Failure) :
    Pass (Option Address) := do
  if failure.isTypeNotFound ∧ strictness = .lenient then
    let problem : RebindProblem := ⟨record.kind, record.id, record.typeName, failure.message⟩
    modify fun state => { state with problems := state.problems ++ [problem] }
    return none
  else throw failure

def buildOrSkip (registry : Registry) (strictness : TypeResolution) (key : String)
    (record : ObjectMemento LiveValue) : LoggedPass (Option Address) :=
  tryCatch (do return some (← build registry record.kind key record.typeName)) fun failure =>
    silently (skip strictness record failure)

def buildKind (registry : Registry) (strictness : TypeResolution) (graph : Graph LiveValue)
    (kind : ObjectKind) : LoggedPass Built := do
  let built ← (graph.records kind).mapM fun (key, record) => do
    return (← buildOrSkip registry strictness key record).map fun address => (key, address)
  return Table.ofEntries (built.filterMap id)

/-- All objects are built, and nothing has its state yet. -/
def buildAll (registry : Registry) (strictness : TypeResolution) (graph : Graph LiveValue) :
    LoggedPass (Built × Built × Built) := do
  let locations ← buildKind registry strictness graph .location
  let entities ← buildKind registry strictness graph .entity
  let policies ← buildKind registry strictness graph .policy
  return (locations, entities, policies)

/-- The state of the built objects comes back. -/
def reconstructAll (registry : Registry) (graph : Graph LiveValue) (built : Built × Built × Built) :
    Pass RebindOutcome := do
  Pass.reconstructKind registry graph .location built.1
  Pass.reconstructKind registry graph .entity built.2.1
  Pass.reconstructKind registry graph .policy built.2.2
  return ⟨graph.applicationIds.filterMap built.2.1.get?, built.2.1, built.1, built.2.2⟩

def hydrate (registry : Registry) (strictness : TypeResolution) (graph : Graph LiveValue) :
    LoggedPass RebindOutcome := do
  silently do (← Pass.arena).checkReferences
  let built ← buildAll registry strictness graph
  silently (reconstructAll registry graph built)

/-- What a pass does with a graph that has been loaded. -/
def rebuild (registry : Registry) (strictness : TypeResolution) (graph : Graph LiveValue) :
    LoggedPass RebindOutcome := do
  registerAll graph
  hydrate registry strictness graph

/-! ## What the log leaves as it is -/

/-- The logged part ends as the part does, and leaves the same state. -/
def Mirrors (logged : LoggedPass α) (part : Pass α) : Prop :=
  ∀ history, part history.state = ((logged history).1, (logged history).2.state)

section Mirrors

variable {logged : LoggedPass α} {part : Pass α}

theorem mirrors_logging (call : ArenaCall) (part : Pass α) : Mirrors (logging call part) part :=
  fun _ => rfl

theorem mirrors_silently (part : Pass α) : Mirrors (silently part) part := fun _ => rfl

theorem mirrors_pure (result : α) : Mirrors (pure result) (pure result) := fun _ => rfl

theorem Mirrors.bind (mirrors : Mirrors logged part) {loggedNext : α → LoggedPass β}
    {next : α → Pass β} (nextMirrors : ∀ result, Mirrors (loggedNext result) (next result)) :
    Mirrors (logged >>= loggedNext) (part >>= next) := by
  intro history
  have same := mirrors history
  rcases ran : logged history with ⟨failure | result, after⟩ <;> rw [ran] at same
  · rw [bind_error ran, bind_error same]
  · rw [bind_ok ran, bind_ok same]
    exact nextMirrors result after

theorem Mirrors.tryCatch (mirrors : Mirrors logged part) {loggedHandler : Failure → LoggedPass α}
    {handler : Failure → Pass α}
    (handlerMirrors : ∀ failure, Mirrors (loggedHandler failure) (handler failure)) :
    Mirrors (MonadExcept.tryCatch logged loggedHandler) (MonadExcept.tryCatch part handler) := by
  intro history
  have same := mirrors history
  rcases ran : logged history with ⟨failure | result, after⟩ <;> rw [ran] at same
  · rw [tryCatch_error ran, tryCatch_error same]
    exact handlerMirrors failure after
  · rw [tryCatch_ok ran, tryCatch_ok same]

theorem mirrors_forM {items : List β} {loggedRound : β → LoggedPass Unit} {round : β → Pass Unit}
    (mirrors : ∀ item, Mirrors (loggedRound item) (round item)) :
    Mirrors (items.forM loggedRound) (items.forM round) := by
  induction items with
  | nil => exact mirrors_pure ()
  | cons item rest inductionHypothesis => exact (mirrors item).bind fun _ => inductionHypothesis

theorem mirrors_mapM {items : List β} {loggedRound : β → LoggedPass α} {round : β → Pass α}
    (mirrors : ∀ item, Mirrors (loggedRound item) (round item)) :
    Mirrors (items.mapM loggedRound) (items.mapM round) := by
  induction items with
  | nil => exact mirrors_pure []
  | cons item rest inductionHypothesis =>
      rw [List.mapM_cons, List.mapM_cons]
      exact (mirrors item).bind fun _ => inductionHypothesis.bind fun _ => mirrors_pure _

end Mirrors

theorem mirrors_registerAll (graph : Graph LiveValue) :
    Mirrors (registerAll graph) (Pass.registerAll graph) :=
  mirrors_forM fun _ => mirrors_forM fun _ => mirrors_logging _ _

theorem mirrors_buildOrSkip (key : String) (record : ObjectMemento LiveValue) :
    Mirrors (buildOrSkip registry strictness key record)
      (Pass.buildOrSkip registry strictness key record) :=
  Mirrors.tryCatch ((mirrors_logging _ _).bind fun _ => mirrors_pure _) fun _ =>
    mirrors_silently _

theorem mirrors_buildKind (kind : ObjectKind) :
    Mirrors (buildKind registry strictness graph kind)
      (Pass.buildKind registry strictness graph kind) := by
  rw [buildKind, Pass.buildKind]
  refine Mirrors.bind (mirrors_mapM fun entry => ?_) fun _ => mirrors_pure _
  exact (mirrors_buildOrSkip entry.1 entry.2).bind fun _ => mirrors_pure _

theorem mirrors_hydrate :
    Mirrors (hydrate registry strictness graph) (Pass.hydrate registry strictness graph) := by
  have parts : Pass.hydrate registry strictness graph = (do
      (do (← Pass.arena).checkReferences : Pass Unit)
      let built ← (do
        let locations ← Pass.buildKind registry strictness graph .location
        let entities ← Pass.buildKind registry strictness graph .entity
        let policies ← Pass.buildKind registry strictness graph .policy
        return (locations, entities, policies) : Pass (Built × Built × Built))
      reconstructAll registry graph built) := by
    simp only [Pass.hydrate, reconstructAll, bind_assoc, pure_bind]
  rw [parts]
  refine (mirrors_silently _).bind fun _ => Mirrors.bind ?_ fun _ => mirrors_silently _
  exact (mirrors_buildKind .location).bind fun _ => (mirrors_buildKind .entity).bind fun _ =>
    (mirrors_buildKind .policy).bind fun _ => mirrors_pure _

theorem mirrors_rebuild :
    Mirrors (rebuild registry strictness graph) (do
      Pass.registerAll graph
      Pass.hydrate registry strictness graph) :=
  (mirrors_registerAll graph).bind fun _ => mirrors_hydrate

end LoggedPass

end GraphCheckpoint
