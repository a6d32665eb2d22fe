import GraphCheckpoint.Session.Persisting

/-!
Contract: loading and rebinding in a session.

Owns:
- loading from a store, with what the store does meanwhile;
- running the manager's rebind;
- the rebuilt objects, and those that factories remember.

Does not own: the pass of a rebind.

A load may run a rebind, whose load is refused one in turn since one is in progress by then. So
nothing here goes deeper than two loads.
-/

namespace GraphCheckpoint.Session

open GraphCheckpoint.Store

/-- How a rebind ends. -/
inductive RebindEnd where
  | finished (outcome : Outcome RebindOutcome)
  /-- Its load never ended, and it was given up. -/
  | abandoned

/-- The number of applications, or the failure. -/
def applicationCount : RebindEnd → Outcome Nat
  | .finished outcome => outcome.map fun found => found.applications.length
  | .abandoned => .ok 0

/-- Notes the result of a rebind in the log of a recording store. -/
def logRebind (which : StoreRef) (result : Outcome Nat) : Step Unit := do
  match ← storeAt which with
  | .recording store => setStore which (.recording { store with log := store.log ++ [result] })
  | _ => pure ()

/-- Loads from a store into an arena. A load that never ends gives nothing. The argument tells how a
rebind is run where the store asks for one. -/
def loadInto (rebindFirst : Step (Outcome Nat)) (which : StoreRef) (arena : Arena) :
    Step (Option (Outcome (Graph LiveValue × Arena))) := do
  match ← storeAt which with
  | .memory store => return some ((store.load Arena.resolver).run arena)
  | .file store => return some ((store.load (← get).disk Arena.resolver).run arena)
  | .recording store =>
      match store.reactions.onLoad with
      | some .stall => return none
      | some .rebind => logRebind which (← rebindFirst)
      | none => pure ()
      return some (store.load.map fun graph => (graph, arena))

/-- Takes what a pass leaves behind. -/
def keepPass (pass : PassState) : Step Unit :=
  modify fun session =>
    { session with
      heap := pass.arena.heap
      remembered := session.remembered ++ pass.remembered
      answers := session.answers ++ pass.answers }

/-- Runs a rebind with a registry, or with that of the manager. -/
def runRebind (rebindFirst : Step (Outcome Nat)) (registry : Option Registry) : Step RebindEnd := do
  let (begun, manager) := (← currentManager).beginRebind
  mapManager fun _ => manager
  match begun with
  | .error failure => return .finished (.error failure)
  | .ok store =>
      match ← loadInto rebindFirst store (.start (← heapOf)) with
      | none =>
          mapManager Manager.abandonRebind
          return .abandoned
      | some loaded =>
          let start := Pass.start (← heapOf)
          let pass :=
            match loaded with
            | .ok (_, arena) => { start with arena := arena }
            | .error _ => start
          let manager ← currentManager
          let result :=
            manager.finishRebind (registry.getD manager.registry) (loaded.map Prod.fst) pass
          mapManager fun _ => result.manager
          keepPass result.pass
          return .finished result.outcome

/-- The rebind that a load runs while a rebind is in progress: it is refused. -/
def nestedRebind : Step (Outcome Nat) := do
  return applicationCount (← runRebind (return .ok 0) none)

/-- The rebind that a load runs on its own. -/
def rebindForLoad : Step (Outcome Nat) := do
  return applicationCount (← runRebind nestedRebind none)

/-- Forgets the rebuilt graph and the remembered objects. -/
def forgetOutcome : Step Unit :=
  modify fun session => { session with outcome := none, remembered := [] }

/-- The records of objects, in the order of their keys; each may have failed. -/
def recordsOf (heap : Heap) (objects : Table Address) :
    List (Outcome (ObjectMemento LiveValue)) :=
  objects.values.filterMap heap.memento?

/-- Rebinds, and keeps the rebuilt graph in the place of the last one. -/
def rebind : Step RebindEnd := do
  forgetOutcome
  let ended ← runRebind nestedRebind none
  match ended with
  | .finished (.ok outcome) =>
      modify fun session => { session with outcome := some outcome }
  | _ => pure ()
  return ended

/-- Rebinds with another registry; gives ids and types of the applications, and keeps nothing. -/
def rebindWith (registry : Registry) : Step (List (String × String)) := do
  match ← runRebind nestedRebind (some registry) with
  | .abandoned => misuse "a rebind without an end"
  | .finished outcome =>
      let found ← orRefuse outcome
      let heap ← heapOf
      return found.applications.filterMap fun address =>
        (heap.object? address).map fun object => (object.id, object.typeName)

/-- Ids of the applications of a rebuilt graph. -/
def applicationIds (heap : Heap) (outcome : RebindOutcome) : List String :=
  outcome.applications.filterMap fun address => (heap.object? address).map LiveObject.id

/-- The type of a rebuilt object. -/
def rebuiltType (key : ObjectKey) : Step (Option String) := do
  let session ← get
  return do
    let outcome ← session.outcome
    let address ← (outcome.objects key.kind).get? key.id
    return (← session.heap.object? address).typeName

/-- Names the object that a factory has made last for a kind and id. -/
def adopt (key : ObjectKey) (name : String) : Step Unit := do
  match (← get).remembered.reverse.find? fun made => made.1 == key with
  | some (_, address) =>
      modify fun session => { session with objects := session.objects.insert name address }
  | none => misuse "nothing built"

/-- Takes the answers that objects got while they were rebuilt. -/
def takeAnswers : Step (List Answer) :=
  modifyGet fun session => (session.answers, { session with answers := [] })

/-- Loads the graph of a store, with references resolved as chosen. -/
def loadFrom (name : String) (choice : LookupChoice) : Step (Resolved (Graph LiveValue)) := do
  let which ← storeNamed name
  match ← storeAt which with
  | .memory store => resolving choice fun _ lookup => store.load lookup
  | .file store =>
      let disk := (← get).disk
      resolving choice fun _ lookup => store.load disk lookup
  | .recording _ =>
      match ← loadInto rebindForLoad which (.start (← heapOf)) with
      | none => misuse "a load without an end"
      | some loaded =>
          let (graph, _) ← orRefuse loaded
          return ⟨graph, [], []⟩

end GraphCheckpoint.Session
