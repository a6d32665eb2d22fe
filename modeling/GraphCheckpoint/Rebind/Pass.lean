import GraphCheckpoint.Configuration
import GraphCheckpoint.Graph
import GraphCheckpoint.Rebind.Question

/-!
Contract: one pass of a rebind, from loaded records to live objects.

Owns:
- registration of all records in the arena;
- building of the objects, kind by kind in the order of rebinding, each under its key;
- rebuilding of their state once all of them have been built;
- what a pass leaves behind: the rebuilt objects, or the problems met before it failed.

Does not own: loading, or the states that a manager shows.

An object whose type is not registered is a problem, which a strict pass does not survive.
-/

namespace GraphCheckpoint

/-- An object that could not be built, and why. -/
structure RebindProblem where
  kind : ObjectKind
  id : String
  typeName : String
  reason : String
deriving DecidableEq, Repr, Inhabited

/-- The rebuilt objects, by kind and key. -/
structure RebindOutcome where
  applications : List Address
  entities : Table Address
  locations : Table Address
  policies : Table Address
deriving DecidableEq, Repr, Inhabited

namespace RebindOutcome

/-- The objects of a kind. -/
def objects (outcome : RebindOutcome) : ObjectKind → Table Address
  | .entity => outcome.entities
  | .location => outcome.locations
  | .policy => outcome.policies

/-- All rebuilt objects. -/
def addresses (outcome : RebindOutcome) : List Address :=
  ObjectKind.all.flatMap fun kind => (outcome.objects kind).values

end RebindOutcome

/-- A pass as far as it has come. -/
structure PassState where
  arena : Arena
  problems : List RebindProblem
  /-- The objects of factories that remember, oldest first, under the ids that were asked for. -/
  remembered : List (ObjectKey × Address)
  /-- The answers that objects got while they were rebuilt. -/
  answers : List Answer
deriving Inhabited

/-- A part of a pass. What was done before a failure stays done. -/
abbrev Pass (α : Type) := ExceptT Failure (StateM PassState) α

/-- Objects built, by key. -/
abbrev Built := Table Address

namespace Pass

def start (heap : Heap) : PassState := ⟨.start heap, [], [], []⟩

def arena : Pass Arena := do return (← get).arena

def setArena (arena : Arena) : Pass Unit := modify fun state => { state with arena := arena }

def mapHeap (change : Heap → Heap) : Pass Unit := do
  let arena ← arena
  setArena { arena with heap := change arena.heap }

/-! ## Registration -/

/-- Registers every record under its key. -/
def registerAll (graph : Graph LiveValue) : Pass Unit :=
  ObjectKind.rebindOrder.forM fun kind =>
    (graph.records kind).forM fun (key, record) => do
      setArena (← (← arena).register kind key record.typeName)

/-! ## Building -/

/-- Builds the object of a record and binds the slot of its key. -/
def build (registry : Registry) (kind : ObjectKind) (key typeName : String) : Pass Address := do
  let factory ← registry.factory kind typeName
  let object := factory.make kind typeName key
  let arena ← arena
  let (address, heap) := arena.heap.create object
  setArena { arena with heap := heap }
  if factory.remembers then
    modify fun state => { state with remembered := state.remembered ++ [(⟨kind, key⟩, address)] }
  Registry.checkId kind key object
  setArena (← (← Pass.arena).bind kind key address)
  return address

/-- Builds the object of a record. A type that is not registered becomes a problem, unless the pass
is strict. -/
def buildOrSkip (registry : Registry) (strictness : TypeResolution) (key : String)
    (record : ObjectMemento LiveValue) : Pass (Option Address) :=
  tryCatch (do return some (← build registry record.kind key record.typeName)) fun failure => do
    if failure.isTypeNotFound ∧ strictness = .lenient then
      let problem : RebindProblem :=
        ⟨record.kind, record.id, record.typeName, failure.message⟩
      modify fun state => { state with problems := state.problems ++ [problem] }
      return none
    else throw failure

/-- Builds the objects of a kind. -/
def buildKind (registry : Registry) (strictness : TypeResolution) (graph : Graph LiveValue)
    (kind : ObjectKind) : Pass Built := do
  let built ← (graph.records kind).mapM fun (key, record) => do
    return (← buildOrSkip registry strictness key record).map fun address => (key, address)
  return Table.ofEntries (built.filterMap id)

/-! ## Rebuilding -/

/-- The reference to a registered object. -/
def reference (kind : ObjectKind) (id : String) : Pass Handle := do
  (← arena).reference kind id

/-- What a record says of the state that all objects have. -/
def restored (record current : Common LiveValue) : Common LiveValue :=
  { record with id := current.id, typeName := current.typeName }

/-- Gives an object the state that its record holds. Links back are weak and lead to what their
slots are bound to. -/
def restore (address : Address) : ObjectMemento LiveValue → Pass Unit
  | .entity record => do
      let parent ← record.parent.mapM (reference .entity)
      let application ← record.application.mapM (reference .entity)
      let children ← record.children.mapM (reference .entity)
      let locations ← record.locations.mapM (reference .location)
      let policies ← record.policies.mapM (reference .policy)
      let enrichers ← record.enrichers.mapM (reference .policy)
      mapHeap fun heap => heap.update address fun object =>
        { object with
          common := restored record.common object.common
          state := .entity ⟨parent.map heap.downgrade, children, locations, policies, enrichers,
            application.map heap.downgrade⟩ }
  | .location record => do
      let parent ← record.parent.mapM (reference .location)
      let children ← record.children.mapM (reference .location)
      mapHeap fun heap => heap.update address fun object =>
        { object with
          common := restored record.common object.common
          state := .location ⟨parent.map heap.downgrade, children⟩ }
  | .policy record =>
      mapHeap fun heap => heap.update address fun object =>
        { object with
          common := restored record.common object.common
          state := .policy record.flags }

/-- Asks the questions that a record lists. -/
def ask (registry : Registry) (record : ObjectMemento LiveValue) : Pass Unit :=
  (Question.ofConfig record.common.config).forM fun question => do
    let (answer, arena) ← question.answer registry (← arena)
    modify fun state => { state with arena := arena, answers := state.answers ++ [answer] }

/-- Rebuilds the state of an object from its record. -/
def reconstruct (registry : Registry) (address : Address) (record : ObjectMemento LiveValue) :
    Pass Unit := do
  match (← arena).heap.object? address with
  | some object =>
      match object.behaviour with
      | .asking => ask registry record
      | _ => restore address record
  | none => pure ()

/-- Rebuilds the objects of a kind that have been built. -/
def reconstructKind (registry : Registry) (graph : Graph LiveValue) (kind : ObjectKind)
    (built : Built) : Pass Unit :=
  (graph.records kind).forM fun (key, record) =>
    match built.get? key with
    | some address => reconstruct registry address record
    | none => pure ()

/-- Builds and rebuilds all objects of a graph whose records have been registered. -/
def hydrate (registry : Registry) (strictness : TypeResolution) (graph : Graph LiveValue) :
    Pass RebindOutcome := do
  (← arena).checkReferences
  let locations ← buildKind registry strictness graph .location
  let entities ← buildKind registry strictness graph .entity
  let policies ← buildKind registry strictness graph .policy
  reconstructKind registry graph .location locations
  reconstructKind registry graph .entity entities
  reconstructKind registry graph .policy policies
  return ⟨graph.applicationIds.filterMap entities.get?, entities, locations, policies⟩

end Pass

end GraphCheckpoint
