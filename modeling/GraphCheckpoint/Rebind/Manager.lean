import GraphCheckpoint.Persist.Schedule
import GraphCheckpoint.Rebind.Pass

/-!
Contract: the manager, which ties writing and rebinding to one store.

Owns:
- the states of a rebind and the report that it leaves;
- `Manager`, its configuration, its registry and its persister;
- the steps of a rebind: it begins, unless one is in progress; its records have been loaded; it is
  abandoned.

Does not own: how a store loads.
-/

namespace GraphCheckpoint

/-- How far a rebind has come. -/
inductive RebindState where
  | idle
  | loading
  | placeholdersBuilt
  | hydrating
  | complete
  | failed
deriving DecidableEq, Repr, Inhabited

namespace RebindState

def name : RebindState → String
  | .idle => "IDLE"
  | .loading => "LOADING"
  | .placeholdersBuilt => "PLACEHOLDERS_BUILT"
  | .hydrating => "HYDRATING"
  | .complete => "COMPLETE"
  | .failed => "FAILED"

/-- All states, in the order in which a rebind goes through them. -/
def all : List RebindState :=
  [.idle, .loading, .placeholdersBuilt, .hydrating, .complete, .failed]

/-- A rebind ends in this state. -/
def isTerminal : RebindState → Bool
  | .complete | .failed => true
  | _ => false

end RebindState

/-- What is known of a rebind that has ended. -/
structure RebindReport where
  state : RebindState
  entities : Nat
  locations : Nat
  policies : Nat
  applications : Nat
  problems : List RebindProblem
  failure : Option String
deriving DecidableEq, Repr, Inhabited

namespace RebindReport

/-- The report of a rebind that rebuilt its graph. -/
def ofOutcome (outcome : RebindOutcome) (problems : List RebindProblem) : RebindReport :=
  ⟨.complete, outcome.entities.length, outcome.locations.length, outcome.policies.length,
    outcome.applications.length, problems, none⟩

/-- The report of a failed rebind. -/
def ofFailure (failure : Failure) (problems : List RebindProblem) : RebindReport :=
  ⟨.failed, 0, 0, 0, 0, problems, some failure.message⟩

end RebindReport

/-- A manager. -/
structure Manager where
  config : ManagerConfig
  registry : Registry
  schedule : Schedule
  state : RebindState
  report : Option RebindReport
  /-- A rebind is in progress. -/
  rebinding : Bool
deriving Inhabited

namespace Manager

def make (config : ManagerConfig) (registry : Registry) : Manager :=
  ⟨config, registry, .fresh, .idle, none, false⟩

def persister (manager : Manager) : Persister := manager.schedule.persister

def mapSchedule (change : Schedule → Schedule) (manager : Manager) : Manager :=
  { manager with schedule := change manager.schedule }

def mapPersister (change : Persister → Persister) (manager : Manager) : Manager :=
  manager.mapSchedule (Schedule.mapPersister change)

/-- The store that is written to and loaded from. -/
def store (manager : Manager) : Option StoreRef := manager.persister.store

/-- Starts writing, if writing is enabled at all. -/
def start (manager : Manager) : Manager :=
  if manager.config.persistenceEnabled then manager.mapPersister Persister.start else manager

def stop (manager : Manager) : Manager := manager.mapPersister Persister.stop

/-- The state in which the last finished rebind ended. -/
def lastState (manager : Manager) : RebindState :=
  match manager.report with
  | some report => report.state
  | none => .idle

/-! ## Rebinding -/

def enter (state : RebindState) (manager : Manager) : Manager := { manager with state := state }

/-- Begins a rebind, which loads from the given store. It is refused while another is in progress,
and cannot begin without a store. -/
def beginRebind (manager : Manager) : Outcome StoreRef × Manager :=
  if manager.rebinding then
    (.error (.invalidState "a rebind is already in progress"), manager)
  else
    match manager.store with
    | none => (.error (.invalidState "rebind requires a persister"), manager.enter .idle)
    | some store => (.ok store, { manager.enter .loading with rebinding := true })

/-- Ends a rebind that failed in a stage. -/
def failRebind (stage : RebindState) (failure : Failure) (problems : List RebindProblem)
    (manager : Manager) : Failure × Manager :=
  (.rebindFailed stage.name failure,
    { manager.enter .failed with
      report := some (.ofFailure failure problems)
      rebinding := false })

/-- Ends a rebind that rebuilt its graph. -/
def completeRebind (outcome : RebindOutcome) (problems : List RebindProblem) (manager : Manager) :
    Manager :=
  { manager.enter .complete with
    report := some (.ofOutcome outcome problems)
    rebinding := false }

/-- Gives up a rebind while it loads. -/
def abandonRebind (manager : Manager) : Manager := { manager with rebinding := false }

/-- What a rebind leaves behind. -/
structure RebindResult where
  outcome : Outcome RebindOutcome
  pass : PassState
  manager : Manager

/-- Ends a rebind in failure. -/
def failed (stage : RebindState) (failure : Failure) (pass : PassState) (manager : Manager) :
    RebindResult :=
  let (failure, manager) := manager.failRebind stage failure pass.problems
  ⟨.error failure, pass, manager⟩

/-- Rebuilds a loaded graph, the arena holding what its loading has looked up. -/
def rebuild (registry : Registry) (graph : Graph LiveValue) (pass : PassState)
    (manager : Manager) : RebindResult :=
  let (registered, pass) := (Pass.registerAll graph).run.run pass
  match registered with
  | .error failure => manager.failed .loading failure pass
  | .ok _ =>
      let manager := (manager.enter .placeholdersBuilt).enter .hydrating
      let (hydrated, pass) :=
        (Pass.hydrate registry manager.config.typeResolution graph).run.run pass
      match hydrated with
      | .error failure => manager.failed .hydrating failure pass
      | .ok outcome => ⟨.ok outcome, pass, manager.completeRebind outcome pass.problems⟩

/-- Goes on with a rebind once loading has ended. -/
def finishRebind (registry : Registry) (loaded : Outcome (Graph LiveValue)) (pass : PassState)
    (manager : Manager) : RebindResult :=
  match loaded with
  | .error failure => manager.failed .loading failure pass
  | .ok graph => manager.rebuild registry graph pass

end Manager

end GraphCheckpoint
