import GraphCheckpoint.Rebind.Manager

/-!
Contract: the rebinds of one manager, however their steps fall between each other.

Owns:
- `LivePass`, a pass that has begun and not ended, and `PassPhase`, which says what it does next;
- `Rebinds`, a manager with the passes that are alive, and `RebindMove`, one step of what goes on;
- `Rebinds.Performs`: the steps of one pass, with nothing between them, are the manager's rebind;
- `Rebinds.Orderly`, what is so after every step, and `Rebinds.Lawful`, what a step does to a call.

Does not own: what a pass does to objects.

The flag, the state, the report and the persister of a manager are read and written one at a time,
so a step of a pass touches one of them at most, and anything may come between two steps.
-/

namespace GraphCheckpoint

/-! ## Steps -/

/-- What a rebind returns: the rebuilt graph and its report, or why there is none. -/
abbrev RebindReturn := Outcome (RebindOutcome × RebindReport)

/-- What a store has loaded for a pass, and the arena in which it has looked up references. -/
structure LoadAnswer where
  graph : Outcome (Graph LiveValue)
  arena : Arena

/-- The pass that goes on with what has been loaded. -/
def LoadAnswer.start (loaded : LoadAnswer) : PassState := ⟨loaded.arena, [], [], []⟩

/-- Where a pass stands. -/
inductive PassPhase where
  /-- The flag has been set. -/
  | begun
  /-- The state has been reset, and the store has not been asked for. -/
  | opened
  | chosen (store : StoreRef)
  | loading (store : StoreRef)
  /-- All records are registered, which the state does not show yet. -/
  | registered (graph : Graph LiveValue) (pass : PassState)
  | built (graph : Graph LiveValue) (pass : PassState)
  | hydrating (graph : Graph LiveValue) (pass : PassState)
  /-- The pass is over, which the state does not show yet. -/
  | concluding (report : RebindReport) (result : RebindReturn)
  /-- The state shows how the pass ended, and the report is not stored yet. -/
  | reporting (report : RebindReport) (result : RebindReturn)
  /-- Only the flag has to be cleared. -/
  | leaving (result : RebindReturn)

/-- A pass that has begun and has not ended. -/
structure LivePass where
  registry : Registry
  phase : PassPhase
  /-- The states that it has entered, in order. -/
  trail : List RebindState
  /-- What its store has loaded, once it has. -/
  loaded : Option LoadAnswer
  /-- The last report at the time of the call. -/
  before : Option RebindReport

/-- A manager, and the passes that are alive. -/
structure Rebinds where
  manager : Manager
  alive : List LivePass

/-- One step of all that goes on. -/
inductive RebindMove where
  /-- A rebind is called, with a registry or with that of the manager. -/
  | call (registry : Option Registry)
  /-- A pass goes one step on, unless it waits for its store. -/
  | advance (index : Nat)
  /-- The store of a pass has done loading. -/
  | load (index : Nat) (loaded : LoadAnswer)
  /-- A pass is given up while it waits for its store. -/
  | abandon (index : Nat)
  /-- Something else is asked of the manager: another store, a start, a stop, a cycle. -/
  | elsewhere (change : Schedule → Schedule)

/-- How a call ends. -/
inductive CallEnd where
  | rejected (failure : Failure)
  | returned (pass : LivePass) (result : RebindReturn)
  | abandoned (pass : LivePass)

/-- The failure of a rebind that is called while another is in progress. -/
def rebindInProgress : Failure := .invalidState "a rebind is already in progress"

/-- The failure of a rebind that finds no store. -/
def rebindWithoutStore : Failure := .invalidState "rebind requires a persister"

namespace PassPhase

/-- A pass that has failed in a stage. -/
def failed (stage : RebindState) (failure : Failure) (problems : List RebindProblem) : PassPhase :=
  .concluding (.ofFailure failure problems) (.error (.rebindFailed stage.name failure))

/-- A pass that has rebuilt its graph. -/
def completed (outcome : RebindOutcome) (problems : List RebindProblem) : PassPhase :=
  .concluding (.ofOutcome outcome problems) (.ok (outcome, .ofOutcome outcome problems))

/-- The store has been asked for. -/
def afterChoosing : Option StoreRef → PassPhase
  | none => .leaving (.error rebindWithoutStore)
  | some store => .chosen store

/-- The placeholders of what has been loaded are registered. -/
def afterLoading (loaded : LoadAnswer) : PassPhase :=
  match loaded.graph with
  | .error failure => failed .loading failure loaded.start.problems
  | .ok graph =>
      match (Pass.registerAll graph).run.run loaded.start with
      | (.error failure, pass) => failed .loading failure pass.problems
      | (.ok _, pass) => .registered graph pass

/-- The objects are built and rebuilt. -/
def afterHydrating (registry : Registry) (strictness : TypeResolution) (graph : Graph LiveValue)
    (pass : PassState) : PassPhase :=
  match (Pass.hydrate registry strictness graph).run.run pass with
  | (.error failure, pass) => failed .hydrating failure pass.problems
  | (.ok outcome, pass) => completed outcome pass.problems

end PassPhase

namespace LivePass

def goTo (phase : PassPhase) (pass : LivePass) : LivePass := { pass with phase := phase }

/-- The pass once it has entered a state. -/
def enter (state : RebindState) (phase : PassPhase) (pass : LivePass) : LivePass :=
  { pass with phase := phase, trail := pass.trail ++ [state] }

/-- The pass once its store has done. -/
def receive (loaded : LoadAnswer) (pass : LivePass) : LivePass :=
  { pass with phase := .afterLoading loaded, loaded := some loaded }

/-- The pass waits for its store. -/
def isLoading (pass : LivePass) : Bool :=
  match pass.phase with
  | .loading _ => true
  | _ => false

end LivePass

namespace Rebinds

def fresh (config : ManagerConfig) (registry : Registry) : Rebinds := ⟨.make config registry, []⟩

def setPass (index : Nat) (pass : LivePass) (rebinds : Rebinds) : Rebinds :=
  { rebinds with alive := rebinds.alive.set index pass }

def mapManager (change : Manager → Manager) (rebinds : Rebinds) : Rebinds :=
  { rebinds with manager := change rebinds.manager }

/-- A pass enters a state, which the manager shows. -/
def enter (index : Nat) (pass : LivePass) (state : RebindState) (phase : PassPhase)
    (rebinds : Rebinds) : Rebinds :=
  (rebinds.setPass index (pass.enter state phase)).mapManager (Manager.enter state)

/-- A pass ends, and the flag is cleared. -/
def leave (index : Nat) (rebinds : Rebinds) : Rebinds :=
  ⟨rebinds.manager.abandonRebind, rebinds.alive.eraseIdx index⟩

/-- The flag is set for a new pass. -/
def accept (registry : Option Registry) (rebinds : Rebinds) : Rebinds :=
  ⟨{ rebinds.manager with rebinding := true },
    rebinds.alive ++
      [⟨registry.getD rebinds.manager.registry, .begun, [], none, rebinds.manager.report⟩]⟩

/-- The next step of a pass. -/
def advance (index : Nat) (pass : LivePass) (rebinds : Rebinds) : Option CallEnd × Rebinds :=
  match pass.phase with
  | .begun => (none, rebinds.enter index pass .idle .opened)
  | .opened => (none, rebinds.setPass index (pass.goTo (.afterChoosing rebinds.manager.store)))
  | .chosen store => (none, rebinds.enter index pass .loading (.loading store))
  | .loading _ => (none, rebinds)
  | .registered graph placed =>
      (none, rebinds.enter index pass .placeholdersBuilt (.built graph placed))
  | .built graph placed => (none, rebinds.enter index pass .hydrating (.hydrating graph placed))
  | .hydrating graph placed =>
      (none, rebinds.setPass index (pass.goTo
        (.afterHydrating pass.registry rebinds.manager.config.typeResolution graph placed)))
  | .concluding report result =>
      (none, rebinds.enter index pass report.state (.reporting report result))
  | .reporting report result =>
      (none, (rebinds.setPass index (pass.goTo (.leaving result))).mapManager
        fun manager => { manager with report := some report })
  | .leaving result => (some (.returned pass result), rebinds.leave index)

/-- The pass at an index, if it waits for its store. -/
def waiting? (index : Nat) (rebinds : Rebinds) : Option LivePass :=
  rebinds.alive[index]?.filter LivePass.isLoading

/-- Does one step, with which a call may end. -/
def step (move : RebindMove) (rebinds : Rebinds) : Option CallEnd × Rebinds :=
  match move with
  | .call registry =>
      if rebinds.manager.rebinding then (some (.rejected rebindInProgress), rebinds)
      else (none, rebinds.accept registry)
  | .advance index =>
      match rebinds.alive[index]? with
      | some pass => rebinds.advance index pass
      | none => (none, rebinds)
  | .load index loaded =>
      match rebinds.waiting? index with
      | some pass => (none, rebinds.setPass index (pass.receive loaded))
      | none => (none, rebinds)
  | .abandon index =>
      match rebinds.waiting? index with
      | some pass => (some (.abandoned pass), rebinds.leave index)
      | none => (none, rebinds)
  | .elsewhere change => (none, rebinds.mapManager (Manager.mapSchedule change))

/-- Does some steps, one after the other; gives the calls that end, in order. -/
def run : List RebindMove → Rebinds → List CallEnd × Rebinds
  | [], rebinds => ([], rebinds)
  | move :: later, rebinds =>
      let (ended, after) := rebinds.step move
      let (others, atLast) := after.run later
      (ended.toList ++ others, atLast)

/-! ## A rebind with nothing between its steps -/

/-- The steps of a rebind until it waits for its store, or finds that there is none. -/
def beginning (chosen : Option Registry) : List RebindMove :=
  .call chosen :: List.replicate 3 (.advance 0)

/-- The steps of a rebind from the answer of its store to its return. -/
def finishing (loaded : LoadAnswer) : List RebindMove :=
  .load 0 loaded :: List.replicate 6 (.advance 0)

variable {manager after : Manager} {registry : Registry} {store : StoreRef}
  {trail : List RebindState} {given : Option LoadAnswer} {before : Option RebindReport}

theorem run_append (first later : List RebindMove) (rebinds : Rebinds) :
    rebinds.run (first ++ later) =
      ((rebinds.run first).1 ++ ((rebinds.run first).2.run later).1,
        ((rebinds.run first).2.run later).2) := by
  induction first generalizing rebinds with
  | nil => rfl
  | cons move rest inductionHypothesis =>
      simp only [List.cons_append, run, inductionHypothesis, List.append_assoc]

/-- A rebind asks for its store in two steps. -/
theorem run_call (chosen : Option Registry) (free : manager.rebinding = false) :
    (⟨manager, []⟩ : Rebinds).run (.call chosen :: List.replicate 2 (.advance 0)) =
      ([], ⟨{ manager.enter .idle with rebinding := true },
        [⟨chosen.getD manager.registry, .afterChoosing manager.store, [.idle], none,
          manager.report⟩]⟩) := by
  rcases manager with ⟨config, registry, schedule, state, report, rebinding⟩
  cases free
  rfl

theorem beginning_eq (chosen : Option Registry) :
    beginning chosen = (.call chosen :: List.replicate 2 (.advance 0)) ++ [.advance 0] := rfl

/-- The first steps of a rebind are how the manager begins one. -/
theorem run_beginning (chosen : Option Registry)
    (begun : manager.beginRebind = (.ok store, after)) :
    (⟨manager, []⟩ : Rebinds).run (beginning chosen) =
      ([], ⟨after, [⟨chosen.getD manager.registry, .loading store, [.idle, .loading], none,
        manager.report⟩]⟩) := by
  rw [Manager.beginRebind] at begun
  split at begun
  · cases begun
  · rename_i free
    split at begun
    · cases begun
    · rename_i found isStore
      cases begun
      rw [beginning_eq, run_append, run_call chosen (by simpa using free), isStore]
      rfl

/-- A rebind that finds no store is one that the manager refuses to begin. -/
theorem run_beginning_withoutStore (chosen : Option Registry) (free : manager.rebinding = false)
    (noStore : manager.store = none) :
    (⟨manager, []⟩ : Rebinds).run (beginning chosen) =
      ([.returned ⟨chosen.getD manager.registry, .leaving (.error rebindWithoutStore), [.idle],
        none, manager.report⟩ (.error rebindWithoutStore)], ⟨manager.beginRebind.2, []⟩) := by
  rw [beginning_eq, run_append, run_call chosen free, Manager.beginRebind,
    if_neg (by simp [free]), noStore]
  rcases manager with ⟨config, registry, schedule, state, report, rebinding⟩
  cases free
  rfl

/-- A pass whose store has done registers what has been loaded. -/
theorem run_load (loaded : LoadAnswer) (later : List RebindMove) :
    (⟨manager, [⟨registry, .loading store, trail, given, before⟩]⟩ : Rebinds).run
        (.load 0 loaded :: later) =
      (⟨manager, [⟨registry, .afterLoading loaded, trail, some loaded, before⟩]⟩ : Rebinds).run
        later := rfl

/-- A pass whose records are registered hydrates in three steps. -/
theorem run_registered {graph : Graph LiveValue} {placed : PassState} :
    (⟨manager, [⟨registry, .registered graph placed, trail, given, before⟩]⟩ : Rebinds).run
        (List.replicate 3 (.advance 0)) =
      ([], ⟨(manager.enter .placeholdersBuilt).enter .hydrating,
        [⟨registry, .afterHydrating registry manager.config.typeResolution graph placed,
          trail ++ [.placeholdersBuilt] ++ [.hydrating], given, before⟩]⟩) := rfl

theorem finishing_eq (loaded : LoadAnswer) :
    finishing loaded =
      .load 0 loaded :: (List.replicate 3 (.advance 0) ++ List.replicate 3 (.advance 0)) := rfl

/-- The steps of a pass whose store has done are how the manager finishes a rebind. -/
theorem run_finishing (loaded : LoadAnswer) :
    let finished := manager.finishRebind registry loaded.graph loaded.start
    ∃ ended result, (⟨manager, [⟨registry, .loading store, trail, given, before⟩]⟩ : Rebinds).run
        (finishing loaded) = ([.returned ended result], ⟨finished.manager, []⟩) ∧
      result.map Prod.fst = finished.outcome := by
  rw [finishing_eq, run_load, run_append]
  rcases loaded with ⟨graph, arena⟩
  cases graph with
  | error failure => exact ⟨_, _, rfl, rfl⟩
  | ok graph =>
      simp only [PassPhase.afterLoading, Manager.finishRebind, Manager.rebuild]
      rcases (Pass.registerAll graph).run.run (LoadAnswer.start ⟨.ok graph, arena⟩) with
        ⟨failure | registered, placed⟩
      · exact ⟨_, _, rfl, rfl⟩
      · simp only [run_registered, PassPhase.afterHydrating]
        have sameConfig :
            ((manager.enter .placeholdersBuilt).enter .hydrating).config = manager.config := rfl
        rw [sameConfig]
        rcases (Pass.hydrate registry manager.config.typeResolution graph).run.run placed with
          ⟨failure | outcome, pass⟩
        · exact ⟨_, _, rfl, rfl⟩
        · exact ⟨_, _, rfl, rfl⟩

end Rebinds

/-! ## Where a pass stands -/

namespace RebindState

/-- The states of a pass, up to the stage in which it stands. -/
def path (stage : RebindState) : List RebindState := all.takeWhile (· != stage) ++ [stage]

/-- The states that a pass can go through: some of those of a pass that completes, or those of one
that fails while it loads or while it hydrates. -/
inductive Trail : List RebindState → Prop
  | straight {trail : List RebindState}
      (isPrefix : trail <+: [.idle, .loading, .placeholdersBuilt, .hydrating, .complete]) :
      Trail trail
  | failedLoading : Trail [.idle, .loading, .failed]
  | failedHydrating : Trail [.idle, .loading, .placeholdersBuilt, .hydrating, .failed]

variable {stage last state next : RebindState} {earlier : List RebindState}

/-- The states of a pass that has left a stage. -/
theorem path_append : stage.path ++ [last] = all.takeWhile (· != stage) ++ [stage, last] :=
  List.append_assoc _ [stage] [last]

theorem path_append_ne : stage.path ++ [last] ≠ [state] := fun same => by
  have sameLength := congrArg List.length same
  simp [path_append] at sameLength

theorem eq_of_path_append (same : stage.path ++ [last] = earlier ++ [state, next]) :
    state = stage ∧ next = last := by
  have sameEnd := (List.append_inj' (path_append.symm.trans same) rfl).2
  cases sameEnd
  exact ⟨rfl, rfl⟩

end RebindState

/-- The graph has been loaded, and all of its records have been registered. -/
structure LoadAnswer.Places (loaded : LoadAnswer) (graph : Graph LiveValue) (placed : PassState) :
    Prop where
  loads : loaded.graph = .ok graph
  registers : (Pass.registerAll graph).run.run loaded.start = (.ok (), placed)

/-- In which stage a pass ends and how, after what its store has loaded. -/
inductive Concludes (registry : Registry) (strictness : TypeResolution) :
    LoadAnswer → RebindState → RebindReport → RebindReturn → Prop
  | loadFailed {loaded : LoadAnswer} {failure : Failure} (failed : loaded.graph = .error failure) :
      Concludes registry strictness loaded .loading (.ofFailure failure [])
        (.error (.rebindFailed RebindState.loading.name failure))
  | registrationFailed {loaded : LoadAnswer} {graph : Graph LiveValue} {failure : Failure}
      {pass : PassState} (isLoaded : loaded.graph = .ok graph)
      (failed : (Pass.registerAll graph).run.run loaded.start = (.error failure, pass)) :
      Concludes registry strictness loaded .loading (.ofFailure failure pass.problems)
        (.error (.rebindFailed RebindState.loading.name failure))
  | hydrationFailed {loaded : LoadAnswer} {graph : Graph LiveValue} {failure : Failure}
      {placed pass : PassState} (isPlaced : loaded.Places graph placed)
      (failed : (Pass.hydrate registry strictness graph).run.run placed = (.error failure, pass)) :
      Concludes registry strictness loaded .hydrating (.ofFailure failure pass.problems)
        (.error (.rebindFailed RebindState.hydrating.name failure))
  | completed {loaded : LoadAnswer} {graph : Graph LiveValue} {outcome : RebindOutcome}
      {placed pass : PassState} (isPlaced : loaded.Places graph placed)
      (isRebuilt : (Pass.hydrate registry strictness graph).run.run placed = (.ok outcome, pass)) :
      Concludes registry strictness loaded .hydrating (.ofOutcome outcome pass.problems)
        (.ok (outcome, .ofOutcome outcome pass.problems))

/-- A pass fails in a stage for a reason that its report shows, or completes. -/
theorem Concludes.ends {registry : Registry} {strictness : TypeResolution} {loaded : LoadAnswer}
    {stage : RebindState} {report : RebindReport} {result : RebindReturn}
    (concludes : Concludes registry strictness loaded stage report result) :
    (∃ failure, result = .error (.rebindFailed stage.name failure) ∧ report.state = .failed ∧
        report.failure = some failure.message) ∨
      ∃ outcome, result = .ok (outcome, report) ∧ report.state = .complete := by
  cases concludes with
  | loadFailed failed => exact Or.inl ⟨_, rfl, rfl, rfl⟩
  | registrationFailed isLoaded failed => exact Or.inl ⟨_, rfl, rfl, rfl⟩
  | hydrationFailed isPlaced failed => exact Or.inl ⟨_, rfl, rfl, rfl⟩
  | completed isPlaced isRebuilt => exact Or.inr ⟨_, rfl, rfl⟩

/-- Where a pass stands fits the states that it has entered, what its store has loaded, and the last
report. -/
inductive PassPhase.Fits (registry : Registry) (strictness : TypeResolution)
    (before : Option RebindReport) :
    PassPhase → List RebindState → Option LoadAnswer → Option RebindReport → Prop
  | begun : Fits registry strictness before .begun [] none before
  | opened : Fits registry strictness before .opened [.idle] none before
  | chosen {store : StoreRef} : Fits registry strictness before (.chosen store) [.idle] none before
  | loading {store : StoreRef} :
      Fits registry strictness before (.loading store) RebindState.loading.path none before
  | registered {loaded : LoadAnswer} {graph : Graph LiveValue} {placed : PassState}
      (isPlaced : loaded.Places graph placed) :
      Fits registry strictness before (.registered graph placed) RebindState.loading.path
        (some loaded) before
  | built {loaded : LoadAnswer} {graph : Graph LiveValue} {placed : PassState}
      (isPlaced : loaded.Places graph placed) :
      Fits registry strictness before (.built graph placed) RebindState.placeholdersBuilt.path
        (some loaded) before
  | hydrating {loaded : LoadAnswer} {graph : Graph LiveValue} {placed : PassState}
      (isPlaced : loaded.Places graph placed) :
      Fits registry strictness before (.hydrating graph placed) RebindState.hydrating.path
        (some loaded) before
  | concluding {loaded : LoadAnswer} {stage : RebindState} {report : RebindReport}
      {result : RebindReturn}
      (concludes : Concludes registry strictness loaded stage report result) :
      Fits registry strictness before (.concluding report result) stage.path (some loaded) before
  | reporting {loaded : LoadAnswer} {stage : RebindState} {report : RebindReport}
      {result : RebindReturn}
      (concludes : Concludes registry strictness loaded stage report result) :
      Fits registry strictness before (.reporting report result) (stage.path ++ [report.state])
        (some loaded) before
  | leaving {loaded : LoadAnswer} {stage : RebindState} {report : RebindReport}
      {result : RebindReturn} {last : Option RebindReport}
      (concludes : Concludes registry strictness loaded stage report result)
      (stored : last = some report) :
      Fits registry strictness before (.leaving result) (stage.path ++ [report.state])
        (some loaded) last
  | withoutStore :
      Fits registry strictness before (.leaving (.error rebindWithoutStore)) [.idle] none before

namespace PassPhase

variable {registry : Registry} {strictness : TypeResolution} {before report : Option RebindReport}
  {phase : PassPhase} {entered : List RebindState} {given : Option LoadAnswer}

theorem fits_afterChoosing (store : Option StoreRef) :
    Fits registry strictness before (.afterChoosing store) [.idle] none before := by
  cases store with
  | none => exact .withoutStore
  | some store => exact .chosen

theorem fits_afterLoading (loaded : LoadAnswer) :
    Fits registry strictness before (.afterLoading loaded) RebindState.loading.path (some loaded)
      before := by
  rw [afterLoading]
  cases loads : loaded.graph with
  | error failure => exact .concluding (.loadFailed loads)
  | ok graph =>
      dsimp only
      rcases registers : (Pass.registerAll graph).run.run loaded.start with
        ⟨failure | registered, placed⟩
      · exact .concluding (.registrationFailed loads registers)
      · exact .registered ⟨loads, registers⟩

theorem fits_afterHydrating {loaded : LoadAnswer} {graph : Graph LiveValue} {placed : PassState}
    (isPlaced : loaded.Places graph placed) :
    Fits registry strictness before (.afterHydrating registry strictness graph placed)
      RebindState.hydrating.path (some loaded) before := by
  rw [afterHydrating]
  rcases ran : (Pass.hydrate registry strictness graph).run.run placed with
    ⟨failure | outcome, pass⟩
  · exact .concluding (.hydrationFailed isPlaced ran)
  · exact .concluding (.completed isPlaced ran)

theorem Fits.trail (fits : Fits registry strictness before phase entered given report) :
    RebindState.Trail entered := by
  cases fits with
  | reporting concludes | leaving concludes stored =>
      cases concludes with
      | loadFailed failed => exact .failedLoading
      | registrationFailed isLoaded failed => exact .failedLoading
      | hydrationFailed isPlaced failed => exact .failedHydrating
      | completed isPlaced isRebuilt => exact .straight (List.prefix_refl _)
  | concluding concludes => cases concludes <;> exact .straight (by decide)
  | _ => exact .straight (by decide)

end PassPhase

/-! ## The passes that are alive -/

namespace Rebinds

variable {manager : Manager} {pass : LivePass} {rebinds : Rebinds}

/-- Where the passes stand: none is alive and the flag is clear, or one is, and the flag is set. -/
inductive Sound : Rebinds → Prop
  | quiet {manager : Manager} (free : manager.rebinding = false) : Sound ⟨manager, []⟩
  | busy {manager : Manager} {pass : LivePass} (taken : manager.rebinding = true)
      (fits : pass.phase.Fits pass.registry manager.config.typeResolution pass.before pass.trail
        pass.loaded manager.report)
      (shown : ∀ state, pass.trail.getLast? = some state → manager.state = state) :
      Sound ⟨manager, [pass]⟩

theorem Sound.entered {state : RebindState} {phase : PassPhase} (taken : manager.rebinding = true)
    (fits : phase.Fits pass.registry manager.config.typeResolution pass.before
      (pass.trail ++ [state]) pass.loaded manager.report) :
    Sound ⟨manager.enter state, [pass.enter state phase]⟩ := by
  refine .busy taken fits fun last isLast => ?_
  simpa [LivePass.enter, Manager.enter] using isLast

/-- A live pass stands soundly after its next step too. -/
theorem Sound.advance (sound : Sound ⟨manager, [pass]⟩) :
    Sound (advance 0 pass ⟨manager, [pass]⟩).2 := by
  cases sound with
  | busy taken fits shown =>
      rcases pass with ⟨registry, phase, trail, given, before⟩
      cases fits with
      | begun => exact .entered taken .opened
      | opened => exact .busy taken (PassPhase.fits_afterChoosing manager.store) shown
      | chosen => exact .entered taken .loading
      | loading => exact .busy taken .loading shown
      | registered isPlaced => exact .entered taken (.built isPlaced)
      | built isPlaced => exact .entered taken (.hydrating isPlaced)
      | hydrating isPlaced => exact .busy taken (PassPhase.fits_afterHydrating isPlaced) shown
      | concluding concludes => exact .entered taken (.reporting concludes)
      | reporting concludes => exact .busy taken (.leaving concludes rfl) shown
      | leaving concludes stored => exact .quiet rfl
      | withoutStore => exact .quiet rfl

/-- Whichever pass is found, it is the only one. -/
theorem Sound.alone {index : Nat} (sound : Sound rebinds)
    (found : rebinds.alive[index]? = some pass) :
    index = 0 ∧ rebinds = ⟨rebinds.manager, [pass]⟩ := by
  cases sound with
  | quiet free => cases found
  | busy taken fits shown =>
      rw [List.getElem?_singleton] at found
      split at found
      · cases found
        exact ⟨‹_›, rfl⟩
      · cases found

theorem exists_of_waiting? {index : Nat} (waits : rebinds.waiting? index = some pass) :
    rebinds.alive[index]? = some pass ∧ ∃ store, pass.phase = .loading store := by
  obtain ⟨found, isLoading⟩ := Option.filter_eq_some_iff.mp waits
  refine ⟨found, ?_⟩
  rw [LivePass.isLoading] at isLoading
  split at isLoading
  · exact ⟨_, ‹_›⟩
  · cases isLoading

/-- A pass that waits for its store is the only one, and has done nothing to the report. -/
theorem Sound.waiting {index : Nat} (sound : Sound rebinds)
    (waits : rebinds.waiting? index = some pass) :
    index = 0 ∧ rebinds = ⟨rebinds.manager, [pass]⟩ ∧ pass.trail = [.idle, .loading] ∧
      rebinds.manager.report = pass.before := by
  obtain ⟨found, store, isLoading⟩ := exists_of_waiting? waits
  obtain ⟨isFirst, isAlone⟩ := sound.alone found
  refine ⟨isFirst, isAlone, ?_⟩
  rw [isAlone] at sound
  cases sound with
  | busy taken fits shown =>
      rcases pass with ⟨registry, phase, trail, given, before⟩
      cases isLoading
      cases fits
      exact ⟨rfl, rfl⟩

/-- A pass whose store has done stands soundly. -/
theorem Sound.receive (sound : Sound ⟨manager, [pass]⟩) (isTrail : pass.trail = [.idle, .loading])
    (unreported : manager.report = pass.before) (loaded : LoadAnswer) :
    Sound ⟨manager, [pass.receive loaded]⟩ := by
  cases sound with
  | busy taken fits shown =>
      refine .busy taken ?_ shown
      rw [unreported]
      exact isTrail.symm ▸ PassPhase.fits_afterLoading loaded

/-! ## What calls tell -/

/-- What is so after every step. -/
structure Orderly (rebinds : Rebinds) : Prop where
  /-- The flag is set exactly while a pass is alive. -/
  flag : rebinds.manager.rebinding = true ↔ rebinds.alive ≠ []
  single : rebinds.alive.length ≤ 1
  trail : ∀ pass ∈ rebinds.alive, RebindState.Trail pass.trail
  /-- The state is the one that the pass has entered last. -/
  state : ∀ pass ∈ rebinds.alive, ∀ state, pass.trail.getLast? = some state →
    rebinds.manager.state = state

/-- What the return of a call tells of its pass, with the report that is stored then. -/
structure Tells (strictness : TypeResolution) (pass : LivePass) (result : RebindReturn)
    (stored : Option RebindReport) : Prop where
  /-- A call succeeds if and only if its pass ended complete. -/
  ok_iff : (∃ rebuilt, result = .ok rebuilt) ↔ pass.trail.getLast? = some .complete
  /-- The report that it returns is stored. -/
  ok : ∀ outcome report, result = .ok (outcome, report) →
    stored = some report ∧ report.state = .complete
  /-- A call fails in a stage if and only if its pass left that stage for the failed state. -/
  failed_iff : ∀ stage, (∃ source, result = .error (.rebindFailed stage source)) ↔
    ∃ earlier state, stage = state.name ∧ pass.trail = earlier ++ [state, .failed]
  /-- The report of the failure is stored. -/
  failed : ∀ stage source, result = .error (.rebindFailed stage source) →
    ∃ report, stored = some report ∧ report.state = .failed ∧ report.failure = some source.message
  /-- A call fails for want of a store if and only if its pass went no further than to begin. -/
  withoutStore_iff : result = .error rebindWithoutStore ↔ pass.trail = [.idle]
  withoutStore : result = .error rebindWithoutStore → stored = pass.before
  /-- Any other call ends by what its store has loaded. -/
  concludes : result ≠ .error rebindWithoutStore → ∃ loaded stage report,
    pass.loaded = some loaded ∧ Concludes pass.registry strictness loaded stage report result ∧
      pass.trail = stage.path ++ [report.state] ∧ stored = some report

/-- What a step may do to the calls. -/
inductive Lawful : Rebinds → RebindMove → Option CallEnd → Rebinds → Prop
  /-- A call is taken if no pass is alive. -/
  | accepted {before after : Rebinds} {pass : LivePass} {registry : Option Registry}
      (noneAlive : before.alive = []) (alive : after.alive = [pass]) (isNew : pass.trail = [])
      (remembers : pass.before = before.manager.report) :
      Lawful before (.call registry) none after
  /-- A call is rejected if a pass is alive, and nothing changes. -/
  | rejected {before : Rebinds} {registry : Option Registry} (alive : before.alive ≠ []) :
      Lawful before (.call registry) (some (.rejected rebindInProgress)) before
  /-- A call returns when its pass, the only one, ends. -/
  | returned {before after : Rebinds} {pass : LivePass} {result : RebindReturn} {index : Nat}
      (alive : before.alive = [pass]) (gone : after.alive = [])
      (tells : Tells before.manager.config.typeResolution pass result after.manager.report) :
      Lawful before (.advance index) (some (.returned pass result)) after
  /-- A call is abandoned while its pass, the only one, loads, and the last report stays. -/
  | abandoned {before after : Rebinds} {pass : LivePass} {index : Nat}
      (alive : before.alive = [pass]) (gone : after.alive = [])
      (isLoading : pass.trail = [.idle, .loading])
      (unreported : after.manager.report = pass.before) :
      Lawful before (.abandon index) (some (.abandoned pass)) after
  /-- With any other step no call begins or ends, and no pass. -/
  | silent {before after : Rebinds} {move : RebindMove}
      (notCall : ∀ registry, move ≠ .call registry)
      (same : after.alive.length = before.alive.length) : Lawful before move none after

/-- What a rebind comes to where nothing falls between its steps: what the manager makes of it. -/
structure Performs (rebinds : Rebinds) : Prop where
  begins : rebinds.alive = [] → ∀ chosen store after,
    rebinds.manager.beginRebind = (.ok store, after) →
      ∃ pass, pass.phase = .loading store ∧ pass.registry = chosen.getD rebinds.manager.registry ∧
        rebinds.run (beginning chosen) = ([], ⟨after, [pass]⟩)
  withoutStore : rebinds.alive = [] → rebinds.manager.store = none → ∀ chosen,
    ∃ pass, rebinds.run (beginning chosen) =
      ([.returned pass (.error rebindWithoutStore)], ⟨rebinds.manager.beginRebind.2, []⟩)
  finishes : ∀ pass loaded, rebinds.waiting? 0 = some pass →
    ∃ ended result,
      rebinds.run (finishing loaded) = ([.returned ended result],
        ⟨(rebinds.manager.finishRebind pass.registry loaded.graph loaded.start).manager, []⟩) ∧
      result.map Prod.fst =
        (rebinds.manager.finishRebind pass.registry loaded.graph loaded.start).outcome
  givesUp : ∀ pass, rebinds.waiting? 0 = some pass →
    rebinds.run [.abandon 0] = ([.abandoned pass], ⟨rebinds.manager.abandonRebind, []⟩)

theorem Sound.orderly (sound : Sound rebinds) : Orderly rebinds := by
  cases sound with
  | quiet free => exact ⟨by simp [free], by simp, by simp, by simp⟩
  | busy taken fits shown =>
      refine ⟨by simp [taken], by simp, fun pass member => ?_, fun pass member => ?_⟩
      · rw [List.mem_singleton.mp member]
        exact fits.trail
      · rw [List.mem_singleton.mp member]
        exact shown

theorem Sound.performs (sound : Sound rebinds) : Performs rebinds where
  begins := fun noneAlive chosen store after begun => by
    cases sound with
    | quiet free => exact ⟨_, rfl, rfl, run_beginning chosen begun⟩
    | busy taken fits shown => cases noneAlive
  withoutStore := fun noneAlive noStore chosen => by
    cases sound with
    | quiet free => exact ⟨_, run_beginning_withoutStore chosen free noStore⟩
    | busy taken fits shown => cases noneAlive
  finishes := fun pass loaded waits => by
    obtain ⟨isFirst, isAlone, isTrail, unreported⟩ := sound.waiting waits
    obtain ⟨found, store, isLoading⟩ := exists_of_waiting? waits
    rw [isAlone]
    rcases pass with ⟨registry, phase, trail, given, before⟩
    cases isLoading
    exact run_finishing loaded
  givesUp := fun pass waits => by
    obtain ⟨isFirst, isAlone, isTrail, unreported⟩ := sound.waiting waits
    simp only [run, step, waits, leave]
    rw [isAlone]
    rfl

section Concluded

variable {strictness : TypeResolution} {loaded : LoadAnswer} {stage : RebindState}
  {report : RebindReport}

/-- What is told by a pass that has failed. -/
theorem tells_of_failed {failure : Failure}
    (concludes : Concludes pass.registry strictness loaded stage report
      (.error (.rebindFailed stage.name failure)))
    (isFailed : report.state = .failed) (isText : report.failure = some failure.message)
    (isLoaded : pass.loaded = some loaded) (isTrail : pass.trail = stage.path ++ [report.state]) :
    Tells strictness pass (.error (.rebindFailed stage.name failure)) (some report) where
  ok_iff := by simp [isTrail, isFailed]
  ok := nofun
  failed_iff := fun name => by
    constructor
    · intro ⟨source, same⟩
      cases same
      exact ⟨_, stage, rfl, by rw [isTrail, isFailed, RebindState.path_append]⟩
    · intro ⟨earlier, state, isName, isLast⟩
      have sameEnd := RebindState.eq_of_path_append (isTrail.symm.trans isLast)
      exact ⟨failure, by rw [isName, sameEnd.1]⟩
  failed := fun name source same => by
    cases same
    exact ⟨report, rfl, isFailed, isText⟩
  withoutStore_iff := by
    have notBegun : pass.trail ≠ [.idle] := isTrail ▸ RebindState.path_append_ne
    simp [rebindWithoutStore, notBegun]
  withoutStore := nofun
  concludes := fun _ => ⟨loaded, stage, report, isLoaded, concludes, isTrail, rfl⟩

/-- What is told by a pass that has completed. -/
theorem tells_of_completed {outcome : RebindOutcome}
    (concludes : Concludes pass.registry strictness loaded stage report (.ok (outcome, report)))
    (isComplete : report.state = .complete) (isLoaded : pass.loaded = some loaded)
    (isTrail : pass.trail = stage.path ++ [report.state]) :
    Tells strictness pass (.ok (outcome, report)) (some report) where
  ok_iff := by simp [isTrail, isComplete]
  ok := fun other given same => by
    cases same
    exact ⟨rfl, isComplete⟩
  failed_iff := fun name => by
    refine ⟨nofun, fun ⟨earlier, state, isName, isLast⟩ => ?_⟩
    have sameEnd := RebindState.eq_of_path_append (isTrail.symm.trans isLast)
    cases sameEnd.2.trans isComplete
  failed := nofun
  withoutStore_iff := by
    have notBegun : pass.trail ≠ [.idle] := isTrail ▸ RebindState.path_append_ne
    simp [notBegun]
  withoutStore := nofun
  concludes := fun _ => ⟨loaded, stage, report, isLoaded, concludes, isTrail, rfl⟩

end Concluded

/-- What is told by a pass that has found no store. -/
theorem tells_withoutStore {strictness : TypeResolution} (isTrail : pass.trail = [.idle]) :
    Tells strictness pass (.error rebindWithoutStore) pass.before where
  ok_iff := by simp [isTrail]
  ok := nofun
  failed_iff := fun name => by
    refine ⟨nofun, fun ⟨earlier, state, isName, isLast⟩ => ?_⟩
    have sameLength := congrArg List.length (isTrail.symm.trans isLast)
    simp at sameLength
  failed := nofun
  withoutStore_iff := by simp [isTrail]
  withoutStore := fun _ => rfl
  concludes := fun other => absurd rfl other

/-- A pass stays with each of its steps but the last. -/
theorem advance_cases (index : Nat) (pass : LivePass) (rebinds : Rebinds) :
    ((rebinds.advance index pass).1 = none ∧
        (rebinds.advance index pass).2.alive.length = rebinds.alive.length) ∨
      ∃ result, pass.phase = .leaving result ∧
        rebinds.advance index pass = (some (.returned pass result), rebinds.leave index) := by
  rcases pass with ⟨registry, phase, trail, given, before⟩
  cases phase with
  | leaving result => exact Or.inr ⟨result, rfl, rfl⟩
  | loading store => exact Or.inl ⟨rfl, rfl⟩
  | _ => exact Or.inl ⟨rfl, List.length_set⟩

theorem Sound.tells {result : RebindReturn} (sound : Sound ⟨manager, [pass]⟩)
    (leaves : pass.phase = .leaving result) :
    Tells manager.config.typeResolution pass result manager.report := by
  rcases pass with ⟨registry, phase, trail, given, before⟩
  cases leaves
  cases sound with
  | busy taken fits shown =>
      -- Only two ways lead here: the pass has stored its report, or it has found no store.
      cases fits with
      | leaving concludes stored =>
          rw [stored]
          rcases concludes.ends with
            ⟨failure, rfl, isFailed, isText⟩ | ⟨outcome, rfl, isComplete⟩
          · exact tells_of_failed concludes isFailed isText rfl rfl
          · exact tells_of_completed concludes isComplete rfl rfl
      | withoutStore => exact tells_withoutStore rfl

/-- Every step keeps what is so, and does to the calls what it may. -/
theorem Sound.step (sound : Sound rebinds) (move : RebindMove) :
    Sound (rebinds.step move).2 ∧
      Lawful rebinds move (rebinds.step move).1 (rebinds.step move).2 := by
  cases move with
  | call registry =>
      cases sound with
      | quiet free =>
          rw [Rebinds.step, if_neg (by simp [free])]
          exact ⟨.busy rfl .begun nofun, .accepted rfl rfl rfl rfl⟩
      | busy taken fits shown =>
          rw [Rebinds.step, if_pos taken]
          exact ⟨.busy taken fits shown, .rejected (by simp)⟩
  | advance index =>
      rw [Rebinds.step]
      split
      · rename_i pass found
        obtain ⟨rfl, isAlone⟩ := sound.alone found
        rw [isAlone] at sound ⊢
        refine ⟨sound.advance, ?_⟩
        rcases advance_cases 0 pass ⟨rebinds.manager, [pass]⟩ with
          ⟨noEnd, same⟩ | ⟨result, leaves, isEnd⟩
        · rw [noEnd]
          exact .silent nofun same
        · rw [isEnd]
          exact .returned rfl rfl (sound.tells leaves)
      · exact ⟨sound, .silent nofun rfl⟩
  | load index loaded =>
      rw [Rebinds.step]
      split
      · rename_i pass waits
        obtain ⟨rfl, isAlone, isTrail, unreported⟩ := sound.waiting waits
        rw [isAlone] at sound ⊢
        exact ⟨sound.receive isTrail unreported loaded, .silent nofun rfl⟩
      · exact ⟨sound, .silent nofun rfl⟩
  | abandon index =>
      rw [Rebinds.step]
      split
      · rename_i pass waits
        obtain ⟨rfl, isAlone, isTrail, unreported⟩ := sound.waiting waits
        rw [isAlone]
        exact ⟨.quiet rfl, .abandoned rfl rfl isTrail unreported⟩
      · exact ⟨sound, .silent nofun rfl⟩
  | elsewhere change =>
      refine ⟨?_, .silent nofun rfl⟩
      cases sound with
      | quiet free => exact .quiet free
      | busy taken fits shown => exact .busy taken fits shown

theorem Sound.run (sound : Sound rebinds) (moves : List RebindMove) :
    Sound (rebinds.run moves).2 := by
  induction moves generalizing rebinds with
  | nil => exact sound
  | cons move later inductionHypothesis => exact inductionHypothesis (sound.step move).1

/-- However calls, steps, loads, abandonments and anything else fall between each other: at most one
pass is alive, the flag is set exactly while one is, and the pass goes through the states in their
order. The next step does to the calls what the state of their pass says. Where nothing falls
between its steps from there, a rebind is what the manager makes of it. -/
theorem orderly_lawful_performs (config : ManagerConfig) (registry : Registry)
    (moves : List RebindMove) :
    let reached := ((fresh config registry).run moves).2
    Orderly reached ∧ Performs reached ∧
      ∀ move, Lawful reached move (reached.step move).1 (reached.step move).2 := by
  have sound : Sound ((fresh config registry).run moves).2 := Sound.run (.quiet rfl) moves
  exact ⟨sound.orderly, sound.performs, fun move => (sound.step move).2⟩

/-- A call is rejected while another loads. That one is given up, and the next one completes. -/
example :
    let reached := (fresh default .empty).run
      ([.elsewhere (Schedule.mapPersister (Persister.setStore (some ⟨0⟩)))] ++ beginning none ++
        [.call none, .abandon 0] ++ beginning none ++ finishing ⟨.ok .empty, .start .empty⟩)
    reached.1.length = 3 ∧ reached.2.manager.lastState = .complete := by
  decide +kernel

end Rebinds

end GraphCheckpoint
