import GraphCheckpoint.Proofs.Rebind.Strictness
import GraphCheckpoint.Proofs.Session.FaithfulRebind

/-!
Contract: a strict rebind and a lenient one from the same store.

Owns:
- `Compared`, how the ends of the two rebinds stand to each other and to the loaded records;
- that a manager's two ways of rebuilding a loaded graph stand so;
- that the two rebinds of a session do, whatever its store holds and its registry has.

Does not own: which rebinds succeed.
-/

namespace GraphCheckpoint

variable {graph : Graph LiveValue} {registry : Registry}

/-- The manager, with another mind about types that are not registered. -/
def Manager.withResolution (resolution : TypeResolution) (manager : Manager) : Manager :=
  { manager with config := { manager.config with typeResolution := resolution } }

/-- A lenient rebind that ended so, and a strict one. -/
structure Compared {V : Type} (registry : Registry) (loaded : Graph V)
    (lenient : Outcome RebindOutcome) (lenientLast : Manager)
    (strict : Outcome RebindOutcome) (strictLast : Manager) : Prop where
  /-- A lenient rebind divides the loaded records between objects, which its report counts, and
  problems, which its report lists. -/
  completes : ∀ outcome, lenient = .ok outcome → ∃ report, lenientLast.report = some report ∧
    Divided registry loaded outcome report.problems ∧
    report.state = .complete ∧ report.entities = outcome.entities.length ∧
    report.locations = outcome.locations.length ∧ report.policies = outcome.policies.length ∧
    report.applications = outcome.applications.length
  /-- A strict rebind comes to what the lenient one comes to without a problem, and to nothing
  else. -/
  same : ∀ outcome, strict = .ok outcome ↔
    lenient = .ok outcome ∧ lenientLast.report.map RebindReport.problems = some []
  /-- And so do their reports. -/
  sameReport : ∀ outcome, strict = .ok outcome → strictLast.report = lenientLast.report
  /-- Where the lenient one lists problems, the strict one fails for the type of the first. -/
  stops : ∀ outcome first rest, lenient = .ok outcome →
    lenientLast.report.map RebindReport.problems = some (first :: rest) →
      strict = .error (.rebindFailed RebindState.hydrating.name (.typeNotFound first.typeName))

/-- Two rebinds that fail are compared. -/
theorem compared_of_errors {V : Type} {loaded : Graph V} {lenient strict : Outcome RebindOutcome}
    {failure other : Failure} (lenientFails : lenient = .error failure)
    (strictFails : strict = .error other) (lenientLast strictLast : Manager) :
    Compared registry loaded lenient lenientLast strict strictLast := by
  subst lenientFails strictFails
  exact ⟨nofun, fun _ => ⟨nofun, nofun⟩, nofun, nofun⟩

theorem Compared.imp {V W : Type} {loaded : Graph V} {other : Graph W}
    {lenient strict : Outcome RebindOutcome} {lenientLast strictLast : Manager}
    (compared : Compared registry loaded lenient lenientLast strict strictLast)
    (divides : ∀ outcome problems, Divided registry loaded outcome problems →
      Divided registry other outcome problems) :
    Compared registry other lenient lenientLast strict strictLast where
  completes := fun outcome isOk => (compared.completes outcome isOk).imp fun _ held =>
    ⟨held.1, divides _ _ held.2.1, held.2.2⟩
  same := compared.same
  sameReport := compared.sameReport
  stops := compared.stops

namespace Manager

section Rebuild

variable (manager : Manager) {pass middle after : PassState} {failure : Failure}
  {outcome : RebindOutcome} {resolution : TypeResolution}

theorem rebuild_of_unregistered (fails : Pass.registerAll graph pass = (.error failure, middle)) :
    manager.rebuild registry graph pass = manager.failed .loading failure middle := by
  have ran : (Pass.registerAll graph).run.run pass = (.error failure, middle) := fails
  simp only [rebuild, ran]

variable (registered : Pass.registerAll graph pass = (.ok (), middle))

include registered

theorem rebuild_of_error
    (fails : Pass.hydrate registry resolution graph middle = (.error failure, after)) :
    (manager.withResolution resolution).rebuild registry graph pass =
      (manager.withResolution resolution).failed .hydrating failure after := by
  have registeredRan : (Pass.registerAll graph).run.run pass = (.ok (), middle) := registered
  have ran : (Pass.hydrate registry resolution graph).run.run middle = (.error failure, after) :=
    fails
  have hasResolution : (((manager.withResolution resolution).enter .placeholdersBuilt).enter
      .hydrating).config.typeResolution = resolution := rfl
  simp only [rebuild, registeredRan, hasResolution, ran]
  rfl

theorem outcome_rebuild_of_error
    (fails : Pass.hydrate registry resolution graph middle = (.error failure, after)) :
    ((manager.withResolution resolution).rebuild registry graph pass).outcome =
      .error (.rebindFailed RebindState.hydrating.name failure) :=
  congrArg RebindResult.outcome (manager.rebuild_of_error registered fails)

theorem rebuild_of_ok
    (succeeds : Pass.hydrate registry resolution graph middle = (.ok outcome, after)) :
    (manager.withResolution resolution).rebuild registry graph pass =
      ⟨.ok outcome, after,
        (manager.withResolution resolution).completeRebind outcome after.problems⟩ := by
  have registeredRan : (Pass.registerAll graph).run.run pass = (.ok (), middle) := registered
  have ran : (Pass.hydrate registry resolution graph).run.run middle = (.ok outcome, after) :=
    succeeds
  have hasResolution : (((manager.withResolution resolution).enter .placeholdersBuilt).enter
      .hydrating).config.typeResolution = resolution := rfl
  simp only [rebuild, registeredRan, hasResolution, ran]
  rfl

end Rebuild

/-- The objects and problems of a lenient pass are told apart by the registered types. -/
theorem divided_of_hydrate (keyed : graph.Keyed) {middle after : PassState} {outcome : RebindOutcome}
    (noneYet : middle.problems = [])
    (ran : Pass.hydrate registry .lenient graph middle = (.ok outcome, after)) :
    Divided registry graph outcome after.problems := by
  rcases Pass.hydrate_divides registry .lenient graph middle with
    ⟨_, _, failed, -⟩ | ⟨_, _, again, holds, noted⟩
  · cases failed.symm.trans ran
  · cases again.symm.trans ran
    rw [noneYet, List.nil_append] at noted
    exact divided_of_holdsTypes keyed (fun kind => (holds kind).1) (fun kind => (holds kind).2) noted

/-- A manager that rebuilds a graph leniently stands so to the same one that does it strictly. -/
theorem rebuild_compared (manager : Manager) (keyed : graph.Keyed) {pass : PassState}
    (isFirst : pass.problems = []) {lenient strict : RebindResult}
    (lenientEnds : (manager.withResolution .lenient).rebuild registry graph pass = lenient)
    (strictEnds : (manager.withResolution .strict).rebuild registry graph pass = strict) :
    Compared registry graph lenient.outcome lenient.manager strict.outcome strict.manager ∧
      ∀ outcome, strict.outcome = .ok outcome → strict.pass = lenient.pass := by
  rcases registered : Pass.registerAll graph pass with ⟨failure | _, middle⟩
  · rw [rebuild_of_unregistered _ registered] at lenientEnds strictEnds
    subst lenientEnds strictEnds
    exact ⟨compared_of_errors rfl rfl _ _, nofun⟩
  have noneYet : middle.problems = [] := by
    have noted := Pass.notesNone_registerAll graph pass
    rw [registered] at noted
    exact noted.trans isFirst
  cases Pass.agree_hydrate registry graph middle with
  | fail lenientRan strictRan =>
      have lenientFails := manager.outcome_rebuild_of_error registered lenientRan
      have strictFails := manager.outcome_rebuild_of_error registered strictRan
      rw [lenientEnds] at lenientFails
      rw [strictEnds] at strictFails
      exact ⟨compared_of_errors lenientFails strictFails _ _, fun other isOk => by
        cases strictFails.symm.trans isOk⟩
  | @same outcome after lenientRan noted strictRan =>
      rw [manager.rebuild_of_ok registered lenientRan] at lenientEnds
      rw [manager.rebuild_of_ok registered strictRan] at strictEnds
      subst lenientEnds strictEnds
      rw [noneYet] at noted
      refine ⟨{
        completes := ?_
        same := ?_
        sameReport := fun _ _ => rfl
        stops := ?_ }, fun _ _ => rfl⟩
      · rintro _ ⟨⟩
        exact ⟨_, rfl, divided_of_hydrate keyed noneYet lenientRan, rfl, rfl, rfl, rfl, rfl⟩
      · exact fun other => ⟨fun isOk => ⟨isOk, congrArg some noted⟩, fun isOk => isOk.1⟩
      · intro other first rest _ lists
        cases noted.symm.trans (Option.some.inj lists)
  | @stop outcome after stopped first rest lenientRan noted strictRan =>
      have fails := manager.outcome_rebuild_of_error registered strictRan
      rw [manager.rebuild_of_ok registered lenientRan] at lenientEnds
      rw [strictEnds] at fails
      subst lenientEnds
      rw [noneYet, List.nil_append] at noted
      refine ⟨{
        completes := ?_
        same := ?_
        sameReport := ?_
        stops := ?_ }, ?_⟩
      · rintro _ ⟨⟩
        exact ⟨_, rfl, divided_of_hydrate keyed noneYet lenientRan, rfl, rfl, rfl, rfl, rfl⟩
      · refine fun other => ⟨fun isOk => ?_, fun isOk => ?_⟩
        · cases fails.symm.trans isOk
        · cases noted.symm.trans (Option.some.inj isOk.2)
      · exact fun other isOk => by cases fails.symm.trans isOk
      · intro other one others _ lists
        cases noted.symm.trans (Option.some.inj lists)
        exact fails
      · exact fun other isOk => by cases fails.symm.trans isOk

end Manager

/-! ## Sessions -/

namespace Session

open GraphCheckpoint.Store GraphCheckpoint.Encoding

variable {session : Session} {index : Nat} {manager : Manager} {settings : Settings}
  {stored : Delta Datum}

/-- The session, whose manager is of another mind about types that are not registered. -/
def withResolution (index : Nat) (resolution : TypeResolution) (session : Session) : Session :=
  session.modifyManager index (Manager.withResolution resolution)

theorem RebindsFrom.withResolution (rebinds : session.RebindsFrom index manager settings stored)
    (resolution : TypeResolution) :
    (session.withResolution index resolution).RebindsFrom index
      (manager.withResolution resolution) settings stored where
  inUse := rebinds.inUse
  isManager := getElem?_modifyManager rebinds.isManager _
  isFree := rebinds.isFree
  holds := rebinds.holds

/-- The two rebinds of a session load the same, and stand to each other as its manager's two ways of
rebuilding that do. -/
theorem RebindsFrom.runRebind_compared (rebinds : session.RebindsFrom index manager settings stored)
    (rebindFirst : Step (Outcome Nat)) :
    ∃ lenient lenientAfter lenientLast strict strictAfter strictLast,
      runRebind rebindFirst none (session.withResolution index .lenient) =
          (.ok (.finished lenient), lenientAfter) ∧
        lenientAfter.managers[index]? = some lenientLast ∧
      runRebind rebindFirst none (session.withResolution index .strict) =
          (.ok (.finished strict), strictAfter) ∧
        strictAfter.managers[index]? = some strictLast ∧
      Compared manager.registry (settings.readByIds (Graph.empty.apply stored)) lenient lenientLast
        strict strictLast ∧
      ∀ outcome, strict = .ok outcome → strictAfter.heap = lenientAfter.heap := by
  obtain ⟨lenientAfter, lenientRan, isLenient, lenientHeap⟩ :=
    (rebinds.withResolution .lenient).runRebind_loads rebindFirst rfl
  obtain ⟨strictAfter, strictRan, isStrict, strictHeap⟩ :=
    (rebinds.withResolution .strict).runRebind_loads rebindFirst rfl
  refine ⟨_, lenientAfter, _, _, strictAfter, _, lenientRan, isLenient, strictRan, isStrict, ?_⟩
  rw [lenientHeap, strictHeap]
  have lenientStart : (session.withResolution index .lenient).heap = session.heap := rfl
  have strictStart : (session.withResolution index .strict).heap = session.heap := rfl
  rw [lenientStart, strictStart]
  rcases settings.resolveRecords_ends stored session.heap with
    ⟨failure, -, loaded⟩ | ⟨graph, arena, loaded, retrieved⟩ <;> rw [loaded]
  · exact ⟨compared_of_errors rfl rfl _ _, nofun⟩
  · obtain ⟨compared, samePass⟩ := @Manager.rebuild_compared graph manager.registry (begun manager)
      retrieved.keyed ⟨arena, [], [], []⟩ rfl _ _ rfl rfl
    refine ⟨?_, fun outcome isOk => ?_⟩
    · rw [← retrieved.byIds_eq]
      exact compared.imp fun outcome problems divided => divided.converted fun _ => rfl
    · exact congrArg (fun pass => pass.arena.heap) (samePass outcome isOk)

theorem Dropped.object?_eq_none {before after : Session} (dropped : before.Dropped after)
    {address : Address} (isNone : before.heap.object? address = none) :
    after.heap.object? address = none := by
  cases isObject : after.heap.object? address with
  | none => rfl
  | some object => cases isNone.symm.trans (dropped.objects address object isObject)

/-- A rebind that goes on where a type is not registered, and one that stops there, from the same
session, whatever its store holds and whatever its manager has registered. Where the lenient one
succeeds, the loaded ids are divided between the objects, which its report counts, and the problems,
which are those of types that are not registered, in the order of rebinding. The strict one succeeds
only where the lenient one does with no problem, and with the same objects; and where the lenient
one lists problems, it fails for the type of the first. -/
theorem perform_rebind_compared (session : Session) (index : Nat) (manager : Manager)
    (settings : Settings) (stored : Delta Datum)
    (rebinds : session.RebindsFrom index manager settings stored) :
    ∃ lenient lenientAfter lenientLast strict strictAfter strictLast,
      perform rebind (session.withResolution index .lenient) =
          (.ok (.finished lenient), lenientAfter) ∧
        lenientAfter.managers[index]? = some lenientLast ∧
      perform rebind (session.withResolution index .strict) =
          (.ok (.finished strict), strictAfter) ∧
        strictAfter.managers[index]? = some strictLast ∧
      Compared manager.registry (settings.readByIds (Graph.empty.apply stored)) lenient lenientLast
        strict strictLast ∧
      ∀ outcome, strict = .ok outcome →
        ∀ kind id address, (outcome.objects kind).get? id = some address →
          strictAfter.heap.object? address = lenientAfter.heap.object? address := by
  let forgotten : Session := { session with outcome := none, remembered := [] }
  have stillRebinds : forgotten.RebindsFrom index manager settings stored :=
    ⟨rebinds.inUse, rebinds.isManager, rebinds.isFree, rebinds.holds⟩
  obtain ⟨lenient, lenientRebound, lenientLast, strict, strictRebound, strictLast, lenientRan,
    isLenient, strictRan, isStrict, compared, sameHeap⟩ :=
      stillRebinds.runRebind_compared nestedRebind
  obtain ⟨lenientAfter, lenientPerformed, lenientDropped, lenientStays⟩ :=
    @perform_rebind_ends (session.withResolution index .lenient) _ _ lenientRan
  obtain ⟨strictAfter, strictPerformed, strictDropped, strictStays⟩ :=
    @perform_rebind_ends (session.withResolution index .strict) _ _ strictRan
  refine ⟨lenient, lenientAfter, lenientLast, strict, strictAfter, strictLast, lenientPerformed,
    lenientDropped.managers ▸ isLenient, strictPerformed, strictDropped.managers ▸ isStrict,
    compared, ?_⟩
  rintro outcome rfl kind id address isBuilt
  obtain ⟨rfl, -⟩ := (compared.same outcome).mp rfl
  have same := sameHeap outcome rfl
  -- Neither sweep drops a rebuilt object.
  cases isObject : lenientRebound.heap.object? address with
  | none =>
      rw [lenientDropped.object?_eq_none isObject, strictDropped.object?_eq_none (same ▸ isObject)]
  | some object =>
      rw [lenientStays outcome rfl kind id address object isBuilt isObject,
        strictStays outcome rfl kind id address object isBuilt (same ▸ isObject)]

/-! ## A type that is registered for another kind -/

section Sample

/-- An entity with a child of an unknown type, at a place whose type is that of the entity. -/
private def mixedRoot : EntityMemento LiveValue :=
  { EntityMemento.blank "root" "App" with children := ["leaf"], locations := ["home"] }

private def mixedDelta : Delta LiveValue :=
  ⟨[mixedRoot, .blank "leaf" "Part"], [.blank "home" "App"], [], [], [], []⟩

private def mixedStore : MemoryStore :=
  (((MemoryStore.make Settings.default).delta .empty mixedDelta).toOption).getD default

private def mixedStored : Delta Datum := (mixedStore.contents.toOption).getD .empty

private def mixedManager : Manager :=
  (Manager.make ⟨true, 1000, .lenient, default⟩
    (Registry.empty.register .entity "App" .basic)).mapPersister (Persister.setStore (some ⟨0⟩))

private def mixedSession : Session :=
  { Session.empty with
    managers := #[mixedManager], manager := some 0, stores := #[.memory mixedStore] }

private def mixedProblems : List RebindProblem :=
  [⟨.location, "home", "App", (Failure.typeNotFound "App").message⟩,
    ⟨.entity, "leaf", "Part", (Failure.typeNotFound "Part").message⟩]

private def listsProblems (problems : List RebindProblem) :
    Except Refusal RebindEnd × Session → Bool
  | (.ok (.finished (.ok outcome)), after) =>
      outcome.entities.keys == ["root"] &&
        (after.managers[0]?.bind Manager.report).map RebindReport.problems == some problems
  | _ => false

/-- What the sample comes to, in one computation, since every part of it needs the records. -/
private theorem computed_mixed :
    mixedStore.running = true ∧ mixedStore.contents.isOk = true ∧
      listsProblems mixedProblems (runRebind nestedRebind none
        ({ mixedSession with outcome := none, remembered := [] }.withResolution 0 .lenient)) =
          true := by
  decide +kernel

private theorem of_listsProblems {problems : List RebindProblem}
    {result : Except Refusal RebindEnd × Session} (lists : listsProblems problems result = true) :
    ∃ outcome after, result = (.ok (.finished (.ok outcome)), after) ∧
      outcome.entities.keys = ["root"] ∧
      ∀ last, after.managers[0]? = some last →
        last.report.map RebindReport.problems = some problems := by
  unfold listsProblems at lists
  split at lists
  · rename_i outcome after
    rw [Bool.and_eq_true, beq_iff_eq, beq_iff_eq] at lists
    refine ⟨outcome, after, rfl, lists.1, fun last isLast => ?_⟩
    have listed := lists.2
    rw [isLast] at listed
    exact listed
  · cases lists

private theorem rebindsFrom_mixed :
    mixedSession.RebindsFrom 0 mixedManager mixedStore.settings mixedStored where
  inUse := rfl
  isManager := rfl
  isFree := rfl
  holds := by
    obtain ⟨isRunning, isRead, -⟩ := computed_mixed
    exact ⟨⟨0⟩, .memory mixedStore, rfl, rfl, .memory isRunning (outcome_eq_ok_getD isRead .empty)⟩

/-- The lenient rebind rebuilds the entity alone, and lists the location first; for that one the
strict rebind fails. -/
theorem perform_rebind_compared_mixed :
    mixedSession.RebindsFrom 0 mixedManager mixedStore.settings mixedStored ∧
      ∃ outcome lenientAfter lenientLast strictAfter,
        perform rebind (mixedSession.withResolution 0 .lenient) =
            (.ok (.finished (.ok outcome)), lenientAfter) ∧
          lenientAfter.managers[0]? = some lenientLast ∧
          outcome.entities.keys = ["root"] ∧
          lenientLast.report.map RebindReport.problems = some mixedProblems ∧
          Divided mixedManager.registry
            (mixedStore.settings.readByIds (Graph.empty.apply mixedStored)) outcome mixedProblems ∧
          perform rebind (mixedSession.withResolution 0 .strict) =
            (.ok (.finished (.error
              (.rebindFailed RebindState.hydrating.name (.typeNotFound "App")))), strictAfter) := by
  obtain ⟨-, -, lists⟩ := computed_mixed
  obtain ⟨outcome, rebound, ran, hasKeys, listed⟩ := of_listsProblems lists
  obtain ⟨swept, again, dropped, -⟩ :=
    @perform_rebind_ends (mixedSession.withResolution 0 .lenient) _ _ ran
  obtain ⟨lenient, lenientAfter, lenientLast, strict, strictAfter, strictLast, lenientRan,
    isLenient, strictRan, -, compared, -⟩ := perform_rebind_compared mixedSession 0 mixedManager
      mixedStore.settings mixedStored rebindsFrom_mixed
  cases again.symm.trans lenientRan
  have problems := listed lenientLast (dropped.managers ▸ isLenient)
  obtain rfl := compared.stops outcome _ _ rfl problems
  obtain ⟨report, isReport, divided, -⟩ := compared.completes outcome rfl
  have sameProblems : report.problems = mixedProblems := by
    rw [isReport] at problems
    exact Option.some.inj problems
  exact ⟨rebindsFrom_mixed, outcome, swept, lenientLast, strictAfter, lenientRan, isLenient,
    hasKeys, problems, sameProblems ▸ divided, strictRan⟩

end Sample

end Session

end GraphCheckpoint
