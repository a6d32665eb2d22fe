import GraphCheckpoint.Proofs.Rebind.Declaring
import GraphCheckpoint.Proofs.Session.FaithfulRebind

/-!
Contract: the declared types of the references that a completed rebind hands out.

Owns:
- `Heap.HandsOut`, which types the references declare that are reached from a rebuilt graph, and of
  which types the objects are to which they lead;
- that a rebind fails where stored references disagree, completes where records fit together, and hands
  out such references if it completes;
- that these references declare the right types where the stored ones agree with the records.

Does not own: what else the rebuilt objects are.

Registration compares a record with the references to its id by its kind alone, and a reference is
compared with the first one to its id alone. So a rebind completes although references declare another
type than the record of their id has, if they all do, or if the first one declares none. It then hands
out references of that type, or of none, that lead to an object of the type of the record.
-/

namespace GraphCheckpoint

open GraphCheckpoint.Encoding

section Heap

variable {mentions records : List Mention} {heap : Heap} {base : Nat} {outcome : RebindOutcome}

/-- The rebuilt objects are as their records; every pointer that is reached from them is as the earliest
mention of its id, and the object to which it leads is as the record of the id. -/
structure Heap.HandsOut (mentions records : List Mention) (heap : Heap) (outcome : RebindOutcome) :
    Prop where
  rebuilt : ∀ kind id address, (outcome.objects kind).get? id = some address →
    ∃ object, heap.object? address = some object ∧ object.key = ⟨kind, id⟩ ∧
      ⟨kind, id, some object.typeName⟩ ∈ records
  pointers : ∀ address object, heap.Reaches outcome address →
    heap.object? address = some object → ∀ pointer ∈ heap.pointers object,
      Mention.earliest? mentions pointer.1.id = some pointer.1 ∧
      ∀ target other, pointer.2 = some target → heap.object? target = some other →
        other.key = ⟨pointer.1.kind, pointer.1.id⟩ ∧
        ⟨pointer.1.kind, pointer.1.id, some other.typeName⟩ ∈ records

/-- Every pointer that is reached from a rebuilt graph declares the type of the object to which it
leads, if it declares any. -/
def Heap.TypedRight (heap : Heap) (outcome : RebindOutcome) : Prop :=
  ∀ address object, heap.Reaches outcome address → heap.object? address = some object →
    ∀ pointer ∈ heap.pointers object, ∀ declared, pointer.1.declared = some declared →
      ∀ target other, pointer.2 = some target → heap.object? target = some other →
        declared = other.typeName

theorem Heap.Declares.handsOut {graph : Graph LiveValue}
    (declares : heap.Declares mentions graph.mentions base)
    (made : ∀ kind id address, (outcome.objects kind).get? id = some address →
      MadeFor graph base heap kind id address) : heap.HandsOut mentions graph.mentions outcome where
  rebuilt := fun kind id address isBuilt => (made kind id address isBuilt).made
  pointers := by
    intro address object isReached isObject pointer isPointer
    have isLater := declares.le_of_reaches (fun kind id address isBuilt =>
      (made kind id address isBuilt).isNew) isReached
    obtain ⟨isEarliest, leads⟩ := declares address object isLater isObject pointer isPointer
    exact ⟨isEarliest, fun target other isTarget isOther => (leads target isTarget).2 other isOther⟩

/-- What is handed out stays so where other objects are dropped. -/
theorem Heap.HandsOut.kept {after : Heap} (handsOut : heap.HandsOut mentions records outcome)
    (sameTargets : ∀ handle, after.target? handle = heap.target? handle)
    (noneMade : ∀ address object, after.object? address = some object →
      heap.object? address = some object)
    (stays : ∀ kind id address object, (outcome.objects kind).get? id = some address →
      heap.object? address = some object → after.object? address = some object) :
    after.HandsOut mentions records outcome where
  rebuilt := fun kind id address isBuilt => (handsOut.rebuilt kind id address isBuilt).imp
    fun object held => ⟨stays kind id address object isBuilt held.1, held.2⟩
  pointers := by
    intro address object isReached isObject pointer isPointer
    obtain ⟨old, isOld, sameMention, led⟩ := pointer_of_dropped sameTargets noneMade isPointer
    obtain ⟨isEarliest, isRecorded⟩ := handsOut.pointers address object
      (isReached.of_dropped sameTargets noneMade) (noneMade _ _ isObject) old isOld
    rw [sameMention] at isEarliest isRecorded
    exact ⟨isEarliest, fun target other leads isOther =>
      isRecorded target other (led target leads) (noneMade _ _ isOther)⟩

/-- The declared types are right where the records agree with the references to them. -/
theorem Heap.HandsOut.typedRight (handsOut : heap.HandsOut (mentions ++ records) records outcome)
    (agrees : Mention.disagreement? (mentions ++ records) = none) : heap.TypedRight outcome := by
  intro address object isReached isObject pointer isPointer declared isDeclared target other leads
    isOther
  obtain ⟨isEarliest, isRecorded⟩ :=
    handsOut.pointers address object isReached isObject pointer isPointer
  obtain ⟨-, isRecord⟩ := isRecorded target other leads isOther
  have agree := Mention.disagreement?_eq_none_iff.mp agrees _
    (List.mem_append_right mentions isRecord) _ isEarliest
  exact ((Mention.clash?_eq_none_iff.mp agree).2 _ rfl declared isDeclared).symm

end Heap

/-- The records of a store as mentions of their ids, as they are read. -/
def Encoding.Settings.recorded (settings : Settings) (stored : Delta Datum) : List Mention :=
  (settings.readByIds (Graph.empty.apply stored)).mentions

/-- What becomes of a rebind, by the types that stored references declare and those of the records. -/
structure EndsTyped (manager : Manager) (settings : Settings) (stored : Delta Datum)
    (ended : Outcome RebindOutcome) (last : Manager) (heap : Heap) : Prop where
  /-- The references to some id disagree. -/
  refused : ∀ failure, Mention.disagreement? (settings.mentions stored) = some failure →
    ended = .error (.rebindFailed RebindState.loading.name failure) ∧ last.state = .failed
  /-- Otherwise no type is refused, but for a record of another kind. -/
  onlyKinds : Mention.disagreement? (settings.mentions stored) = none →
    ∀ failure, ended = .error failure → ∃ stage cause, failure = .rebindFailed stage cause ∧
      cause.OnlyKindsDiffer (settings.mentions stored ++ settings.recorded stored)
  /-- Fitting records are rebuilt, whatever types the references to them declare. -/
  rebuilt : Mention.disagreement? (settings.mentions stored) = none → Fitting stored →
    (manager.config.typeResolution = .lenient ∨
      ∀ kind, ∀ entry ∈ (settings.readByIds (Graph.empty.apply stored)).records kind,
        manager.registry.contains kind entry.2.typeName = true) →
    ∃ outcome, ended = .ok outcome
  completes : last.state = .complete ↔ ∃ outcome, ended = .ok outcome
  handsOut : ∀ outcome, ended = .ok outcome →
    heap.HandsOut (settings.mentions stored ++ settings.recorded stored) (settings.recorded stored)
      outcome

namespace Session

open GraphCheckpoint.Store

variable {session : Session} {index : Nat} {manager : Manager} {settings : Settings}
  {stored : Delta Datum}

/-- A rebind whose load fails, since references to an id disagree. -/
theorem endsTyped_of_disagreement {failure : Failure} (pass : PassState) (heap : Heap)
    (disagrees : Mention.disagreement? (settings.mentions stored) = some failure) :
    EndsTyped manager settings stored ((begun manager).failed .loading failure pass).outcome
      ((begun manager).failed .loading failure pass).manager heap where
  refused := by
    intro other isOther
    cases disagrees.symm.trans isOther
    exact ⟨rfl, rfl⟩
  onlyKinds := fun agrees => by cases disagrees.symm.trans agrees
  rebuilt := fun agrees => by cases disagrees.symm.trans agrees
  completes := ⟨nofun, nofun⟩
  handsOut := nofun

/-- A rebind whose load succeeds. -/
theorem endsTyped_of_retrieved {graph : Graph LiveValue} {arena : Arena} {heap : Heap}
    (retrieved : Retrieved settings stored heap graph arena) (basic : manager.registry.Basic)
    {result : Manager.RebindResult}
    (ends : (begun manager).rebuild manager.registry graph ⟨arena, [], [], []⟩ = result) :
    EndsTyped manager settings stored result.outcome result.manager result.pass.arena.heap := by
  have rebuilding : Ends _ (⟨arena, [], [], []⟩ : PassState) _ _ :=
    Pass.rebuilding_declares (begun manager).config.typeResolution basic retrieved.recalls
      retrieved.tracks.toPristine fun kind entry member reference inRecord =>
        retrieved.knows (Graph.mem_valueReferences.mpr ⟨kind, entry, member, inRecord⟩)
  have sameRecords : graph.mentions = settings.recorded stored := retrieved.mentions_eq
  have told := (begun manager).rebuild_ends_of rebuilding
  rw [ends] at told
  refine {
    refused := fun failure disagrees => by cases retrieved.agrees.symm.trans disagrees
    onlyKinds := fun _ failure isFailure => ?_
    rebuilt := fun _ fitting registered => ?_
    completes := ?_
    handsOut := fun outcome isOutcome => ?_ }
  · rcases told with ⟨stage, cause, failed, -, onlyKinds⟩ | ⟨outcome, succeeded, -⟩
    · cases failed.symm.trans isFailure
      exact ⟨stage, cause, rfl, sameRecords ▸ onlyKinds⟩
    · cases succeeded.symm.trans isFailure
  · have accepts : ∀ kind, Pass.Accepts manager.registry (begun manager).config.typeResolution
        graph kind := retrieved.accepts registered
    obtain ⟨outcome, pass, completed, -⟩ :=
      Manager.rebuild_run (fitting.loaded retrieved) basic accepts
    exact ⟨outcome, by rw [← ends, completed]⟩
  · rcases told with ⟨stage, cause, failed, isFailed, -⟩ | ⟨outcome, succeeded, isComplete, -⟩
    · rw [failed, isFailed]
      exact ⟨nofun, nofun⟩
    · exact iff_of_true isComplete ⟨outcome, succeeded⟩
  · rcases told with ⟨stage, cause, failed, -⟩ | ⟨other, succeeded, -, declares, made⟩
    · cases failed.symm.trans isOutcome
    · cases succeeded.symm.trans isOutcome
      exact sameRecords ▸ declares.handsOut made

theorem RebindsFrom.runRebind_typed (rebinds : session.RebindsFrom index manager settings stored)
    (basic : manager.registry.Basic) (rebindFirst : Step (Outcome Nat)) :
    ∃ ended after last, runRebind rebindFirst none session = (.ok (.finished ended), after) ∧
      after.managers[index]? = some last ∧
      EndsTyped manager settings stored ended last after.heap := by
  obtain ⟨result, after, ran, isLast, sameHeap, ends⟩ := rebinds.runRebind_ends rebindFirst
  refine ⟨_, after, _, ran, isLast, ?_⟩
  rcases ends with ⟨failure, disagrees, rfl⟩ | ⟨graph, arena, retrieved, ends⟩
  · exact endsTyped_of_disagreement _ _ disagrees
  · exact sameHeap ▸ endsTyped_of_retrieved retrieved basic ends.symm

/-- A rebind fails where the stored references to an id disagree, and else refuses no type, but for a
record of another kind. If it completes, then every reference that is reached from the rebuilt objects
declares what the earliest reference to its id declares, and leads to an object of the type of the
record. So the declared types are right if the references agree with the records. -/
theorem perform_rebind_declares (session : Session) (index : Nat) (manager : Manager)
    (settings : Settings) (stored : Delta Datum)
    (rebinds : session.RebindsFrom index manager settings stored)
    (basic : manager.registry.Basic) :
    ∃ ended after last, perform rebind session = (.ok (.finished ended), after) ∧
      after.managers[index]? = some last ∧
      EndsTyped manager settings stored ended last after.heap ∧
      (Mention.disagreement? (settings.mentions stored ++ settings.recorded stored) = none →
        ∀ outcome, ended = .ok outcome → after.heap.TypedRight outcome) := by
  let forgotten : Session := { session with outcome := none, remembered := [] }
  have stillRebinds : forgotten.RebindsFrom index manager settings stored :=
    ⟨rebinds.inUse, rebinds.isManager, rebinds.isFree, rebinds.holds⟩
  obtain ⟨ended, rebound, last, ran, isLast, ends⟩ :=
    stillRebinds.runRebind_typed basic nestedRebind
  obtain ⟨after, performed, dropped, stays⟩ := perform_rebind_ends ran
  have handsOut : ∀ outcome, ended = .ok outcome → after.heap.HandsOut
      (settings.mentions stored ++ settings.recorded stored) (settings.recorded stored) outcome :=
    fun outcome isOutcome => (ends.handsOut outcome isOutcome).kept dropped.targets dropped.objects
      (stays outcome (congrArg RebindEnd.finished isOutcome))
  refine ⟨ended, after, last, performed, dropped.managers ▸ isLast, ?_, ?_⟩
  · exact { ends with handsOut := handsOut }
  · exact fun agrees outcome isOutcome => (handsOut outcome isOutcome).typedRight agrees

/-! ## A reference of another type than the record of its id -/

section Sample

private def typedSettings : Settings := Settings.default

/-- An entity with a reference to another one, which has another type than the reference says. -/
private def typedDelta : Delta LiveValue :=
  ⟨[⟨(Common.blank "a" "T").withConfig "k0" (.entity ⟨0, "b", some "X"⟩), none, [], [], [], [], none⟩,
    .blank "b" "T"], [], [], [], [], []⟩

private def typedStore : MemoryStore :=
  (((MemoryStore.make typedSettings).delta .empty typedDelta).toOption).getD default

private def typedStored : Delta Datum := (typedStore.contents.toOption).getD .empty

private def typedManager : Manager :=
  (Manager.make ⟨true, 1000, .strict, default⟩
    (Registry.empty.register .entity "T" .basic)).mapPersister (Persister.setStore (some ⟨0⟩))

private def typedSession : Session :=
  { Session.empty with
    managers := #[typedManager], manager := some 0, stores := #[.memory typedStore] }

/-- A reference of the one entity declares a type, and leads to the other entity, of another type. -/
private def isMistyped : Except Refusal RebindEnd × Session → Bool
  | (.ok (.finished (.ok outcome)), after) =>
      (outcome.entities.get? "a").any fun address =>
        (after.heap.object? address).any fun object =>
          object.handles.any fun reference =>
            reference.1 == .entity && reference.2.id == "b" && reference.2.declaredType == some "X" &&
              (outcome.entities.get? "b").any fun target =>
                after.heap.target? reference.2 == some target &&
                  (after.heap.object? target).any fun other => other.typeName == "T"
  | _ => false

/-- What the sample comes to, in one computation, since every part of it needs the records. -/
private theorem computed_mistyped :
    typedStore.running = true ∧ typedStore.contents.isOk = true ∧ Fitting typedStored ∧
      isMistyped (runRebind nestedRebind none
        { typedSession with outcome := none, remembered := [] }) = true := by
  decide +kernel

private theorem of_isMistyped {result : Except Refusal RebindEnd × Session}
    (mistyped : isMistyped result = true) :
    ∃ outcome after, result = (.ok (.finished (.ok outcome)), after) ∧
      ∃ address object, outcome.entities.get? "a" = some address ∧
        after.heap.object? address = some object ∧
      ∃ target other, outcome.entities.get? "b" = some target ∧
        after.heap.object? target = some other ∧ other.typeName = "T" ∧
      ∃ reference ∈ object.handles, reference.2.declaredType = some "X" ∧
        after.heap.target? reference.2 = some target := by
  unfold isMistyped at mistyped
  split at mistyped
  · rename_i outcome after
    simp only [Option.any_eq_true, List.any_eq_true, Bool.and_eq_true, beq_iff_eq] at mistyped
    obtain ⟨address, isFirst, object, isObject, reference, isReference, ⟨⟨-, -⟩, declares⟩, target,
      isSecond, leads, other, isOther, isTyped⟩ := mistyped
    exact ⟨outcome, after, rfl, address, object, isFirst, isObject, target, other, isSecond, isOther,
      isTyped, reference, isReference, declares, leads⟩
  · cases mistyped

private theorem rebindsFrom_mistyped :
    typedSession.RebindsFrom 0 typedManager typedStore.settings typedStored where
  inUse := rfl
  isManager := rfl
  isFree := rfl
  holds := by
    obtain ⟨isRunning, isRead, -⟩ := computed_mistyped
    exact ⟨⟨0⟩, .memory typedStore, rfl, rfl, .memory isRunning (outcome_eq_ok_getD isRead .empty)⟩

private theorem basic_mistyped : typedManager.registry.Basic :=
  Registry.basic_of_entries (by decide +kernel)

/-- The rebind completes, although the reference declares another type than the record has, and the
rebuilt reference is of the wrong type. -/
theorem perform_rebind_declares_mistyped :
    typedSession.RebindsFrom 0 typedManager typedStore.settings typedStored ∧
      typedManager.registry.Basic ∧ Fitting typedStored ∧
      ∃ outcome after last, perform rebind typedSession = (.ok (.finished (.ok outcome)), after) ∧
        after.managers[0]? = some last ∧ last.state = .complete ∧
        after.heap.HandsOut (typedStore.settings.mentions typedStored ++
          typedStore.settings.recorded typedStored) (typedStore.settings.recorded typedStored) outcome ∧
        ¬ after.heap.TypedRight outcome := by
  obtain ⟨-, -, fitting, mistyped⟩ := computed_mistyped
  obtain ⟨outcome, rebound, ran, address, object, isFirst, isObject, target, other, isSecond, isOther,
    isTyped, reference, isReference, declares, leads⟩ := of_isMistyped mistyped
  obtain ⟨swept, again, dropped, stays⟩ := perform_rebind_ends ran
  obtain ⟨ended, after, last, performed, isLast, ends, -⟩ := perform_rebind_declares typedSession 0
    typedManager typedStore.settings typedStored rebindsFrom_mistyped basic_mistyped
  cases again.symm.trans performed
  refine ⟨rebindsFrom_mistyped, basic_mistyped, fitting, outcome, swept, last, performed, isLast,
    ends.completes.mpr ⟨outcome, rfl⟩, ends.handsOut outcome rfl, fun typedRight => ?_⟩
  have isBuilt : (outcome.objects .entity).get? "a" = some address := isFirst
  -- The sweep has dropped neither of the two entities, and references lead where they led.
  have sameType := typedRight address object (.rebuilt isBuilt)
    (stays outcome rfl .entity "a" address object isFirst isObject) _
    (List.mem_append_left _ (List.mem_map_of_mem isReference)) "X" declares target other
    ((dropped.targets reference.2).trans leads)
    (stays outcome rfl .entity "b" target other isSecond isOther)
  rw [isTyped] at sameType
  exact absurd sameType (by decide)

end Sample

end Session

end GraphCheckpoint
