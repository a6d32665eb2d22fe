import GraphCheckpoint.Proofs.Persist.Turns

/-!
Contract: what becomes of a window whose write fails.

Owns:
- what is noted while a write is under way;
- that a failed write is reported and counted, and that its window is not noted again;
- that what it held reaches a store only after another report.

Does not own: which writes fail.

The window is moved into the write, and nothing else holds it. What is noted afterwards has been
reported since it was taken.
-/

namespace GraphCheckpoint

/-- An object under the key reports, or is gathered for a report. -/
def Instant.Reports (naming : Address → ObjectKey) (key : ObjectKey) (instant : Instant) : Prop :=
  ∃ kind address gathered, instant.moment = .report kind address gathered ∧
    ∃ place ∈ address :: gathered, naming place = key

/-- A report that is not about the key leaves nothing under it. -/
theorem Instant.lacks_of_unreported {naming : Address → ObjectKey} {key : ObjectKey}
    {instant : Instant} (named : instant.heap.NamedBy naming)
    (unreported : ¬ instant.Reports naming key) (kind : Report) (address : Address)
    (gathered : List Address) (isReport : instant.moment = .report kind address gathered)
    (window : Window) (has : window.Lacks key ∧ window.Named naming) :
    (kind.apply instant.heap address gathered window).Lacks key ∧
      (kind.apply instant.heap address gathered window).Named naming := by
  refine ⟨has.1.apply named (fun place member isKey => ?_) kind, has.2.apply named kind⟩
  exact unreported ⟨kind, address, gathered, isReport, place, member, isKey⟩

/-- What listening from nothing makes of some instants. -/
def heard (instants : List Instant) : Listener :=
  instants.foldl (fun listener instant => instant.hear listener) .fresh

theorem heard_append (instants : List Instant) (instant : Instant) :
    heard (instants ++ [instant]) = instant.hear (heard instants) := by
  rw [heard, List.foldl_append]
  rfl

/-- What an empty window has and reports keep, a window has that was made by listening. -/
theorem heard_keeps {property : Window → Prop} (empty : property .empty) {instants : List Instant}
    (reports : ∀ instant ∈ instants, ∀ kind address gathered,
      instant.moment = .report kind address gathered →
        ∀ window, property window → property (kind.apply instant.heap address gathered window)) :
    property (heard instants).window := by
  induction instants using List.reverseRecOn with
  | nil => exact empty
  | append_singleton earlier instant inductionHypothesis =>
      rw [heard_append]
      apply Instant.hear_keeps empty (reports instant (by simp))
      exact inductionHypothesis fun other member => reports other (by simp [member])

namespace Schedule

variable {instants later : List Instant} {call : PendingWrite}

/-! ## While a write is under way -/

/-- The call under way was made at an instant, and the listener has begun anew then. -/
theorem exists_handed (isWriting : (fresh.run instants).writing = some call) :
    ∃ before instant meanwhile, instants = before ++ instant :: meanwhile ∧
      .handed call ∈ (fresh.run before).shows instant ∧
        (fresh.run instants).persister.listener = heard meanwhile := by
  induction instants using List.reverseRecOn with
  | nil => cases isWriting
  | append_singleton earlier instant inductionHypothesis =>
      have beat := beat_pass instant (fresh.run earlier)
      rw [run_append] at isWriting ⊢
      generalize isShown : (fresh.run earlier).shows instant = events at beat
      generalize isNext : (fresh.run earlier).pass instant = next at beat
      have isRun : (fresh.run earlier).run [instant] = next := isNext
      rw [isRun] at isWriting ⊢
      -- Only a write begins anew; all else goes on with the call that is under way.
      have goesOn : (fresh.run earlier).writing = some call →
          next.persister.listener = instant.hear (fresh.run earlier).persister.listener →
            ∃ before instant' meanwhile, earlier ++ [instant] = before ++ instant' :: meanwhile ∧
              .handed call ∈ (fresh.run before).shows instant' ∧
                next.persister.listener = heard meanwhile := by
        intro still hears
        obtain ⟨before, first, meanwhile, isEarlier, isHanded, isHeard⟩ := inductionHypothesis still
        refine ⟨before, first, meanwhile ++ [instant], ?_, isHanded, ?_⟩
        · rw [isEarlier]
          simp
        · rw [hears, isHeard, heard_append]
      cases beat with
      | quiet hears writes writeFailures writing ended =>
          exact goesOn (writing.symm.trans isWriting) hears
      | skip turn cycle waiting inactive => exact goesOn isWriting (turn.hear _).symm
      | nothingNew turn cycle waiting idle active isStore nothing =>
          cases idle.symm.trans isWriting
      | write turn cycle waiting failures idle active isStore noted =>
          refine ⟨earlier, instant, [], rfl, ?_, ?_⟩
          · rw [isShown]
            cases isWriting
            simp
          · have running : (fresh.run earlier).persister.listener.stopped = false := by
              simp only [Persister.isActive, Bool.and_eq_true, Bool.not_eq_true'] at active
              exact active.1.2
            show Listener.mk .empty (fresh.run earlier).persister.listener.stopped = .fresh
            rw [running]
            rfl
      | finish isFinish isPending => cases isWriting

/-! ## A failed write -/

/-- What a failed write leaves, by the instants since its window was taken: a result and its counts,
and what has been reported since; what has not been reported is written no more. -/
structure Dropped (call : PendingWrite) (failure : Failure) (meanwhile : List Instant)
    (before after : Schedule) : Prop where
  ended : after.ended = before.ended ++ [⟨call.cycle, .error failure⟩]
  writes : after.persister.writes = before.persister.writes + 1
  writeFailures : after.persister.writeFailures = before.persister.writeFailures + 1
  lastError : after.persister.lastError = some failure.message
  noted : after.persister.listener = heard meanwhile
  unwritten : ∀ (naming : Address → ObjectKey) (key : ObjectKey) (later : List Instant),
    (∀ instant ∈ meanwhile ++ later, instant.heap.NamedBy naming ∧ ¬ instant.Reports naming key) →
      ∀ next, .handed next ∈ after.log later → ¬ next.delta.Touches key.kind key.id

/-- What nobody reports does not reach a store. -/
theorem Beats.not_touches {naming : Address → ObjectKey} {key : ObjectKey}
    {before after : Schedule} {events : List CycleEvent} (beats : Beats later before events after)
    (lacks : before.persister.listener.window.Lacks key)
    (isNamed : before.persister.listener.window.Named naming)
    (unreported : ∀ instant ∈ later, instant.heap.NamedBy naming ∧ ¬ instant.Reports naming key)
    (member : .handed call ∈ events) : ¬ call.delta.Touches key.kind key.id := by
  obtain ⟨taking, isTaken, leads⟩ := beats.handed member
  have windows := beats.windows ⟨Window.lacks_empty key, Window.named_empty⟩
    (fun instant isLater =>
      Instant.lacks_of_unreported (unreported instant isLater).1 (unreported instant isLater).2)
    ⟨lacks, isNamed⟩
  obtain ⟨has, instant, isLater, isHeap⟩ := windows.2 taking isTaken
  rw [Taking.delta_of_call? leads]
  exact has.1.not_touches has.2 (isHeap ▸ (unreported instant isLater).1)

theorem not_touches_of_unreported {naming : Address → ObjectKey} {key : ObjectKey}
    {schedule : Schedule} (lacks : schedule.persister.listener.window.Lacks key)
    (isNamed : schedule.persister.listener.window.Named naming)
    (unreported : ∀ instant ∈ later, instant.heap.NamedBy naming ∧ ¬ instant.Reports naming key)
    (member : .handed call ∈ schedule.log later) : ¬ call.delta.Touches key.kind key.id :=
  (beats_run later schedule).not_touches lacks isNamed unreported member

/-- After a failed write the cycle has the failure as its result, and the window that it took is not
noted again: noted is what has been reported since it was taken, and nothing else is written. -/
theorem dropped_of_failed (instants : List Instant)
    (isWriting : (fresh.run instants).writing = some call)
    (active : (fresh.run instants).persister.isActive = true) (heap : Heap) (failure : Failure) :
    ∃ before instant meanwhile, instants = before ++ instant :: meanwhile ∧
      .handed call ∈ (fresh.run before).shows instant ∧
        Dropped call failure meanwhile (fresh.run instants)
          ((fresh.run instants).pass ⟨heap, .finish (.error failure)⟩) := by
  obtain ⟨before, instant, meanwhile, isInstants, isHanded, isHeard⟩ := exists_handed isWriting
  have ends : (fresh.run instants).persister.endCycle (.error failure) = (.error failure,
      { (fresh.run instants).persister.countCycle with
        writeFailures := (fresh.run instants).persister.writeFailures + 1
        lastError := some failure.message }) := by
    have stillActive : (fresh.run instants).persister.countCycle.isActive = true := active
    rw [Persister.endCycle, stillActive]
    rfl
  have passes : (fresh.run instants).pass ⟨heap, .finish (.error failure)⟩ =
      { fresh.run instants with
        persister := { (fresh.run instants).persister.countCycle with
          writeFailures := (fresh.run instants).persister.writeFailures + 1
          lastError := some failure.message }
        writing := none
        ended := (fresh.run instants).ended ++ [⟨call.cycle, .error failure⟩] } := by
    simp only [pass, Schedule.finish, isWriting, ends]
    rfl
  have noted : ((fresh.run instants).pass ⟨heap, .finish (.error failure)⟩).persister.listener =
      heard meanwhile := by
    rw [passes]
    exact isHeard
  refine ⟨before, instant, meanwhile, isInstants, isHanded, ?_⟩
  refine ⟨by rw [passes], by rw [passes]; rfl, by rw [passes], by rw [passes], noted, ?_⟩
  intro naming key later unreported next member
  have windows := heard_keeps ⟨Window.lacks_empty key, Window.named_empty⟩
    fun instant isMeanwhile =>
      have quiet := unreported instant (List.mem_append_left _ isMeanwhile)
      Instant.lacks_of_unreported quiet.1 quiet.2
  rw [← noted] at windows
  exact not_touches_of_unreported windows.1 windows.2
    (fun instant isLater => unreported instant (List.mem_append_right _ isLater)) member

/-- An entity has changed, and the write of that is under way. -/
private def underWay : List Instant :=
  [.setStore (some ⟨0⟩), .start, .report .changed ⟨0⟩ [], .request 1].map (Instant.mk oneEntity)

theorem dropped_of_failed_sample :
    ((fresh.run underWay).writing.isSome = true ∧
      (fresh.run underWay).persister.isActive = true) ∧
    ∃ call before instant meanwhile, underWay = before ++ instant :: meanwhile ∧
      .handed call ∈ (fresh.run before).shows instant ∧
        Dropped call (.storage "disk full") meanwhile (fresh.run underWay)
          ((fresh.run underWay).pass ⟨oneEntity, .finish (.error (.storage "disk full"))⟩) := by
  have active : (fresh.run underWay).persister.isActive = true := by decide +kernel
  have isBusy : (fresh.run underWay).writing.isSome = true := by decide +kernel
  obtain ⟨call, isWriting⟩ := Option.isSome_iff_exists.mp isBusy
  exact ⟨⟨isBusy, active⟩, call,
    dropped_of_failed underWay isWriting active oneEntity (.storage "disk full")⟩

/-- An id that is noted in a window whose write fails need not be noted again. -/
theorem not_noted_of_failed : ¬ ∀ (instants : List Instant) (taking : Taking) (call : PendingWrite)
    (heap : Heap) (failure : Failure),
    .took taking ∈ fresh.log instants → taking.call? = some call →
    (fresh.run instants).writing = some call → (fresh.run instants).persister.isActive = true →
    ∀ kind id, (taking.window.part kind).changed.contains id = true →
      let window :=
        ((fresh.run instants).pass ⟨heap, .finish (.error failure)⟩).persister.listener.window
      (window.part kind).changed.contains id = true ∨ id ∈ (window.part kind).removed := by
  intro everywhere
  let taking : Taking := ⟨1, oneEntity, ⟨0⟩, ⟨⟨[("e", ⟨0⟩)], []⟩, .empty, .empty⟩⟩
  have isTaken : .took taking ∈ fresh.log underWay := List.mem_cons_self
  have noted := everywhere underWay taking _ oneEntity (.storage "disk full") isTaken rfl rfl
    (by decide +kernel) .entity "e" (by decide +kernel)
  revert noted
  decide +kernel

end Schedule

end GraphCheckpoint
