import GraphCheckpoint.Proofs.Persist.Turns

/-!
Contract: what a wait for later cycles waits for.

Owns:
- that two more completed cycles make a whole turn that began after the call;
- `Delta.Tells`, the deltas that say of every noted object what it is then, or that it is gone;
- what is written by the time at which a wait is over.

Does not own: how often a wait looks at the counter.

The counter has to move by two: the first of the two cycles may have taken its window before the
call. Objects that give no record are left out of a delta, so a wait is no proof that their changes
have been written.
-/

namespace GraphCheckpoint

/-- Whatever the window notes is said by the delta: an id that is gone is removed, and an object that
gives its record is brought with it. -/
structure Delta.Tells (heap : Heap) (window : Window) (delta : Delta LiveValue) : Prop where
  removed : ∀ kind id, id ∈ (window.part kind).removed → id ∈ delta.removed kind
  changed : ∀ kind id address, (window.part kind).changed.get? id = some address →
    id ∈ delta.removed kind ∨ ∀ record, heap.memento? address = some (.ok record) →
      record ∈ delta.records record.kind

/-- The delta of a window says all that the window carries. -/
theorem Window.Carries.tells {before taken : Window} (carries : before.Carries taken)
    (heap : Heap) : (taken.toDelta heap).1.Tells heap before where
  removed := by
    intro kind id isRemoved
    rw [removed_toDelta]
    exact carries.removed kind id isRemoved
  changed := by
    intro kind id address noted
    rw [removed_toDelta]
    rcases carries.changed kind id address noted with still | isRemoved
    · refine Or.inr fun record gives => ?_
      exact mem_records_toDelta.mpr ⟨rfl, kind, (id, address), Table.mem_of_get? still, gives⟩
    · exact Or.inl isRemoved

/-- The deltas given to stores, in order. -/
def CycleEvent.call? : CycleEvent → Option PendingWrite
  | .handed call => some call
  | _ => none

def calls (log : List CycleEvent) : List PendingWrite := log.filterMap CycleEvent.call?

theorem mem_calls {call : PendingWrite} {log : List CycleEvent} :
    call ∈ calls log ↔ .handed call ∈ log := by
  rw [calls, List.mem_filterMap]
  constructor
  · rintro ⟨event, member, isCall⟩
    cases event <;> cases isCall
    exact member
  · intro member
    exact ⟨_, member, rfl⟩

theorem takings_turn (turn : Turn) : takings turn.events = [turn.taking] := by
  rw [Turn.events, takings_append, Taking.events]
  cases turn.taking.call? <;> rfl

namespace Schedule

variable {instant : Instant} {before after schedule : Schedule} {events : List CycleEvent}
variable {start finish : Option PendingWrite} {opening closing : List CycleEvent}

/-! ## The second of two completions -/

theorem Opening.completions_eq (opens : Opening finish opening) : completions opening = [] := by
  cases opens with
  | nothing => rfl
  | @begins taking call leads =>
      rw [Taking.events]
      cases taking.call? <;> rfl

theorem Closing.length_completions (closes : Closing start closing) :
    (completions closing).length ≤ 1 := by
  cases closes with
  | nothing => exact Nat.zero_le 1
  | completes call result => exact Nat.le_refl 1

theorem Closing.takings_eq (closes : Closing start closing) : takings closing = [] := by
  cases closes <;> rfl

/-- Where two cycles complete, the first of them that has begun meanwhile completes as well. -/
theorem Course.exists_turn (course : Course start finish events)
    (two : 1 < (completions events).length) : ∃ closing turn later,
      Closing start closing ∧ events = closing ++ Turn.events turn ++ later := by
  cases course with
  | still => exact absurd two (Nat.not_lt_zero 1)
  | @onwards _ closing opening closes turns opens =>
      cases turns with
      | nil =>
          rw [List.flatMap_nil, List.append_nil, completions_append, opens.completions_eq,
            List.append_nil] at two
          exact absurd two (Nat.not_lt.mpr closes.length_completions)
      | cons turn others =>
          refine ⟨closing, turn, others.flatMap Turn.events ++ opening, closes, ?_⟩
          rw [List.flatMap_cons]
          simp only [List.append_assoc]

/-! ## The first window taken -/

/-- Until a window is taken or a stop comes, whatever is noted stays noted or is removed. -/
theorem carries_first {instants : List Instant} {taking : Taking}
    (apart : schedule.persister.listener.window.Apart)
    (noStop : ∀ instant ∈ instants, instant.moment ≠ .stop)
    (isFirst : (takings (schedule.log instants)).head? = some taking) :
    schedule.persister.listener.window.Carries taking.window := by
  induction instants generalizing schedule with
  | nil => cases isFirst
  | cons instant later inductionHypothesis =>
      have beat := beat_pass instant schedule
      rw [log, takings_append] at isFirst
      cases isShown : takings (schedule.shows instant) with
      | cons shown others =>
          have isTaken : shown ∈ takings (schedule.shows instant) := isShown ▸ List.mem_cons_self
          rw [isShown] at isFirst
          cases isFirst
          rw [(beat.took (mem_takings.mp isTaken)).2.2.2.1]
          exact .refl _
      | nil =>
          rw [isShown, List.nil_append] at isFirst
          have hears : (schedule.pass instant).persister.listener =
              instant.hear schedule.persister.listener := beat.hears isShown
          have step : schedule.persister.listener.window.Carries
              (schedule.pass instant).persister.listener.window ∧
                (schedule.pass instant).persister.listener.window.Apart := by
            rw [hears]
            rcases instant.hear_window schedule.persister.listener with
              same | ⟨isStop, -⟩ | ⟨kind, address, gathered, -, noted⟩
            · exact same.symm ▸ ⟨.refl _, apart⟩
            · exact absurd isStop (noStop instant List.mem_cons_self)
            · exact noted ▸ ⟨Window.carries_apply apart kind, apart.apply kind⟩
          exact step.1.trans (inductionHypothesis step.2
            (fun other member => noStop other (List.mem_cons_of_mem _ member)) isFirst)

/-- The windows of all runs are apart. -/
theorem apart_run (instants : List Instant) :
    (fresh.run instants).persister.listener.window.Apart :=
  (@windows_run fresh Window.Apart Window.apart_empty instants
    (fun _ _ kind _ _ _ _ apart => apart.apply kind) Window.apart_empty).1

/-! ## The end of a wait -/

/-- What has been written when a wait is over, by what was seen before the call and since then. -/
structure Waited (earlier : List CycleEvent) (called : Schedule) (log : List CycleEvent) : Prop where
  /-- The write under way at the call brings all of a window taken before, and is the first to
  complete. -/
  inFlight : ∀ pending, called.writing = some pending →
    (∃ taking : Taking, taking.call? = some pending ∧ taking.events <:+ entered earlier ∧
      pending.delta.Tells taking.heap taking.window) ∧
    ∃ result later, entered log = .completed ⟨pending.cycle, result⟩ :: later
  /-- A turn that began after the call brought all that was noted at the call, and is over. -/
  inWindow : called.persister.listener.window.isEmpty = false →
    ∃ (turn : Turn) (call : PendingWrite), turn.events <:+: entered log ∧
      turn.taking.call? = some call ∧
        call.delta.Tells turn.taking.heap called.persister.listener.window

/-- The write under way is that of a window that a cycle has taken. -/
theorem taken_of_writing {instants : List Instant} {pending : PendingWrite}
    (isWriting : (fresh.run instants).writing = some pending) : ∃ taking : Taking,
      taking.call? = some pending ∧ taking.events <:+ entered (fresh.log instants) ∧
        pending.delta.Tells taking.heap taking.window := by
  have course := course_run fresh instants
  rw [isWriting] at course
  obtain ⟨turns, opening, isLog, opens⟩ := course.fromIdle
  cases opens with
  | @begins taking call leads =>
      refine ⟨taking, leads, ⟨_, isLog.symm⟩, ?_⟩
      rw [Taking.delta_of_call? leads]
      exact (Window.Carries.refl taking.window).tells taking.heap

/-- A wait that ends while the persister is active has seen a cycle from the taking of its window
to its completion. If no stop came meanwhile, all that was noted or under way at the call has been
given to stores by cycles that are complete. -/
theorem waited_of_isWaitOver (before after : List Instant)
    (isOver : (fresh.run (before ++ after)).persister.isWaitOver
      (fresh.run before).persister.writes = true)
    (active : (fresh.run (before ++ after)).persister.isActive = true) :
    (∃ turn : Turn, turn.events <:+: entered ((fresh.run before).log after)) ∧
      ((∀ instant ∈ after, instant.moment ≠ .stop) →
        Waited (fresh.log before) (fresh.run before) ((fresh.run before).log after)) := by
  have counted := (tallies_run (fresh.run before) after).writes
  rw [run_append, Persister.isWaitOver, counted] at isOver
  rw [run_append] at active
  have two : 1 < (completions (entered ((fresh.run before).log after))).length := by
    rw [completions_entered]
    simpa [active] using isOver
  obtain ⟨closing, turn, later, closes, isLog⟩ :=
    (course_run (fresh.run before) after).exists_turn two
  have inside : turn.events <:+: entered ((fresh.run before).log after) :=
    ⟨closing, later, isLog.symm⟩
  refine ⟨⟨turn, inside⟩, fun noStop => ⟨fun pending isWriting => ?_, fun noted => ?_⟩⟩
  · refine ⟨taken_of_writing isWriting, ?_⟩
    rw [isWriting] at closes
    cases closes with
    | completes call result => exact ⟨result, turn.events ++ later, by rw [isLog]; simp⟩
  · have isFirst : (takings ((fresh.run before).log after)).head? = some turn.taking := by
      rw [← takings_entered, isLog, takings_append, takings_append, closes.takings_eq,
        takings_turn]
      rfl
    have carries := carries_first (apart_run before) noStop isFirst
    have call : turn.taking.call? = some ⟨turn.taking.cycle, turn.taking.store,
        (turn.taking.window.toDelta turn.taking.heap).1⟩ := by
      rw [Taking.call?, carries.isEmpty noted]
      rfl
    exact ⟨turn, _, inside, call, carries.tells turn.taking.heap⟩

/-- An entity has changed, and the write of that is under way, when it changes again. -/
private def beforeWait : List Instant :=
  [.setStore (some ⟨0⟩), .start, .report .changed ⟨0⟩ [], .request 1,
    .report .changed ⟨0⟩ []].map (Instant.mk oneEntity)

/-- That write fails, and a later one succeeds. -/
private def duringWait : List Instant :=
  [.finish (.error (.storage "disk full")), .request 2, .finish (.ok ())].map (Instant.mk oneEntity)

theorem waited_of_isWaitOver_sample :
    ((fresh.run (beforeWait ++ duringWait)).persister.isWaitOver
        (fresh.run beforeWait).persister.writes = true ∧
      (fresh.run (beforeWait ++ duringWait)).persister.isActive = true) ∧
    ((fresh.run beforeWait).writing.isSome = true ∧
      (fresh.run beforeWait).persister.listener.window.isEmpty = false) ∧
    Waited (fresh.log beforeWait) (fresh.run beforeWait)
      ((fresh.run beforeWait).log duringWait) := by
  have isOver : (fresh.run (beforeWait ++ duringWait)).persister.isWaitOver
      (fresh.run beforeWait).persister.writes = true := by decide +kernel
  have active : (fresh.run (beforeWait ++ duringWait)).persister.isActive = true := by
    decide +kernel
  refine ⟨⟨isOver, active⟩, by decide +kernel, ?_⟩
  apply (waited_of_isWaitOver beforeWait duringWait isOver active).2
  exact List.forall_mem_map.mpr (by simp)

/-- The only entity fails to give its record. -/
private def failingEntity : Heap :=
  (Heap.empty.create
    { LiveObject.blank .entity "e" "App" with
      behaviour := .failing (.generation .entity "e" "torn down") }).2

/-- A change of an object that gives no record is not given to any store, whether the wait is over
or not. -/
theorem not_touched_of_isWaitOver : ¬ ∀ before after : List Instant,
    (fresh.run (before ++ after)).persister.isWaitOver
      (fresh.run before).persister.writes = true →
    (fresh.run (before ++ after)).persister.isActive = true →
    (∀ instant ∈ after, instant.moment ≠ .stop) →
    ∀ kind id address,
      ((fresh.run before).persister.listener.window.part kind).changed.get? id = some address →
        ∃ call ∈ calls ((fresh.run before).log after), call.delta.Touches kind id := by
  intro everywhere
  let before := [.setStore (some ⟨0⟩), .start, .report .changed ⟨0⟩ []].map
    (Instant.mk failingEntity)
  let after := [.request 1, .finish (.ok ()), .request 2].map (Instant.mk failingEntity)
  have noStop : ∀ instant ∈ after, instant.moment ≠ .stop := List.forall_mem_map.mpr (by simp)
  have untouched : ¬ ∃ call ∈ calls ((fresh.run before).log after),
      call.delta.Touches .entity "e" := by decide +kernel
  exact untouched (everywhere before after (by decide +kernel) (by decide +kernel) noStop
    .entity "e" ⟨0⟩ (by decide +kernel))

end Schedule

end GraphCheckpoint
