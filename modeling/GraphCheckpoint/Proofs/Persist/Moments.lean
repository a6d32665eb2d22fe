import GraphCheckpoint.Persist.Schedule

/-!
Contract: what can happen to a persister and to its cycles, and what is seen of the cycles.

Owns:
- `Moment` and `Instant`, one thing that happens, and what lives then;
- `Schedule.pass` and `Schedule.run`, what one instant and what several make of a schedule;
- `CycleEvent` and `Schedule.log`, what the cycles do, in order;
- `Schedule.Beat`, the ways in which an instant passes, and `Schedule.Beats`, one after the other.

Does not own: what holds of all runs.

A cycle gives way to others only while it waits for its turn and while its delta is being written.
Its look at the persister, the taking of the window and the making of the delta are one moment, and
so are the count of the finished write and the cycle's result.
-/

namespace GraphCheckpoint

/-- One thing that happens to a persister or to its cycles. -/
inductive Moment where
  /-- A cycle is requested. -/
  | request (cycle : Nat)
  /-- The first waiting cycle gets its turn. -/
  | grant
  /-- The store has done with the delta that it was given. -/
  | finish (written : Outcome Unit)
  /-- An object reports; the given locations have been gathered for it. -/
  | report (kind : Report) (address : Address) (gathered : List Address)
  | start
  | stop
  | setStore (store : Option StoreRef)

/-- A moment, and what lives then. -/
structure Instant where
  heap : Heap
  moment : Moment

/-- What a listener makes of an instant. -/
def Instant.hear (instant : Instant) (listener : Listener) : Listener :=
  match instant.moment with
  | .report kind address gathered => listener.record (kind.apply instant.heap address gathered)
  | .start => listener.resume
  | .stop => listener.stopAndDiscard
  | _ => listener

/-- A window stays as it is, is dropped by a stop, or goes on with a report. -/
theorem Instant.hear_window (instant : Instant) (listener : Listener) :
    (instant.hear listener).window = listener.window ∨
      (instant.moment = .stop ∧ (instant.hear listener).window = .empty) ∨
        ∃ kind address gathered, instant.moment = .report kind address gathered ∧
          (instant.hear listener).window =
            kind.apply instant.heap address gathered listener.window := by
  obtain ⟨heap, moment⟩ := instant
  cases moment with
  | report kind address gathered =>
      cases isStopped : listener.stopped with
      | true => exact Or.inl (congrArg Listener.window (Listener.record_stopped isStopped _))
      | false =>
          exact Or.inr (Or.inr
            ⟨kind, address, gathered, rfl, Listener.window_record isStopped _⟩)
  | stop => exact Or.inr (Or.inl ⟨rfl, rfl⟩)
  | start => exact Or.inl rfl
  | request cycle => exact Or.inl rfl
  | grant => exact Or.inl rfl
  | finish written => exact Or.inl rfl
  | setStore store => exact Or.inl rfl

/-- What an empty window has and a report keeps, a listener's window keeps. -/
theorem Instant.hear_keeps {property : Window → Prop} (empty : property .empty) {instant : Instant}
    (reports : ∀ kind address gathered, instant.moment = .report kind address gathered →
      ∀ window, property window → property (kind.apply instant.heap address gathered window))
    {listener : Listener} (collected : property listener.window) :
    property (instant.hear listener).window := by
  rcases instant.hear_window listener with
    same | ⟨-, nothing⟩ | ⟨kind, address, gathered, isReport, noted⟩
  · exact same ▸ collected
  · exact nothing ▸ empty
  · exact noted ▸ reports kind address gathered isReport _ collected

/-- A cycle may get its turn: it waits for it, or is requested. -/
def Instant.GivesTurn (instant : Instant) : Prop :=
  instant.moment = .grant ∨ ∃ cycle, instant.moment = .request cycle

theorem Instant.GivesTurn.hear {instant : Instant} (turn : instant.GivesTurn)
    (listener : Listener) : instant.hear listener = listener := by
  rcases turn with isGrant | ⟨cycle, isRequest⟩
  · rw [Instant.hear, isGrant]
  · rw [Instant.hear, isRequest]

theorem Instant.GivesTurn.not_finish {instant : Instant} (turn : instant.GivesTurn)
    (written : Outcome Unit) : instant.moment ≠ .finish written := by
  intro isFinish
  rcases turn with isGrant | ⟨cycle, isRequest⟩
  · cases isGrant.symm.trans isFinish
  · cases isRequest.symm.trans isFinish

/-- The taking of a window by a cycle. -/
structure Taking where
  cycle : Nat
  heap : Heap
  /-- The store to which the cycle will write. -/
  store : StoreRef
  window : Window

/-- The call of a store to which a taking leads, if there is something in the window. -/
def Taking.call? (taking : Taking) : Option PendingWrite :=
  if taking.window.isEmpty then none
  else some ⟨taking.cycle, taking.store, (taking.window.toDelta taking.heap).1⟩

/-- What is seen of a cycle. -/
inductive CycleEvent where
  /-- The cycle ends because the persister is not active. -/
  | skipped (cycle : Nat)
  /-- The cycle takes the window. -/
  | took (taking : Taking)
  /-- The cycle gives a delta to a store. -/
  | handed (call : PendingWrite)
  /-- The cycle is complete, and has a result. -/
  | completed (ended : EndedCycle)

/-- What a cycle does when it gets its turn. -/
def Persister.entering (heap : Heap) (cycle : Nat) (persister : Persister) : List CycleEvent :=
  match persister.store, (persister.beginCycle heap).1 with
  | some store, .nothingNew =>
      [.took ⟨cycle, heap, store, persister.listener.window⟩, .completed ⟨cycle, .ok ()⟩]
  | some store, .write written delta =>
      [.took ⟨cycle, heap, store, persister.listener.window⟩, .handed ⟨cycle, written, delta⟩]
  | _, _ => [.skipped cycle]

namespace Schedule

/-- What an instant makes of a schedule. -/
def pass (instant : Instant) (schedule : Schedule) : Schedule :=
  match instant.moment with
  | .request cycle => schedule.request instant.heap cycle
  | .grant => schedule.grant instant.heap
  | .finish written => schedule.finish written
  | .report kind address gathered =>
      schedule.mapPersister fun persister =>
        { persister with
          listener := persister.listener.record (kind.apply instant.heap address gathered) }
  | .start => schedule.mapPersister Persister.start
  | .stop => schedule.mapPersister Persister.stop
  | .setStore store => schedule.mapPersister (Persister.setStore store)

/-- What is seen of the cycles at an instant. -/
def shows (instant : Instant) (schedule : Schedule) : List CycleEvent :=
  match instant.moment with
  | .request cycle =>
      if !schedule.persister.isActive then [.skipped cycle]
      else if schedule.writing.isSome || !schedule.waiting.isEmpty then []
      else schedule.persister.entering instant.heap cycle
  | .grant =>
      match schedule.writing, schedule.waiting with
      | none, next :: _ => schedule.persister.entering instant.heap next
      | _, _ => []
  | .finish written =>
      match schedule.writing with
      | none => []
      | some pending => [.completed ⟨pending.cycle, (schedule.persister.endCycle written).1⟩]
  | _ => []

/-- What several instants make of a schedule. -/
def run : List Instant → Schedule → Schedule
  | [], schedule => schedule
  | instant :: later, schedule => run later (schedule.pass instant)

/-- What is seen of the cycles during several instants. -/
def log : List Instant → Schedule → List CycleEvent
  | [], _ => []
  | instant :: later, schedule => schedule.shows instant ++ log later (schedule.pass instant)

theorem run_append (first second : List Instant) (schedule : Schedule) :
    schedule.run (first ++ second) = (schedule.run first).run second := by
  induction first generalizing schedule with
  | nil => rfl
  | cons instant later inductionHypothesis => exact inductionHypothesis (schedule.pass instant)

theorem log_append (first second : List Instant) (schedule : Schedule) :
    schedule.log (first ++ second) = schedule.log first ++ (schedule.run first).log second := by
  induction first generalizing schedule with
  | nil => rfl
  | cons instant later inductionHypothesis =>
      rw [List.cons_append, log, inductionHypothesis, log, run, List.append_assoc]

/-! ## The ways in which an instant passes -/

variable {instant : Instant} {before after : Schedule} {events : List CycleEvent}

/-- What an instant does to a schedule, and what is seen of it. -/
inductive Beat (instant : Instant) (before : Schedule) : List CycleEvent → Schedule → Prop
  /-- No cycle goes on. -/
  | quiet {after : Schedule} (hears : after.persister.listener = instant.hear before.persister.listener)
      (writes : after.persister.writes = before.persister.writes)
      (writeFailures : after.persister.writeFailures = before.persister.writeFailures)
      (writing : after.writing = before.writing) (ended : after.ended = before.ended) :
      Beat instant before [] after
  | skip (turn : instant.GivesTurn) (cycle : Nat) (waiting : List Nat)
      (inactive : before.persister.isActive = false) :
      Beat instant before [.skipped cycle] ({ before with waiting := waiting }.endWith cycle (.ok ()))
  | nothingNew (turn : instant.GivesTurn) (cycle : Nat)
      (waiting : List Nat) {store : StoreRef} (idle : before.writing = none)
      (active : before.persister.isActive = true) (isStore : before.persister.store = some store)
      (nothing : before.persister.listener.window.isEmpty = true) :
      Beat instant before
        [.took ⟨cycle, instant.heap, store, before.persister.listener.window⟩,
          .completed ⟨cycle, .ok ()⟩]
        ({ before with
          persister := before.persister.countCycle
          waiting := waiting }.endWith cycle (.ok ()))
  | write (turn : instant.GivesTurn) (cycle : Nat)
      (waiting : List Nat) (failures : Nat) {store : StoreRef} (idle : before.writing = none)
      (active : before.persister.isActive = true) (isStore : before.persister.store = some store)
      (noted : before.persister.listener.window.isEmpty = false) :
      Beat instant before
        [.took ⟨cycle, instant.heap, store, before.persister.listener.window⟩,
          .handed ⟨cycle, store, (before.persister.listener.window.toDelta instant.heap).1⟩]
        { before with
          persister := { before.persister with
            listener := { before.persister.listener with window := .empty }
            mementoFailures := failures }
          writing :=
            some ⟨cycle, store, (before.persister.listener.window.toDelta instant.heap).1⟩
          waiting := waiting }
  | finish {pending : PendingWrite} {written : Outcome Unit}
      (isFinish : instant.moment = .finish written) (isWriting : before.writing = some pending) :
      Beat instant before
        [.completed ⟨pending.cycle, (before.persister.endCycle written).1⟩]
        ({ before with
          persister := (before.persister.endCycle written).2
          writing := none }.endWith pending.cycle (before.persister.endCycle written).1)

/-- A cycle that gets its turn. -/
theorem beat_enter (turn : instant.GivesTurn)
    (idle : before.writing = none) (cycle : Nat) (waiting : List Nat) :
    Beat instant before (before.persister.entering instant.heap cycle)
      ({ before with waiting := waiting }.enter instant.heap cycle) := by
  cases isActive : before.persister.isActive with
  | false =>
      have shown : before.persister.entering instant.heap cycle = [.skipped cycle] := by
        simp [Persister.entering, Persister.beginCycle_of_inactive isActive]
      simp only [shown, enter, Persister.beginCycle_of_inactive isActive]
      exact .skip turn cycle waiting isActive
  | true =>
      cases isStore : before.persister.store with
      | none => simp [Persister.isActive, isStore] at isActive
      | some store =>
          cases isEmpty : before.persister.listener.window.isEmpty with
          | true =>
              have begins : before.persister.beginCycle instant.heap =
                  (.nothingNew, before.persister.countCycle) := by
                simp [Persister.beginCycle, isStore, isActive, isEmpty]
              have shown : before.persister.entering instant.heap cycle =
                  [.took ⟨cycle, instant.heap, store, before.persister.listener.window⟩,
                    .completed ⟨cycle, .ok ()⟩] := by
                simp only [Persister.entering, isStore, begins]
              simp only [shown, enter, begins]
              exact .nothingNew turn cycle waiting idle isActive isStore isEmpty
          | false =>
              have begins : before.persister.beginCycle instant.heap =
                  (.write store (before.persister.listener.window.toDelta instant.heap).1,
                    { before.persister with
                      listener := { before.persister.listener with window := .empty }
                      mementoFailures := before.persister.mementoFailures +
                        (before.persister.listener.window.toDelta instant.heap).2 }) := by
                simp [Persister.beginCycle, isStore, isActive, isEmpty, Listener.swap]
              have shown : before.persister.entering instant.heap cycle =
                  [.took ⟨cycle, instant.heap, store, before.persister.listener.window⟩,
                    .handed ⟨cycle, store,
                      (before.persister.listener.window.toDelta instant.heap).1⟩] := by
                simp only [Persister.entering, isStore, begins]
              simp only [shown, enter, begins]
              exact .write turn cycle waiting _ idle isActive isStore isEmpty

/-- Every instant passes in one of these ways. -/
theorem beat_pass (instant : Instant) (before : Schedule) :
    Beat instant before (before.shows instant) (before.pass instant) := by
  obtain ⟨heap, moment⟩ := instant
  cases moment with
  | request cycle =>
      have turn : Instant.GivesTurn ⟨heap, .request cycle⟩ := Or.inr ⟨cycle, rfl⟩
      simp only [shows, pass, request]
      split
      · rename_i inactive
        exact .skip turn cycle before.waiting (by simpa using inactive)
      · split
        · exact .quiet rfl rfl rfl rfl rfl
        · rename_i free
          have idle : before.writing = none := by
            cases isWriting : before.writing with
            | none => rfl
            | some pending => simp [isWriting] at free
          exact beat_enter turn idle cycle before.waiting
  | grant =>
      have turn : Instant.GivesTurn ⟨heap, .grant⟩ := Or.inl rfl
      cases isWriting : before.writing with
      | some pending =>
          simp only [shows, pass, grant, isWriting]
          exact .quiet rfl rfl rfl rfl rfl
      | none =>
          cases isWaiting : before.waiting with
          | nil =>
              simp only [shows, pass, grant, isWriting, isWaiting]
              exact .quiet rfl rfl rfl rfl rfl
          | cons next others =>
              have passes : before.pass ⟨heap, .grant⟩ =
                  { before with waiting := others }.enter heap next := by
                simp only [pass, grant, isWriting, isWaiting]
              have shown : before.shows ⟨heap, .grant⟩ =
                  before.persister.entering heap next := by
                simp only [shows, isWriting, isWaiting]
              rw [passes, shown]
              exact beat_enter turn isWriting next others
  | finish written =>
      cases isWriting : before.writing with
      | none =>
          simp only [shows, pass, finish, isWriting]
          exact .quiet rfl rfl rfl rfl rfl
      | some pending =>
          simp only [shows, pass, finish, isWriting]
          exact .finish rfl isWriting
  | report kind address gathered => exact .quiet rfl rfl rfl rfl rfl
  | start => exact .quiet rfl rfl rfl rfl rfl
  | stop => exact .quiet rfl rfl rfl rfl rfl
  | setStore store => exact .quiet rfl rfl rfl rfl rfl

/-- Instants that pass one after the other, each in one of these ways. -/
inductive Beats : List Instant → Schedule → List CycleEvent → Schedule → Prop
  | nil (schedule : Schedule) : Beats [] schedule [] schedule
  | cons {instant : Instant} {later : List Instant} {before between after : Schedule}
      {events more : List CycleEvent} (beat : Beat instant before events between)
      (rest : Beats later between more after) : Beats (instant :: later) before (events ++ more) after

theorem beats_run (instants : List Instant) (schedule : Schedule) :
    Beats instants schedule (schedule.log instants) (schedule.run instants) := by
  induction instants generalizing schedule with
  | nil => exact .nil schedule
  | cons instant later inductionHypothesis =>
      exact .cons (beat_pass instant schedule) (inductionHypothesis (schedule.pass instant))

end Schedule

end GraphCheckpoint
