import GraphCheckpoint.Persist.Schedule
import GraphCheckpoint.Proofs.Watch.Window

/-!
Contract: a cycle that has its turn at once, since no other is under way.

Owns:
- `Schedule.Free`, the schedules of an active persister whose turn is free;
- what the request of a cycle takes, and what the end of its write leaves.

Does not own: the write.
-/

namespace GraphCheckpoint

namespace Schedule

variable {schedule : Schedule} {store : StoreRef} {window : Window} {heap : Heap} {cycle : Nat}

/-- The persister takes reports and writes to a store, and a window is noted. -/
structure Takes (store : StoreRef) (window : Window) (persister : Persister) : Prop where
  running : persister.running = true
  listener : persister.listener = ⟨window, false⟩
  store : persister.store = some store

/-- An active persister, and no cycle under way. -/
structure Free (store : StoreRef) (window : Window) (schedule : Schedule) : Prop where
  takes : Takes store window schedule.persister
  idle : schedule.writing = none
  alone : schedule.waiting = []

theorem Takes.isActive {persister : Persister} (takes : Takes store window persister) :
    persister.isActive = true := by
  rw [Persister.isActive, takes.running, takes.listener, takes.store]
  rfl

theorem Takes.countCycle {persister : Persister} (takes : Takes store window persister) :
    Takes store window persister.countCycle :=
  ⟨takes.running, takes.listener, takes.store⟩

theorem Takes.beginCycle_of_empty {persister : Persister} (takes : Takes store .empty persister)
    (heap : Heap) : persister.beginCycle heap = (.nothingNew, persister.countCycle) := by
  rw [Persister.beginCycle, takes.store]
  simp only [takes.isActive, takes.listener]
  rfl

theorem Takes.beginCycle_of_noted {persister : Persister} (takes : Takes store window persister)
    (noted : window.isEmpty = false) (heap : Heap) :
    ∃ taken, persister.beginCycle heap = (.write store (window.toDelta heap).1, taken) ∧
      Takes store .empty taken := by
  refine ⟨{ persister with
    listener := ⟨.empty, false⟩
    mementoFailures := persister.mementoFailures + (window.toDelta heap).2 }, ?_,
    takes.running, rfl, takes.store⟩
  rw [Persister.beginCycle, takes.store]
  simp only [takes.isActive, takes.listener, noted]
  rfl

theorem Free.forget (free : schedule.Free store window) (cycle : Nat) :
    (schedule.forget cycle).Free store window :=
  ⟨free.takes, free.idle, free.alone⟩

theorem resultOf?_forget (cycle : Nat) (schedule : Schedule) :
    (schedule.forget cycle).resultOf? cycle = none := by
  simp [resultOf?, forget, List.find?_eq_none]

theorem resultOf?_endWith (unknown : schedule.resultOf? cycle = none) (result : Outcome Unit) :
    (schedule.endWith cycle result).resultOf? cycle = some result := by
  rw [resultOf?, Option.map_eq_none_iff] at unknown
  rw [resultOf?, endWith, List.find?_append, unknown]
  simp

/-- A cycle with its turn free begins at once. -/
theorem Free.request_eq (free : schedule.Free store window) (heap : Heap) (cycle : Nat) :
    schedule.request heap cycle = schedule.enter heap cycle := by
  rw [request, free.takes.isActive, free.idle, free.alone]
  rfl

/-- A cycle without anything to write ends at once. -/
theorem Free.request_of_empty (free : schedule.Free store .empty) (heap : Heap) {cycle : Nat}
    (unknown : schedule.resultOf? cycle = none) :
    (schedule.request heap cycle).Free store .empty ∧
      (schedule.request heap cycle).resultOf? cycle = some (.ok ()) := by
  rw [free.request_eq, enter, free.takes.beginCycle_of_empty]
  exact ⟨⟨free.takes.countCycle, free.idle, free.alone⟩, resultOf?_endWith unknown (.ok ())⟩

/-- A cycle takes what is noted, and begins to write it. -/
theorem Free.request_of_noted (free : schedule.Free store window)
    (noted : window.isEmpty = false) (heap : Heap) (cycle : Nat) :
    ∃ taken, Takes store .empty taken ∧ schedule.request heap cycle =
      { schedule with
        persister := taken
        writing := some ⟨cycle, store, (window.toDelta heap).1⟩ } := by
  obtain ⟨taken, begins, takes⟩ := free.takes.beginCycle_of_noted noted heap
  refine ⟨taken, takes, ?_⟩
  rw [free.request_eq, enter, begins]

/-- The end of a write frees the turn, and the cycle has the result of the write. -/
theorem finish_of_takes {pending : PendingWrite} (takes : Takes store window schedule.persister)
    (isWriting : schedule.writing = some pending) (alone : schedule.waiting = [])
    (unknown : schedule.resultOf? pending.cycle = none) (written : Outcome Unit) :
    (schedule.finish written).Free store window ∧
      (schedule.finish written).resultOf? pending.cycle = some written := by
  rw [finish, isWriting]
  cases written with
  | ok _ =>
      exact ⟨⟨takes.countCycle, rfl, alone⟩,
        @resultOf?_endWith { schedule with
          persister := schedule.persister.countCycle
          writing := none } pending.cycle unknown (.ok ())⟩
  | error failure =>
      simp only [Persister.endCycle, takes.countCycle.isActive, if_true]
      exact ⟨⟨⟨takes.running, takes.listener, takes.store⟩, rfl, alone⟩,
        resultOf?_endWith unknown (.error failure)⟩

theorem Free.grantAll_eq (free : schedule.Free store window) (heap : Heap) :
    schedule.grantAll heap = schedule := by
  rw [grantAll, free.alone]
  rfl

end Schedule

end GraphCheckpoint
