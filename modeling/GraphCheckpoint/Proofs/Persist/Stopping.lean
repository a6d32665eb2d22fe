import GraphCheckpoint.Proofs.Persist.FailedWrite
import GraphCheckpoint.Proofs.Persist.Waiting

/-!
Contract: what a stop discards, however starts, stops, cycles and reports fall between each other.

Owns:
- `Traffic`, a persister with its cycles and the reports that are on their way to its listener;
- `Move`, one step of all that goes on: starts and stops in two steps, reports in three, cycles
  between their waits;
- `Traffic.Silent`, what is so from a stop on until the listener takes reports again;
- that whatever is written after that has been recorded after it.

Does not own: the schedule of the cycles.

A stop sets the listener's flag and empties its window in one step, and what comes late looks at the
flag in the step in which it records. So nothing lands between the two, and nothing after them.
-/

namespace GraphCheckpoint

/-! ## Steps -/

/-- A report on its way: the first look has found that the listener takes reports. -/
structure Notice where
  kind : Report
  address : Address
  /-- The locations that have been found for it, once they have. -/
  gathered : Option (List Address)
deriving DecidableEq, Repr

/-- What can be done in one step. -/
inductive Act where
  /-- A cycle is requested, and begins at once if no other is under way. -/
  | request (cycle : Nat)
  /-- A cycle is requested, and gives way before it tries to begin. -/
  | queue (cycle : Nat)
  | grant
  | finish (written : Outcome Unit)
  /-- A report looks at the listener for the first time. -/
  | look (kind : Report) (address : Address)
  /-- Locations have been found for a report, in whatever state the objects were meanwhile. -/
  | gather (index : Nat) (found : List Address)
  /-- A report looks again and records, under the lock of the window. -/
  | record (index : Nat)
  /-- The first step of a start: the listener takes reports again. -/
  | resume
  /-- The second step of a start. -/
  | run
  /-- The first step of a stop: the listener takes no reports, and its window is dropped. -/
  | discard
  /-- The second step of a stop. -/
  | halt
  | setStore (store : Option StoreRef)

/-- One step, and what lives then. -/
structure Move where
  heap : Heap
  act : Act

/-- A persister with its cycles, and the reports on their way to its listener. -/
structure Traffic where
  schedule : Schedule
  notices : List Notice

namespace Persister

def mapListener (change : Listener → Listener) (persister : Persister) : Persister :=
  { persister with listener := change persister.listener }

def setRunning (running : Bool) (persister : Persister) : Persister :=
  { persister with running := running }

/-- A start is its two steps. -/
theorem start_eq (persister : Persister) :
    persister.start = (persister.mapListener Listener.resume).setRunning true := rfl

/-- A stop is its two steps. -/
theorem stop_eq (persister : Persister) :
    persister.stop = (persister.mapListener Listener.stopAndDiscard).setRunning false := rfl

end Persister

/-- Requests a cycle that gives way first. -/
def Schedule.queue (cycle : Nat) (schedule : Schedule) : Schedule :=
  if !schedule.persister.isActive then schedule.endWith cycle (.ok ())
  else { schedule with waiting := schedule.waiting ++ [cycle] }

namespace Traffic

def fresh : Traffic := ⟨.fresh, []⟩

def mapListener (change : Listener → Listener) (traffic : Traffic) : Traffic :=
  { traffic with schedule := traffic.schedule.mapPersister (Persister.mapListener change) }

/-- Does one step. -/
def pass (move : Move) (traffic : Traffic) : Traffic :=
  match move.act with
  | .request cycle => { traffic with schedule := traffic.schedule.request move.heap cycle }
  | .queue cycle => { traffic with schedule := traffic.schedule.queue cycle }
  | .grant => { traffic with schedule := traffic.schedule.grant move.heap }
  | .finish written => { traffic with schedule := traffic.schedule.finish written }
  | .look kind address =>
      if traffic.schedule.persister.listener.stopped then traffic
      else { traffic with notices := traffic.notices ++ [⟨kind, address, none⟩] }
  | .gather index found =>
      { traffic with
        notices := traffic.notices.modify index fun notice =>
          { notice with gathered := notice.gathered.or (some found) } }
  | .record index =>
      match traffic.notices[index]? with
      | some ⟨kind, address, some gathered⟩ =>
          { traffic.mapListener (Listener.record (kind.apply move.heap address gathered)) with
            notices := traffic.notices.eraseIdx index }
      | _ => traffic
  | .resume => traffic.mapListener Listener.resume
  | .run => { traffic with schedule := traffic.schedule.mapPersister (Persister.setRunning true) }
  | .discard => traffic.mapListener Listener.stopAndDiscard
  | .halt => { traffic with schedule := traffic.schedule.mapPersister (Persister.setRunning false) }
  | .setStore store =>
      { traffic with schedule := traffic.schedule.mapPersister (Persister.setStore store) }

/-- The moment that a step is for the schedule. A report has its moment where the listener takes it;
the other steps of reports, starts and stops leave everything to the schedule that it has. -/
def moment (move : Move) (traffic : Traffic) : Moment :=
  match move.act with
  | .request cycle | .queue cycle => .request cycle
  | .grant => .grant
  | .finish written => .finish written
  | .record index =>
      match traffic.schedule.persister.listener.stopped, traffic.notices[index]? with
      | false, some ⟨kind, address, some gathered⟩ => .report kind address gathered
      | _, _ => .setStore traffic.schedule.persister.store
  | .resume => .start
  | .discard => .stop
  | .look .. | .gather .. | .run | .halt => .setStore traffic.schedule.persister.store
  | .setStore store => .setStore store

def instant (move : Move) (traffic : Traffic) : Instant := ⟨move.heap, traffic.moment move⟩

/-- What is seen of the cycles at a step. -/
def shows (move : Move) (traffic : Traffic) : List CycleEvent :=
  match move.act with
  | .queue cycle => if traffic.schedule.persister.isActive then [] else [.skipped cycle]
  | _ => traffic.schedule.shows (traffic.instant move)

def run : List Move → Traffic → Traffic
  | [], traffic => traffic
  | move :: later, traffic => run later (traffic.pass move)

/-- What is seen of the cycles during several steps. -/
def log : List Move → Traffic → List CycleEvent
  | [], _ => []
  | move :: later, traffic => traffic.shows move ++ log later (traffic.pass move)

/-- The steps as instants of the schedule. -/
def instants : List Move → Traffic → List Instant
  | [], _ => []
  | move :: later, traffic => traffic.instant move :: instants later (traffic.pass move)

theorem run_append (first second : List Move) (traffic : Traffic) :
    traffic.run (first ++ second) = (traffic.run first).run second := by
  induction first generalizing traffic with
  | nil => rfl
  | cons move later inductionHypothesis => exact inductionHypothesis (traffic.pass move)

/-- A report whose steps follow each other at once is heard as it is made. -/
theorem run_notify {traffic : Traffic} (quiet : traffic.notices = [])
    (running : traffic.schedule.persister.listener.stopped = false) (heap : Heap) (kind : Report)
    (address : Address) :
    traffic.run [⟨heap, .look kind address⟩, ⟨heap, .gather 0 (kind.gather heap address)⟩,
        ⟨heap, .record 0⟩] =
      traffic.mapListener (Listener.notify heap kind address) := by
  have looked : traffic.pass ⟨heap, .look kind address⟩ =
      ⟨traffic.schedule, [⟨kind, address, none⟩]⟩ := by
    rw [pass, running, quiet]
    rfl
  rw [run, looked]
  obtain ⟨schedule, notices⟩ := traffic
  cases quiet
  rfl

/-! ## Steps as beats -/

variable {traffic : Traffic} {move : Move} {moves : List Move}

/-- A report is heard where the listener takes it, and lost where it does not. -/
theorem beat_record (heap : Heap) (index : Nat) (traffic : Traffic) :
    Schedule.Beat (traffic.instant ⟨heap, .record index⟩) traffic.schedule
      (traffic.shows ⟨heap, .record index⟩) (traffic.pass ⟨heap, .record index⟩).schedule := by
  rcases found : traffic.notices[index]? with - | ⟨kind, address, - | gathered⟩ <;>
    cases isStopped : traffic.schedule.persister.listener.stopped <;>
    simp only [shows, instant, moment, pass, found, isStopped]
  case some.some.true =>
    exact .quiet (Listener.record_stopped isStopped _) rfl rfl rfl rfl
  all_goals exact .quiet rfl rfl rfl rfl rfl

/-- Every step passes for the schedule as its instant does. -/
theorem beat_pass (move : Move) (traffic : Traffic) :
    Schedule.Beat (traffic.instant move) traffic.schedule (traffic.shows move)
      (traffic.pass move).schedule := by
  obtain ⟨heap, act⟩ := move
  cases act with
  | request cycle => exact Schedule.beat_pass ⟨heap, .request cycle⟩ traffic.schedule
  | queue cycle =>
      have turn : (traffic.instant ⟨heap, .queue cycle⟩).GivesTurn := Or.inr ⟨cycle, rfl⟩
      simp only [shows, pass, Schedule.queue]
      cases isActive : traffic.schedule.persister.isActive with
      | false => exact .skip turn cycle traffic.schedule.waiting isActive
      | true => exact .quiet (turn.hear _).symm rfl rfl rfl rfl
  | grant => exact Schedule.beat_pass ⟨heap, .grant⟩ traffic.schedule
  | finish written => exact Schedule.beat_pass ⟨heap, .finish written⟩ traffic.schedule
  | look kind address =>
      simp only [pass]
      split <;> exact .quiet rfl rfl rfl rfl rfl
  | gather index found => exact .quiet rfl rfl rfl rfl rfl
  | record index => exact beat_record heap index traffic
  | resume => exact .quiet rfl rfl rfl rfl rfl
  | run => exact .quiet rfl rfl rfl rfl rfl
  | discard => exact .quiet rfl rfl rfl rfl rfl
  | halt => exact .quiet rfl rfl rfl rfl rfl
  | setStore store => exact .quiet rfl rfl rfl rfl rfl

theorem beats_run (moves : List Move) (traffic : Traffic) :
    Schedule.Beats (traffic.instants moves) traffic.schedule (traffic.log moves)
      (traffic.run moves).schedule := by
  induction moves generalizing traffic with
  | nil => exact .nil traffic.schedule
  | cons move later inductionHypothesis =>
      exact .cons (beat_pass move traffic) (inductionHypothesis (traffic.pass move))

theorem exists_of_mem_instants {instant : Instant} (member : instant ∈ traffic.instants moves) :
    ∃ earlier move later, moves = earlier ++ move :: later ∧
      (traffic.run earlier).instant move = instant := by
  induction moves generalizing traffic with
  | nil => cases member
  | cons first rest inductionHypothesis =>
      rcases List.mem_cons.mp member with isFirst | isLater
      · exact ⟨[], first, rest, rfl, isFirst.symm⟩
      · obtain ⟨earlier, move, later, isRest, isInstant⟩ := inductionHypothesis isLater
        exact ⟨first :: earlier, move, later, congrArg (first :: ·) isRest, isInstant⟩

end Traffic

/-! ## From a stop on -/

/-- What can be seen of the cycles of a stopped persister: some end with nothing done, and the write
that was under way at the stop ends without a failure. -/
inductive CycleEvent.Late (pending : Option PendingWrite) : CycleEvent → Prop
  | skipped (cycle : Nat) : Late pending (.skipped cycle)
  | ends {call : PendingWrite} (wasUnderWay : pending = some call) :
      Late pending (.completed ⟨call.cycle, .ok ()⟩)

theorem CycleEvent.Late.ended {pending : Option PendingWrite} {event : CycleEvent}
    (late : event.Late pending) {ended : EndedCycle} (ends : event.ended? = some ended) :
    ended.result = .ok () := by
  cases late <;> cases ends <;> rfl

namespace Schedule

variable {pending : Option PendingWrite} {instant : Instant} {instants : List Instant}
  {before after : Schedule} {events : List CycleEvent}

/-- The listener has dropped its window and takes no reports, and no write has begun since. -/
structure Discarded (pending : Option PendingWrite) (schedule : Schedule) : Prop where
  listener : schedule.persister.listener = ⟨.empty, true⟩
  writing : schedule.writing = none ∨ schedule.writing = pending

theorem Discarded.inactive (discarded : Discarded pending before) :
    before.persister.isActive = false := by
  rw [Persister.isActive, discarded.listener]
  simp

theorem Discarded.request (discarded : Discarded pending before) (heap : Heap) (cycle : Nat) :
    before.request heap cycle = before.endWith cycle (.ok ()) := by
  rw [Schedule.request, discarded.inactive]
  rfl

theorem Discarded.grant (discarded : Discarded pending before) (heap : Heap) {next : Nat}
    {others : List Nat} (idle : before.writing = none) (isWaiting : before.waiting = next :: others) :
    before.grant heap = { before with waiting := others }.endWith next (.ok ()) := by
  rw [Schedule.grant, idle, isWaiting]
  simp only [enter, Persister.beginCycle_of_inactive discarded.inactive]

/-- Only a start is heard by a listener that takes no reports. -/
theorem hear_of_discarded (notStart : instant.moment ≠ .start) :
    instant.hear ⟨.empty, true⟩ = ⟨.empty, true⟩ := by
  rcases instant with ⟨heap, moment⟩
  cases moment with
  | start => exact absurd rfl notStart
  | report kind address gathered => exact Listener.record_stopped rfl _
  | stop => rfl
  | request cycle => rfl
  | grant => rfl
  | finish written => rfl
  | setStore store => rfl

/-- Nothing is taken, nothing is given to a store, and nothing is noted. -/
theorem Discarded.beat (discarded : Discarded pending before)
    (beat : Beat instant before events after) (notStart : instant.moment ≠ .start) :
    Discarded pending after ∧ ∀ event ∈ events, event.Late pending := by
  cases beat with
  | quiet hears writes writeFailures writing ended =>
      refine ⟨⟨?_, writing ▸ discarded.writing⟩, nofun⟩
      rw [hears, discarded.listener, hear_of_discarded notStart]
  | skip turn cycle waiting inactive =>
      refine ⟨⟨discarded.listener, discarded.writing⟩, fun event member => ?_⟩
      rw [List.mem_singleton.mp member]
      exact .skipped cycle
  | nothingNew turn cycle waiting idle active isStore nothing =>
      rw [discarded.inactive] at active
      cases active
  | write turn cycle waiting failures idle active isStore noted =>
      rw [discarded.inactive] at active
      cases active
  | @finish call written isFinish isWriting =>
      have wasUnderWay : pending = some call := by
        rcases discarded.writing with idle | same
        · cases idle.symm.trans isWriting
        · exact same.symm.trans isWriting
      have isOk : (before.persister.endCycle written).1 = .ok () := by
        cases written with
        | ok done => rfl
        | error failure =>
            have stillInactive : before.persister.countCycle.isActive = false :=
              discarded.inactive
            rw [Persister.endCycle, stillInactive]
            rfl
      refine ⟨⟨(listener_endCycle written before.persister).trans discarded.listener, Or.inl rfl⟩,
        fun event member => ?_⟩
      rw [List.mem_singleton.mp member, isOk]
      exact .ends wasUnderWay

theorem Discarded.beats (discarded : Discarded pending before)
    (beats : Beats instants before events after)
    (notStarts : ∀ instant ∈ instants, instant.moment ≠ .start) :
    Discarded pending after ∧ ∀ event ∈ events, event.Late pending := by
  induction beats with
  | nil schedule => exact ⟨discarded, nofun⟩
  | cons beat _ inductionHypothesis =>
      obtain ⟨still, first⟩ := discarded.beat beat (notStarts _ List.mem_cons_self)
      obtain ⟨atLast, others⟩ := inductionHypothesis still fun instant member =>
        notStarts instant (List.mem_cons_of_mem _ member)
      exact ⟨atLast, fun event member => (List.mem_append.mp member).elim (first event)
        (others event)⟩

end Schedule

namespace Traffic

variable {traffic now : Traffic} {moves later : List Move}

/-- Only a start is a start for the schedule. -/
theorem moment_ne_start {move : Move} (notResume : move.act ≠ .resume) (traffic : Traffic) :
    (traffic.instant move).moment ≠ .start := by
  rcases move with ⟨heap, act⟩
  cases act with
  | resume => exact absurd rfl notResume
  | record index =>
      simp only [instant, moment]
      split <;> nofun
  | request cycle => nofun
  | queue cycle => nofun
  | grant => nofun
  | finish written => nofun
  | look kind address => nofun
  | gather index found => nofun
  | run => nofun
  | discard => nofun
  | halt => nofun
  | setStore store => nofun

/-- What is so from a stop on, as long as the listener takes no reports again. -/
structure Silent (atStop : Schedule) (events : List CycleEvent) (now : Traffic) : Prop where
  /-- The window is empty, and the flag is up. -/
  listener : now.schedule.persister.listener = ⟨.empty, true⟩
  /-- No cycle takes a window or calls a store. -/
  shown : ∀ event ∈ events, event.Late atStop.writing
  /-- No write is under way but that of the stop. -/
  writing : now.schedule.writing = none ∨ now.schedule.writing = atStop.writing
  /-- All cycles that end succeed. -/
  ended : ∃ more, now.schedule.ended = atStop.ended ++ more ∧ ∀ ended ∈ more, ended.result = .ok ()
  /-- A cycle that is requested ends at once. -/
  requested : ∀ heap cycle,
    (now.pass ⟨heap, .request cycle⟩).schedule = now.schedule.endWith cycle (.ok ())
  /-- A cycle that has waited for its turn ends when it gets it. -/
  granted : ∀ heap next others, now.schedule.writing = none → now.schedule.waiting = next :: others →
    (now.pass ⟨heap, .grant⟩).schedule =
      { now.schedule with waiting := others }.endWith next (.ok ())

theorem silent_run (traffic : Traffic) (heap : Heap) (still : ∀ move ∈ moves, move.act ≠ .resume) :
    Silent traffic.schedule (traffic.log (⟨heap, .discard⟩ :: moves))
      (traffic.run (⟨heap, .discard⟩ :: moves)) := by
  have beats := beats_run moves (traffic.pass ⟨heap, .discard⟩)
  have atStop : Schedule.Discarded traffic.schedule.writing (traffic.pass ⟨heap, .discard⟩).schedule :=
    ⟨rfl, Or.inr rfl⟩
  obtain ⟨discarded, late⟩ := atStop.beats beats fun instant member => by
    obtain ⟨earlier, move, rest, isMoves, rfl⟩ := exists_of_mem_instants member
    exact moment_ne_start (still move (isMoves ▸ by simp)) _
  refine ⟨discarded.listener, late, discarded.writing, ⟨_, beats.tallies.ended, ?_⟩,
    fun _ cycle => discarded.request _ cycle, fun _ _ _ => discarded.grant _⟩
  intro ended member
  obtain ⟨event, isEvent, ends⟩ := List.mem_filterMap.mp member
  exact (late event isEvent).ended ends

/-! ## After the next start -/

/-- A report about an object under the key is taken by the listener. -/
def Records (naming : Address → ObjectKey) (key : ObjectKey) (move : Move) (traffic : Traffic) :
    Prop :=
  ∃ index kind address gathered, move.act = .record index ∧
    traffic.schedule.persister.listener.stopped = false ∧
    traffic.notices[index]? = some ⟨kind, address, some gathered⟩ ∧
    ∃ place ∈ address :: gathered, naming place = key

theorem records_of_reports {naming : Address → ObjectKey} {key : ObjectKey} {move : Move}
    (reports : (traffic.instant move).Reports naming key) : traffic.Records naming key move := by
  obtain ⟨kind, address, gathered, isReport, about⟩ := reports
  rcases move with ⟨heap, act⟩
  cases act with
  | record index =>
      simp only [instant, moment] at isReport
      split at isReport
      · rename_i kindFound addressFound gatheredFound running found
        cases isReport
        exact ⟨index, kind, address, gathered, rfl, running, found, about⟩
      · cases isReport
  | request cycle => cases isReport
  | queue cycle => cases isReport
  | grant => cases isReport
  | finish written => cases isReport
  | look kind address => cases isReport
  | gather index found => cases isReport
  | resume => cases isReport
  | run => cases isReport
  | discard => cases isReport
  | halt => cases isReport
  | setStore store => cases isReport

/-- What is written after a window was empty has been recorded after that. -/
theorem exists_records_of_handed {naming : Address → ObjectKey}
    (nothing : traffic.schedule.persister.listener.window = .empty)
    (named : ∀ move ∈ later, move.heap.NamedBy naming) {call : PendingWrite}
    (isHanded : .handed call ∈ traffic.log later) {kind : ObjectKind} {id : String}
    (touches : call.delta.Touches kind id) :
    ∃ earlier move rest, later = earlier ++ move :: rest ∧
      (traffic.run earlier).Records naming ⟨kind, id⟩ move := by
  by_contra unrecorded
  have lacks : traffic.schedule.persister.listener.window.Lacks ⟨kind, id⟩ :=
    nothing ▸ Window.lacks_empty ⟨kind, id⟩
  have isNamed : traffic.schedule.persister.listener.window.Named naming :=
    nothing ▸ Window.named_empty
  refine (beats_run later traffic).not_touches lacks isNamed (fun instant member => ?_) isHanded
    touches
  obtain ⟨earlier, move, rest, isLater, rfl⟩ := exists_of_mem_instants member
  refine ⟨named move (isLater ▸ by simp), fun reports => unrecorded ?_⟩
  exact ⟨earlier, move, rest, isLater, records_of_reports reports⟩

/-- However starts, stops and changes of the store, cycles and reports fall between each other: from a
stop on, until a start lets the listener take reports again, its window is empty after every step, no
cycle takes it or calls a store, and only the write that was under way ends. Whatever is in a delta
that is written after that start, the listener has recorded after that start. -/
theorem silent_until_restart (traffic : Traffic) (heap : Heap) {stopped : List Move}
    (still : ∀ move ∈ stopped, move.act ≠ .resume) :
    Silent traffic.schedule (traffic.log (⟨heap, .discard⟩ :: stopped))
        (traffic.run (⟨heap, .discard⟩ :: stopped)) ∧
      ∀ (restart : Heap) (naming : Address → ObjectKey) (later : List Move),
        (∀ move ∈ later, move.heap.NamedBy naming) → ∀ call kind id,
          call ∈ calls ((traffic.run (⟨heap, .discard⟩ :: stopped)).log
              (⟨restart, .resume⟩ :: later)) →
            call.delta.Touches kind id →
              ∃ earlier move rest, later = earlier ++ move :: rest ∧
                (traffic.run (⟨heap, .discard⟩ :: stopped ++ ⟨restart, .resume⟩ :: earlier)).Records
                  naming ⟨kind, id⟩ move := by
  have silent := silent_run traffic heap still
  refine ⟨silent, fun restart naming later named call kind id isHanded touches => ?_⟩
  have nothing : ((traffic.run (⟨heap, .discard⟩ :: stopped)).pass
      ⟨restart, .resume⟩).schedule.persister.listener.window = .empty :=
    congrArg Listener.window silent.listener
  obtain ⟨earlier, move, rest, isLater, records⟩ :=
    exists_records_of_handed nothing named (mem_calls.mp isHanded) touches
  refine ⟨earlier, move, rest, isLater, ?_⟩
  rw [run_append]
  exact records

section Sample

/-- A changed entity is looked at, and the stop comes before it is recorded. -/
private def beforeStop : List Move :=
  [.setStore (some ⟨0⟩), .resume, .run, .look .changed ⟨0⟩].map (Move.mk Schedule.oneEntity)

private def whileStopped : List Move :=
  [.gather 0 [], .record 0, .halt, .request 1].map (Move.mk Schedule.oneEntity)

/-- The first cycle after the restart finds nothing, and the second one finds a new change. -/
private def afterRestart : List Move :=
  [.run, .request 2, .look .changed ⟨0⟩, .gather 0 [], .record 0, .request 3].map
    (Move.mk Schedule.oneEntity)

theorem silent_until_restart_sample :
    Silent (fresh.run beforeStop).schedule
        ((fresh.run beforeStop).log (⟨Schedule.oneEntity, .discard⟩ :: whileStopped))
        ((fresh.run beforeStop).run (⟨Schedule.oneEntity, .discard⟩ :: whileStopped)) ∧
      ∃ call ∈ calls (((fresh.run beforeStop).run (⟨Schedule.oneEntity, .discard⟩ :: whileStopped)).log
          (⟨Schedule.oneEntity, .resume⟩ :: afterRestart)),
        call.delta.Touches .entity "e" ∧
          ∃ earlier move rest, afterRestart = earlier ++ move :: rest ∧
            ((fresh.run beforeStop).run (⟨Schedule.oneEntity, .discard⟩ :: whileStopped ++
              ⟨Schedule.oneEntity, .resume⟩ :: earlier)).Records (fun _ => ⟨.entity, "e"⟩) ⟨.entity, "e"⟩
                move := by
  have still : ∀ move ∈ whileStopped, move.act ≠ .resume := List.forall_mem_map.mpr (by simp)
  have named : ∀ move ∈ afterRestart, move.heap.NamedBy fun _ => ⟨.entity, "e"⟩ :=
    List.forall_mem_map.mpr fun _ _ => Schedule.namedBy_oneEntity
  have written : ∃ call ∈ calls (((fresh.run beforeStop).run
      (⟨Schedule.oneEntity, .discard⟩ :: whileStopped)).log (⟨Schedule.oneEntity, .resume⟩ :: afterRestart)),
        call.delta.Touches .entity "e" := by decide +kernel
  obtain ⟨silent, recorded⟩ := silent_until_restart (fresh.run beforeStop) Schedule.oneEntity still
  obtain ⟨call, isHanded, touches⟩ := written
  exact ⟨silent, call, isHanded, touches,
    recorded Schedule.oneEntity _ afterRestart named call .entity "e" isHanded touches⟩

end Sample

end Traffic

end GraphCheckpoint
