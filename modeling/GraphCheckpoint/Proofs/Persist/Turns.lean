import GraphCheckpoint.Proofs.Persist.Moments
import GraphCheckpoint.Proofs.Watch.Reports
import Mathlib.Data.List.Induction

/-!
Contract: the cycles of a persister take turns, whatever happens between them.

Owns:
- `Turn`, a cycle from the taking of its window to its completion;
- `Course`, the events of a run, turn by turn;
- the counters and the results of a run;
- the windows that a run takes, and the deltas that it gives to stores;
- `Schedule.Orderly` and `Schedule.Fair`, what is so of every run and of its next instant.

Does not own: how long a cycle waits, or what a store makes of a delta.
-/

namespace GraphCheckpoint

/-! ## Events -/

/-- A cycle from the taking of its window to its completion. -/
structure Turn where
  taking : Taking
  result : Outcome Unit

/-- The window is taken, and given to a store if there is something in it. -/
def Taking.events (taking : Taking) : List CycleEvent :=
  .took taking :: taking.call?.toList.map .handed

def Turn.events (turn : Turn) : List CycleEvent :=
  turn.taking.events ++ [.completed ⟨turn.taking.cycle, turn.result⟩]

def EndedCycle.failed (ended : EndedCycle) : Bool := !ended.result.isOk

namespace CycleEvent

def isSkipped : CycleEvent → Bool
  | .skipped _ => true
  | _ => false

/-- The taking of a window. -/
def taking? : CycleEvent → Option Taking
  | .took taking => some taking
  | _ => none

/-- The completion of a cycle. -/
def completion? : CycleEvent → Option EndedCycle
  | .completed ended => some ended
  | _ => none

/-- The end of a cycle, complete or skipped. -/
def ended? : CycleEvent → Option EndedCycle
  | .skipped cycle => some ⟨cycle, .ok ()⟩
  | .completed ended => some ended
  | _ => none

end CycleEvent

/-- The events of the cycles that find the persister active. -/
def entered (log : List CycleEvent) : List CycleEvent := log.filter fun event => !event.isSkipped

def completions (log : List CycleEvent) : List EndedCycle := log.filterMap CycleEvent.completion?

def takings (log : List CycleEvent) : List Taking := log.filterMap CycleEvent.taking?

theorem entered_append (first second : List CycleEvent) :
    entered (first ++ second) = entered first ++ entered second :=
  List.filter_append _ _

theorem completions_append (first second : List CycleEvent) :
    completions (first ++ second) = completions first ++ completions second :=
  List.filterMap_append

theorem takings_append (first second : List CycleEvent) :
    takings (first ++ second) = takings first ++ takings second :=
  List.filterMap_append

theorem mem_takings {taking : Taking} {log : List CycleEvent} :
    taking ∈ takings log ↔ .took taking ∈ log := by
  rw [takings, List.mem_filterMap]
  constructor
  · rintro ⟨event, member, isTaking⟩
    cases event <;> cases isTaking
    exact member
  · intro member
    exact ⟨_, member, rfl⟩

theorem completions_entered (log : List CycleEvent) :
    completions (entered log) = completions log := by
  rw [completions, entered, List.filterMap_filter]
  refine congrArg (fun select => List.filterMap select log) (funext fun event => ?_)
  cases event <;> rfl

theorem takings_entered (log : List CycleEvent) : takings (entered log) = takings log := by
  rw [takings, entered, List.filterMap_filter]
  refine congrArg (fun select => List.filterMap select log) (funext fun event => ?_)
  cases event <;> rfl

/-- Skipped cycles do not fail. -/
theorem countP_ended (log : List CycleEvent) :
    (log.filterMap CycleEvent.ended?).countP EndedCycle.failed =
      (completions log).countP EndedCycle.failed := by
  induction log with
  | nil => rfl
  | cons event rest inductionHypothesis =>
      have whole : completions (event :: rest) = completions [event] ++ completions rest :=
        completions_append [event] rest
      have ends : (event :: rest).filterMap CycleEvent.ended? =
          [event].filterMap CycleEvent.ended? ++ rest.filterMap CycleEvent.ended? :=
        List.filterMap_append (l := [event])
      rw [whole, ends, List.countP_append, List.countP_append, inductionHypothesis]
      cases event <;> rfl

theorem Taking.cycle_of_call? {taking : Taking} {call : PendingWrite}
    (leads : taking.call? = some call) : call.cycle = taking.cycle := by
  unfold Taking.call? at leads
  split at leads
  · cases leads
  · cases leads
    rfl

theorem Taking.delta_of_call? {taking : Taking} {call : PendingWrite}
    (leads : taking.call? = some call) :
    call.delta = (taking.window.toDelta taking.heap).1 := by
  unfold Taking.call? at leads
  split at leads
  · cases leads
  · cases leads
    rfl

namespace Schedule

variable {instant : Instant} {before after schedule : Schedule} {events : List CycleEvent}
variable {start finish : Option PendingWrite}

/-! ## Turn by turn -/

/-- The completion of the write that is under way. -/
inductive Closing : Option PendingWrite → List CycleEvent → Prop
  | nothing : Closing none []
  | completes (call : PendingWrite) (result : Outcome Unit) :
      Closing (some call) [.completed ⟨call.cycle, result⟩]

/-- The beginning of the turn whose write is under way. -/
inductive Opening : Option PendingWrite → List CycleEvent → Prop
  | nothing : Opening none []
  | begins {taking : Taking} {call : PendingWrite} (leads : taking.call? = some call) :
      Opening (some call) taking.events

/-- The events of the cycles of a run, from the write under way at its start to the one under way
at its end. -/
inductive Course (start : Option PendingWrite) : Option PendingWrite → List CycleEvent → Prop
  /-- The same write is still under way. -/
  | still : Course start start []
  /-- It completes, then whole turns follow, and then one may begin. -/
  | onwards {finish : Option PendingWrite} {closing opening : List CycleEvent}
      (closes : Closing start closing) (turns : List Turn) (opens : Opening finish opening) :
      Course start finish (closing ++ turns.flatMap Turn.events ++ opening)

/-- While no write is under way, all turns are over. -/
theorem Course.idle (course : Course start none events) : ∃ closing, Closing start closing ∧
    ∃ turns : List Turn, events = closing ++ turns.flatMap Turn.events := by
  cases course with
  | still => exact ⟨[], .nothing, [], rfl⟩
  | onwards closes turns opens =>
      cases opens
      exact ⟨_, closes, turns, List.append_nil _⟩

/-- A write under way is that of the turn that has begun last, or has been all the time. -/
theorem Course.busy {call : PendingWrite} (course : Course start (some call) events) :
    (start = some call ∧ events = []) ∨ ∃ closing, Closing start closing ∧
      ∃ turns : List Turn, ∃ taking : Taking, taking.call? = some call ∧
        events = closing ++ turns.flatMap Turn.events ++ taking.events := by
  cases course with
  | still => exact Or.inl ⟨rfl, rfl⟩
  | onwards closes turns opens =>
      cases opens with
      | begins leads => exact Or.inr ⟨_, closes, turns, _, leads, rfl⟩

/-- From a schedule without a write under way, whole turns follow each other. -/
theorem Course.fromIdle (course : Course none finish events) : ∃ (turns : List Turn) (opening : _),
    events = turns.flatMap Turn.events ++ opening ∧ Opening finish opening := by
  cases course with
  | still => exact ⟨[], [], rfl, .nothing⟩
  | onwards closes turns opens =>
      cases closes
      exact ⟨turns, _, rfl, opens⟩

/-- A further turn follows. -/
theorem Course.turn (course : Course start none events) (turn : Turn) :
    Course start none (events ++ turn.events) := by
  obtain ⟨closing, closes, turns, rfl⟩ := course.idle
  have longer := Course.onwards closes (turns ++ [turn]) .nothing
  rw [List.flatMap_append, List.flatMap_singleton, List.append_nil, ← List.append_assoc] at longer
  exact longer

/-- A further turn begins. -/
theorem Course.begin {taking : Taking} {call : PendingWrite} (course : Course start none events)
    (leads : taking.call? = some call) : Course start (some call) (events ++ taking.events) := by
  obtain ⟨closing, closes, turns, rfl⟩ := course.idle
  exact .onwards closes turns (.begins leads)

/-- The turn whose write is under way ends. -/
theorem Course.end {call : PendingWrite} (course : Course start (some call) events)
    (result : Outcome Unit) :
    Course start none (events ++ [.completed ⟨call.cycle, result⟩]) := by
  rcases course.busy with ⟨rfl, rfl⟩ | ⟨closing, closes, turns, taking, leads, rfl⟩
  · exact .onwards (.completes call result) [] .nothing
  · have longer := Course.onwards closes (turns ++ [⟨taking, result⟩]) .nothing
    rw [List.flatMap_append, List.flatMap_singleton, List.append_nil, Turn.events,
      ← Taking.cycle_of_call? leads, ← List.append_assoc, ← List.append_assoc] at longer
    exact longer

theorem Course.beat (course : Course start before.writing events)
    {more : List CycleEvent} (beat : Beat instant before more after) :
    Course start after.writing (events ++ entered more) := by
  cases beat with
  | quiet hears writes writeFailures writing ended =>
      rw [writing]
      exact (List.append_nil events).symm ▸ course
  | skip turn cycle waiting inactive => exact (List.append_nil events).symm ▸ course
  | @nothingNew turn cycle waiting store idle active isStore nothing =>
      rw [idle] at course
      have noCall : Taking.call? ⟨cycle, instant.heap, store,
          before.persister.listener.window⟩ = none := if_pos nothing
      have longer := course.turn ⟨⟨cycle, instant.heap, store,
        before.persister.listener.window⟩, .ok ()⟩
      rw [Turn.events, Taking.events, noCall] at longer
      show Course start before.writing _
      rw [idle]
      exact longer
  | @write turn cycle waiting failures store idle active isStore noted =>
      rw [idle] at course
      have call : Taking.call? ⟨cycle, instant.heap, store,
          before.persister.listener.window⟩ = some ⟨cycle, store,
            (before.persister.listener.window.toDelta instant.heap).1⟩ := by
        simp [Taking.call?, noted]
      have longer := course.begin call
      rw [Taking.events, call] at longer
      exact longer
  | finish isFinish isWriting =>
      rw [isWriting] at course
      exact course.end _

/-- The turns of a run follow each other. -/
theorem course_run (schedule : Schedule) (instants : List Instant) :
    Course schedule.writing (schedule.run instants).writing (entered (schedule.log instants)) := by
  induction instants using List.reverseRecOn with
  | nil => exact .still
  | append_singleton earlier instant inductionHypothesis =>
      rw [run_append, log_append, entered_append]
      have next := inductionHypothesis.beat (beat_pass instant (schedule.run earlier))
      simp only [run, log, List.append_nil]
      exact next

/-! ## Counters and results -/

/-- The counters and the results go along with what is seen. -/
structure Tallies (before : Schedule) (events : List CycleEvent) (after : Schedule) : Prop where
  writes : after.persister.writes = before.persister.writes + (completions events).length
  writeFailures : after.persister.writeFailures =
    before.persister.writeFailures + (completions events).countP EndedCycle.failed
  ended : after.ended = before.ended ++ events.filterMap CycleEvent.ended?

theorem Tallies.trans {between : Schedule} {more : List CycleEvent}
    (first : Tallies before events between) (second : Tallies between more after) :
    Tallies before (events ++ more) after where
  writes := by
    rw [second.writes, first.writes, completions_append, List.length_append, Nat.add_assoc]
  writeFailures := by
    rw [second.writeFailures, first.writeFailures, completions_append, List.countP_append,
      Nat.add_assoc]
  ended := by
    rw [second.ended, first.ended, List.filterMap_append, List.append_assoc]

/-- A write ends with a count, and a failure is counted as well if the cycle's result is one. -/
theorem endCycle_counts (written : Outcome Unit) (persister : Persister) (cycle : Nat) :
    (persister.endCycle written).2.writes = persister.writes + 1 ∧
      (persister.endCycle written).2.writeFailures = persister.writeFailures +
        [(⟨cycle, (persister.endCycle written).1⟩ : EndedCycle)].countP EndedCycle.failed := by
  cases written with
  | ok done => exact ⟨rfl, rfl⟩
  | error failure =>
      simp only [Persister.endCycle]
      split <;> exact ⟨rfl, rfl⟩

theorem Beat.tallies (beat : Beat instant before events after) : Tallies before events after := by
  cases beat with
  | quiet hears writes writeFailures writing ended =>
      exact ⟨writes, writeFailures, ended.trans (List.append_nil _).symm⟩
  | skip turn cycle waiting inactive => exact ⟨rfl, rfl, rfl⟩
  | nothingNew turn cycle waiting idle active isStore nothing => exact ⟨rfl, rfl, rfl⟩
  | write turn cycle waiting failures idle active isStore noted =>
      exact ⟨rfl, rfl, (List.append_nil _).symm⟩
  | @finish pending written isFinish isWriting =>
      have counts := endCycle_counts written before.persister pending.cycle
      exact ⟨counts.1, counts.2, rfl⟩

theorem Beats.tallies {instants : List Instant} (beats : Beats instants before events after) :
    Tallies before events after := by
  induction beats with
  | nil schedule => exact ⟨rfl, rfl, (List.append_nil _).symm⟩
  | cons beat _ inductionHypothesis => exact beat.tallies.trans inductionHypothesis

theorem tallies_run (schedule : Schedule) (instants : List Instant) :
    Tallies schedule (schedule.log instants) (schedule.run instants) :=
  (beats_run instants schedule).tallies

/-! ## Windows -/

theorem listener_endCycle (written : Outcome Unit) (persister : Persister) :
    (persister.endCycle written).2.listener = persister.listener := by
  cases written with
  | ok done => rfl
  | error failure =>
      simp only [Persister.endCycle]
      split <;> rfl

/-- While no window is taken, the listener hears what happens. -/
theorem Beat.hears (beat : Beat instant before events after) (untaken : takings events = []) :
    after.persister.listener = instant.hear before.persister.listener := by
  cases beat with
  | quiet hears writes writeFailures writing ended => exact hears
  | skip turn cycle waiting inactive => exact (turn.hear _).symm
  | nothingNew => cases untaken
  | write => cases untaken
  | finish isFinish isWriting =>
      refine (listener_endCycle _ _).trans ?_
      rw [Instant.hear, isFinish]

/-- A cycle that finds the persister inactive leaves it as it is. -/
theorem Beat.skipped {cycle : Nat} (beat : Beat instant before events after)
    (member : .skipped cycle ∈ events) :
    before.persister.isActive = false ∧ after.persister = before.persister := by
  cases beat with
  | quiet => cases member
  | skip turn other waiting inactive => exact ⟨inactive, rfl⟩
  | nothingNew => simp at member
  | write => simp at member
  | finish => simp at member

/-- A cycle takes what the listener of an active persister has collected, and leaves nothing. -/
theorem Beat.took {taking : Taking} (beat : Beat instant before events after)
    (member : .took taking ∈ events) : before.persister.isActive = true ∧
      taking.heap = instant.heap ∧ before.persister.store = some taking.store ∧
        taking.window = before.persister.listener.window ∧
          after.persister.listener.window = .empty := by
  cases beat with
  | quiet => cases member
  | skip => simp at member
  | @nothingNew turn cycle waiting store idle active isStore nothing =>
      have isTaking : taking = ⟨cycle, instant.heap, store, before.persister.listener.window⟩ := by
        simpa using member
      rw [isTaking]
      exact ⟨active, rfl, isStore, rfl, Window.eq_empty nothing⟩
  | @write turn cycle waiting failures store idle active isStore noted =>
      have isTaking : taking = ⟨cycle, instant.heap, store, before.persister.listener.window⟩ := by
        simpa using member
      rw [isTaking]
      exact ⟨active, rfl, isStore, rfl, rfl⟩
  | finish => simp at member

/-- Only a taken window is given to a store. -/
theorem Beat.handed {call : PendingWrite} (beat : Beat instant before events after)
    (member : .handed call ∈ events) :
    ∃ taking, .took taking ∈ events ∧ taking.call? = some call := by
  cases beat with
  | quiet => cases member
  | skip => simp at member
  | nothingNew => simp at member
  | @write turn cycle waiting failures store idle active isStore noted =>
      have isCall : call = ⟨cycle, store,
          (before.persister.listener.window.toDelta instant.heap).1⟩ := by
        simpa using member
      refine ⟨_, List.mem_cons_self, ?_⟩
      rw [isCall]
      simp [Taking.call?, noted]
  | finish => simp at member

/-- What an empty window has and reports keep, every window has that is taken. -/
theorem Beats.windows {property : Window → Prop} (empty : property .empty) {instants : List Instant}
    (beats : Beats instants before events after)
    (reports : ∀ instant ∈ instants, ∀ kind address gathered,
      instant.moment = .report kind address gathered →
        ∀ window, property window → property (kind.apply instant.heap address gathered window))
    (collected : property before.persister.listener.window) :
    property after.persister.listener.window ∧
      ∀ taking, .took taking ∈ events →
        property taking.window ∧ ∃ instant ∈ instants, taking.heap = instant.heap := by
  induction beats with
  | nil schedule => exact ⟨collected, nofun⟩
  | @cons instant later before between after events more beat _ inductionHypothesis =>
      have next : property between.persister.listener.window := by
        cases isShown : takings events with
        | nil =>
            rw [beat.hears isShown]
            exact Instant.hear_keeps empty (reports instant List.mem_cons_self) collected
        | cons taking others =>
            have isTaken : taking ∈ takings events := isShown ▸ List.mem_cons_self
            rw [(beat.took (mem_takings.mp isTaken)).2.2.2.2]
            exact empty
      obtain ⟨atLast, takings⟩ := inductionHypothesis
        (fun other member => reports other (List.mem_cons_of_mem _ member)) next
      refine ⟨atLast, fun taking member => ?_⟩
      rcases List.mem_append.mp member with first | others
      · obtain ⟨-, isHeap, -, isWindow, -⟩ := beat.took first
        exact ⟨isWindow ▸ collected, instant, List.mem_cons_self, isHeap⟩
      · obtain ⟨has, other, isLater, isHeap⟩ := takings taking others
        exact ⟨has, other, List.mem_cons_of_mem _ isLater, isHeap⟩

theorem windows_run {property : Window → Prop} (empty : property .empty) {instants : List Instant}
    (reports : ∀ instant ∈ instants, ∀ kind address gathered,
      instant.moment = .report kind address gathered →
        ∀ window, property window → property (kind.apply instant.heap address gathered window))
    (collected : property schedule.persister.listener.window) :
    property (schedule.run instants).persister.listener.window ∧
      ∀ taking, .took taking ∈ schedule.log instants →
        property taking.window ∧ ∃ instant ∈ instants, taking.heap = instant.heap :=
  (beats_run instants schedule).windows empty reports collected

theorem Beats.handed {call : PendingWrite} {instants : List Instant}
    (beats : Beats instants before events after) (member : .handed call ∈ events) :
    ∃ taking, .took taking ∈ events ∧ taking.call? = some call := by
  induction beats with
  | nil schedule => cases member
  | cons beat _ inductionHypothesis =>
      rcases List.mem_append.mp member with first | others
      · obtain ⟨taking, isTaken, leads⟩ := beat.handed first
        exact ⟨taking, List.mem_append_left _ isTaken, leads⟩
      · obtain ⟨taking, isTaken, leads⟩ := inductionHypothesis others
        exact ⟨taking, List.mem_append_right _ isTaken, leads⟩

theorem handed_run {call : PendingWrite} {instants : List Instant}
    (member : .handed call ∈ schedule.log instants) :
    ∃ taking, .took taking ∈ schedule.log instants ∧ taking.call? = some call :=
  (beats_run instants schedule).handed member

/-! ## Results -/

/-- A cycle fails if its write has failed and the persister is still active. -/
theorem Beat.completed {ended : EndedCycle} (beat : Beat instant before events after)
    (member : .completed ended ∈ events) (failure : Failure) :
    ended.result = .error failure ↔
      instant.moment = .finish (.error failure) ∧ before.persister.isActive = true := by
  cases beat with
  | quiet => cases member
  | skip => simp at member
  | nothingNew turn cycle waiting idle active isStore nothing =>
      have isOk : ended = ⟨cycle, .ok ()⟩ := by simpa using member
      constructor
      · intro fails
        rw [isOk] at fails
        cases fails
      · rintro ⟨isFinish, -⟩
        exact absurd isFinish (turn.not_finish _)
  | write => simp at member
  | @finish pending written isFinish isWriting =>
      have isResult : ended.result = (before.persister.endCycle written).1 := by
        have same : ended = ⟨pending.cycle, (before.persister.endCycle written).1⟩ := by
          simpa using member
        rw [same]
      rw [isResult, isFinish]
      cases written with
      | ok done => simp [Persister.endCycle]
      | error reason =>
          have sameActive : before.persister.countCycle.isActive = before.persister.isActive := rfl
          simp only [Persister.endCycle, sameActive]
          cases before.persister.isActive <;> simp

/-! ## Every run -/

/-- What is so of every run: the cycles take turns one at a time, each turn gives the window that it
takes to a store, if there is something in it, and everything is counted. -/
structure Orderly (log : List CycleEvent) (schedule : Schedule) : Prop where
  inTurn : ∃ (turns : List Turn) (unfinished : List CycleEvent),
    entered log = turns.flatMap Turn.events ++ unfinished ∧ Opening schedule.writing unfinished
  separate : ∀ call, .handed call ∈ log → call.delta.Separate
  writes : schedule.persister.writes = (completions log).length
  ended : schedule.ended = log.filterMap CycleEvent.ended?
  writeFailures : schedule.persister.writeFailures = schedule.ended.countP EndedCycle.failed
  bounded : schedule.persister.writeFailures ≤ schedule.persister.writes

/-- What is so of every instant: a cycle takes the window of an active persister as it is then, and
changes nothing if the persister is not active; it fails if its write has failed and the persister
is still active. -/
structure Fair (instant : Instant) (schedule : Schedule) : Prop where
  skipped : ∀ cycle, .skipped cycle ∈ schedule.shows instant →
    schedule.persister.isActive = false ∧ (schedule.pass instant).persister = schedule.persister
  took : ∀ taking, .took taking ∈ schedule.shows instant → schedule.persister.isActive = true ∧
    taking.heap = instant.heap ∧ schedule.persister.store = some taking.store ∧
      taking.window = schedule.persister.listener.window ∧
        (schedule.pass instant).persister.listener.window = .empty
  completed : ∀ ended, .completed ended ∈ schedule.shows instant → ∀ failure : Failure,
    ended.result = .error failure ↔
      instant.moment = .finish (.error failure) ∧ schedule.persister.isActive = true

theorem fair (instant : Instant) (schedule : Schedule) : Fair instant schedule where
  skipped := fun _ member => (beat_pass instant schedule).skipped member
  took := fun _ member => (beat_pass instant schedule).took member
  completed := fun _ member => (beat_pass instant schedule).completed member

/-- The deltas of a run are separate where addresses keep their kinds and ids. -/
theorem separate_run {naming : Address → ObjectKey} {instants : List Instant}
    (named : ∀ instant ∈ instants, instant.heap.NamedBy naming) {call : PendingWrite}
    (member : .handed call ∈ fresh.log instants) : call.delta.Separate := by
  obtain ⟨taking, isTaken, leads⟩ := handed_run member
  have windows := @windows_run fresh (fun window => window.Apart ∧ window.Named naming)
    ⟨Window.apart_empty, Window.named_empty⟩ instants
    (fun instant isInstant kind address gathered _ window has =>
      ⟨has.1.apply kind, has.2.apply (named instant isInstant) kind⟩)
    ⟨Window.apart_empty, Window.named_empty⟩
  obtain ⟨has, instant, isInstant, isHeap⟩ := windows.2 taking isTaken
  rw [Taking.delta_of_call? leads]
  exact Window.separate_toDelta has.1 has.2 (isHeap ▸ named instant isInstant)

/-- However cycles, reports, starts, stops and changes of the store follow each other, windows reach
the stores once, in order, and one at a time. -/
theorem orderly_run (naming : Address → ObjectKey) (instants : List Instant)
    (named : ∀ instant ∈ instants, instant.heap.NamedBy naming) (next : Instant) :
    Orderly (fresh.log instants) (fresh.run instants) ∧ Fair next (fresh.run instants) := by
  have tallies := tallies_run fresh instants
  have ended : (fresh.run instants).ended =
      (fresh.log instants).filterMap CycleEvent.ended? := tallies.ended.trans (List.nil_append _)
  have writes : (fresh.run instants).persister.writes =
      (completions (fresh.log instants)).length := tallies.writes.trans (Nat.zero_add _)
  have failures : (fresh.run instants).persister.writeFailures =
      (completions (fresh.log instants)).countP EndedCycle.failed :=
    tallies.writeFailures.trans (Nat.zero_add _)
  refine ⟨⟨?_, fun call => separate_run named, writes, ended, ?_, ?_⟩, fair next _⟩
  · exact (course_run fresh instants).fromIdle
  · rw [failures, ended, countP_ended]
  · rw [failures, writes]
    exact List.countP_le_length

/-- One entity lives. -/
def oneEntity : Heap := (Heap.empty.create (.blank .entity "e" "App")).2

theorem namedBy_oneEntity : oneEntity.NamedBy fun _ => ⟨.entity, "e"⟩ := by
  intro address object isObject
  rw [oneEntity, Heap.object?_create] at isObject
  split at isObject
  · cases isObject
    rfl
  · have nothing : Heap.empty.object? address = none := by simp [Heap.empty, Heap.object?]
    rw [nothing] at isObject
    cases isObject

/-- The second cycle waits for the first one, whose write fails; its own write fails after a stop. -/
private def twoCycles : List Instant :=
  [.setStore (some ⟨0⟩), .start, .report .changed ⟨0⟩ [], .request 1, .report .unmanaged ⟨0⟩ [],
    .request 2, .finish (.error (.storage "disk full")), .grant, .stop,
    .finish (.error (.storage "disk full")), .request 3].map (Instant.mk oneEntity)

theorem orderly_run_twoCycles :
    (∀ instant ∈ twoCycles, instant.heap.NamedBy fun _ => ⟨.entity, "e"⟩) ∧
      ((fresh.run twoCycles).persister.writes = 2 ∧
        (fresh.run twoCycles).persister.writeFailures = 1) ∧
      Orderly (fresh.log twoCycles) (fresh.run twoCycles) ∧
      Fair ⟨oneEntity, .grant⟩ (fresh.run twoCycles) := by
  have named : ∀ instant ∈ twoCycles, instant.heap.NamedBy fun _ => ⟨.entity, "e"⟩ := by
    intro instant member
    obtain ⟨moment, -, rfl⟩ := List.mem_map.mp member
    exact namedBy_oneEntity
  exact ⟨named, by decide +kernel, orderly_run _ twoCycles named ⟨oneEntity, .grant⟩⟩

end Schedule

end GraphCheckpoint
