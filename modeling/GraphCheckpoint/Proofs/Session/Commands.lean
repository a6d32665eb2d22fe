import GraphCheckpoint.Proofs.Session.Opening
import GraphCheckpoint.Proofs.Watch.Current
import Mathlib.Data.List.Induction

/-!
Contract: programs in which the manager starts, gets its store and loses it at any time.

Owns:
- `Command`, a step of such a program, and what a list of commands makes and watches;
- `Roster`, that the names, the kinds and ids, and the watched objects of a session are those that the
  commands before it tell of;
- that every action keeps the roster.

Does not own: what is handed to the store.
-/

namespace GraphCheckpoint.Session

/-- A step of a program in which the manager need not be active. -/
inductive Command where
  | act (action : Action)
  /-- Starts the manager. -/
  | start
  /-- Gives the manager a store, or takes its store away. -/
  | setBackend (name : Option String)

namespace Command

def step : Command → Step Unit
  | .act action => action.step
  | .start => mapManager Manager.start
  | .setBackend name => discard (Session.setBackend name)

def typed (session : Session) : Command → Bool
  | .act action => action.typed session
  | _ => true

/-- The deltas that the command hands to the store. -/
def handed (session : Session) : Command → List (Delta LiveValue)
  | .act .persist => (takenDelta? session).toList
  | _ => []

/-- The kind and the id of the entity or policy that the command makes. -/
def made? : Command → Option ObjectKey
  | .act (.make kind _ id _) => if kind = .location then none else some ⟨kind, id⟩
  | _ => none

/-- The name of the object that the command manages. -/
def managed? : Command → Option String
  | .act (.manage name) => some name
  | _ => none

/-- The names of the managed objects after the command. -/
def keep (held : List String) : Command → List String
  | .act (.manage name) => name :: held
  | .act (.unmanage name) => held.filter fun other => other ≠ name
  | _ => held

end Command

/-- The kinds and ids of the entities and policies that the commands make. -/
def madeKeys (commands : List Command) : List ObjectKey := commands.filterMap Command.made?

/-- The names of the objects that the commands manage at some time. -/
def everManaged (commands : List Command) : List String := commands.filterMap Command.managed?

/-- The names of the objects that are managed after the commands. -/
def managedAfter (commands : List Command) : List String := commands.foldl Command.keep []

variable {index : Nat} {before after : Session} {done : List Command} {command : Command}
variable {action : Action} {name other : String} {x : Address} {key : ObjectKey}

/-! ## What a list of commands tells -/

theorem handed_of_noCycle {session : Session} (noCycle : command ≠ .act .persist) :
    command.handed session = [] := by
  cases command with
  | start => rfl
  | setBackend name => rfl
  | act action =>
      cases action with
      | persist => exact absurd rfl noCycle
      | _ => rfl

theorem madeKeys_concat (done : List Command) (command : Command) :
    madeKeys (done ++ [command]) = madeKeys done ++ command.made?.toList := by
  rw [madeKeys, madeKeys, List.filterMap_append]
  cases isMade : command.made? <;> simp [isMade]

theorem everManaged_concat (done : List Command) (command : Command) :
    everManaged (done ++ [command]) = everManaged done ++ command.managed?.toList := by
  rw [everManaged, everManaged, List.filterMap_append]
  cases isManaged : command.managed? <;> simp [isManaged]

theorem managedAfter_concat (done : List Command) (command : Command) :
    managedAfter (done ++ [command]) = command.keep (managedAfter done) := by
  rw [managedAfter, managedAfter, List.foldl_append]
  rfl

/-- What is managed has been managed at some time. -/
theorem mem_everManaged (member : name ∈ managedAfter done) : name ∈ everManaged done := by
  induction done using List.reverseRecOn with
  | nil => cases member
  | append_singleton earlier command inductionHypothesis =>
      rw [managedAfter_concat] at member
      rw [everManaged_concat, List.mem_append]
      cases command with
      | start => exact Or.inl (inductionHypothesis member)
      | setBackend store => exact Or.inl (inductionHypothesis member)
      | act action =>
          cases action with
          | manage other =>
              rcases List.mem_cons.mp member with isOther | isEarlier
              · exact Or.inr (List.mem_singleton.mpr isOther)
              · exact Or.inl (inductionHypothesis isEarlier)
          | unmanage other => exact Or.inl (inductionHypothesis (List.mem_filter.mp member).1)
          | _ => exact Or.inl (inductionHypothesis member)

/-- The command makes nothing, and neither begins nor ends any watching. -/
def Command.Plain (command : Command) : Prop :=
  command.made? = none ∧ command.managed? = none ∧ ∀ held, command.keep held = held

theorem Action.IsChange.plain (isChange : action.IsChange) : (Command.act action).Plain := by
  cases action with
  | change name mutation => exact ⟨rfl, rfl, fun _ => rfl⟩
  | attach owner target asEnricher => exact ⟨rfl, rfl, fun _ => rfl⟩
  | link parent child => exact ⟨rfl, rfl, fun _ => rfl⟩
  | make kind name id typeName => exact isChange.elim
  | manage name => exact isChange.elim
  | unmanage name => exact isChange.elim
  | persist => exact isChange.elim

theorem plain_persist : (Command.act .persist).Plain := ⟨rfl, rfl, fun _ => rfl⟩

theorem plain_start : Command.start.Plain := ⟨rfl, rfl, fun _ => rfl⟩

theorem plain_setBackend (name : Option String) : (Command.setBackend name).Plain :=
  ⟨rfl, rfl, fun _ => rfl⟩

/-! ## The roster -/

/-- Every object has one name, and what is made, watched and noted as removed is told by the commands
that have led here. -/
structure Roster (done : List Command) (session : Session) : Prop where
  apart : ∀ {name other x}, session.objects.get? name = some x →
    session.objects.get? other = some x → name = other
  bound : ∀ {name x}, session.objects.get? name = some x →
    ∃ object, session.heap.object? x = some object
  made : ∀ {key x}, key.kind ≠ .location → session.heap.Holds key x → key ∈ madeKeys done
  managed : ∀ {name}, name ∈ managedAfter done ↔
    ∃ x, session.objects.get? name = some x ∧ session.heap.Watched x
  removed : ∀ {kind id}, id ∈ (session.window.part kind).removed →
    ∃ name ∈ everManaged done, ∃ x, session.objects.get? name = some x ∧
      session.heap.Holds ⟨kind, id⟩ x

theorem roster_of_nothing {session : Session} {service : Service}
    (standing : session.Standing index service [] .empty .empty) : Roster [] session := by
  have noName : ∀ name, session.objects.get? name = none := by
    rw [standing.names]
    exact fun _ => rfl
  refine ⟨fun isNamed => ?_, fun isNamed => ?_, ?_, ⟨nofun, ?_⟩, fun {kind id} isRemoved => ?_⟩
  · rw [noName] at isNamed
    cases isNamed
  · rw [noName] at isNamed
    cases isNamed
  · rintro key x - ⟨object, isObject, -⟩
    rw [standing.heap, Heap.object?_empty] at isObject
    cases isObject
  · rintro ⟨x, isNamed, -⟩
    rw [noName] at isNamed
    cases isNamed
  · rw [standing.window_eq] at isRemoved
    cases kind <;> cases isRemoved

/-- Reports of changes remove nothing. -/
theorem removed_hearAll {heap : Heap} {addresses : List Address} {before after : Window}
    (hears : heap.HearsAll addresses before after) (kind : ObjectKind) :
    (after.part kind).removed = (before.part kind).removed := by
  induction hears with
  | nil => rfl
  | cons hears _ inductionHypothesis =>
      refine inductionHypothesis.trans ?_
      cases hears with
      | watched _ => exact (Window.notes_recordWith _ _ _ _).removed kind
      | unwatched _ => rfl

section Roster

variable (roster : Roster done before)

include roster

/-- A name that is managed no more belongs to an object that is not watched. -/
theorem Roster.watched_iff (isNamed : before.objects.get? name = some x) :
    before.heap.Watched x ↔ name ∈ managedAfter done := by
  refine ⟨fun watched => roster.managed.mpr ⟨x, isNamed, watched⟩, fun isManaged => ?_⟩
  obtain ⟨y, isNamedToo, watched⟩ := roster.managed.mp isManaged
  rw [isNamed] at isNamedToo
  cases isNamedToo
  exact watched

/-- No name stands for the place where the next object will be. -/
theorem Roster.ne_last : before.objects.get? name ≠ some ⟨before.heap.objects.size⟩ := by
  intro isLast
  obtain ⟨object, isObject⟩ := roster.bound isLast
  rw [Heap.object?, Array.getElem?_eq_none (Nat.le_refl _)] at isObject
  cases isObject

/-- What is watched once a named object has another listener. -/
theorem Roster.watched_listening {listener : Option ListenerRef} {y : Address}
    (isNamed : before.objects.get? name = some x) (isOther : before.objects.get? other = some y) :
    (before.heap.listening x listener).Watched y ↔
      if other = name then listener.isSome = true else before.heap.Watched y := by
  obtain ⟨object, isObject⟩ := roster.bound isNamed
  rw [Heap.Watched, Heap.object?_listening]
  by_cases isName : other = name
  · subst isName
    rw [isNamed] at isOther
    cases isOther
    rw [if_pos rfl, if_pos rfl, isObject]
    simp
  · have differs : y ≠ x := by
      rintro rfl
      exact isName (roster.apart isOther isNamed)
    rw [if_neg differs, if_neg isName]
    rfl

/-- A command that makes nothing, and neither begins nor ends any watching. -/
theorem Roster.plain (plain : command.Plain) (objects : after.objects = before.objects)
    (same : before.heap.SameRoles after.heap)
    (fewer : ∀ kind id, id ∈ (after.window.part kind).removed →
      id ∈ (before.window.part kind).removed) : Roster (done ++ [command]) after := by
  obtain ⟨noneMade, noneManaged, keepsAll⟩ := plain
  refine ⟨?_, ?_, ?_, ?_, ?_⟩
  · rw [objects]
    exact roster.apart
  · intro name x isNamed
    rw [objects] at isNamed
    obtain ⟨object, isObject⟩ := roster.bound isNamed
    obtain ⟨changed, isChanged, -⟩ := same.exists_object isObject
    exact ⟨changed, isChanged⟩
  · intro key x notLocation holds
    rw [madeKeys_concat, noneMade, Option.toList_none, List.append_nil]
    exact roster.made notLocation (same.holds_iff.mp holds)
  · intro name
    rw [managedAfter_concat, keepsAll, roster.managed, objects]
    simp only [same.watched_iff]
  · intro kind id isRemoved
    rw [everManaged_concat, noneManaged, Option.toList_none, List.append_nil, objects]
    obtain ⟨name, isManaged, x, isNamed, holds⟩ := roster.removed (fewer kind id isRemoved)
    exact ⟨name, isManaged, x, isNamed, same.holds_iff.mpr holds⟩

theorem Roster.make {kind : ObjectKind} {id typeName : String}
    (isNew : before.objects.get? name = none)
    (objects : after.objects = before.objects.insert name ⟨before.heap.objects.size⟩)
    (heap : after.heap = (before.heap.create (.blank kind id typeName)).2)
    (window : after.window = before.window) :
    Roster (done ++ [.act (.make kind name id typeName)]) after := by
  have isKey : (LiveObject.blank kind id typeName).key = ⟨kind, id⟩ := by cases kind <;> rfl
  have isNamed : ∀ other x, after.objects.get? other = some x ↔
      (other = name ∧ x = ⟨before.heap.objects.size⟩) ∨ before.objects.get? other = some x := by
    rw [objects]
    exact fun other x => Table.get?_insert_of_none isNew _
  have watchedIff : ∀ other x, before.objects.get? other = some x →
      (after.heap.Watched x ↔ before.heap.Watched x) := by
    intro other x isOther
    obtain ⟨object, isObject⟩ := roster.bound isOther
    rw [heap]
    exact Heap.watched_create isObject _
  refine ⟨?_, ?_, ?_, ?_, ?_⟩
  · intro first second x isFirst isSecond
    rcases (isNamed first x).mp isFirst with ⟨rfl, rfl⟩ | wasFirst
    · rcases (isNamed second _).mp isSecond with ⟨rfl, -⟩ | wasSecond
      · rfl
      · exact absurd wasSecond roster.ne_last
    · rcases (isNamed second x).mp isSecond with ⟨rfl, rfl⟩ | wasSecond
      · exact absurd wasFirst roster.ne_last
      · exact roster.apart wasFirst wasSecond
  · intro other x isOther
    rw [heap, Heap.object?_create]
    rcases (isNamed other x).mp isOther with ⟨-, rfl⟩ | wasNamed
    · exact ⟨_, if_pos rfl⟩
    · obtain ⟨object, isObject⟩ := roster.bound wasNamed
      split
      · exact ⟨_, rfl⟩
      · exact ⟨object, isObject⟩
  · intro key x notLocation holds
    rw [madeKeys_concat, List.mem_append]
    rw [heap] at holds
    rcases Heap.holds_create holds with isOld | ⟨-, isNewKey⟩
    · exact Or.inl (roster.made notLocation isOld)
    · rw [isKey] at isNewKey
      subst isNewKey
      exact Or.inr (by simp [Command.made?, notLocation])
  · intro other
    rw [managedAfter_concat]
    show other ∈ managedAfter done ↔ _
    rw [roster.managed]
    constructor
    · rintro ⟨x, wasNamed, watched⟩
      exact ⟨x, (isNamed other x).mpr (Or.inr wasNamed), (watchedIff other x wasNamed).mpr watched⟩
    · rintro ⟨x, isOther, watched⟩
      rcases (isNamed other x).mp isOther with ⟨-, rfl⟩ | wasNamed
      · obtain ⟨object, isObject, listens⟩ := watched
        rw [heap, Heap.object?_create, if_pos rfl] at isObject
        cases isObject
        cases listens
      · exact ⟨x, wasNamed, (watchedIff other x wasNamed).mp watched⟩
  · intro kind id isRemoved
    rw [window] at isRemoved
    obtain ⟨other, isManaged, x, wasNamed, holds⟩ := roster.removed isRemoved
    refine ⟨other, ?_, x, (isNamed other x).mpr (Or.inr wasNamed), ?_⟩
    · rw [everManaged_concat]
      exact List.mem_append_left _ isManaged
    · rw [heap]
      exact (Heap.extends_create _).holds _ x holds

/-- Another listener of a named object. -/
theorem Roster.listening {listener : Option ListenerRef} (isNamed : before.objects.get? name = some x)
    (noneMade : command.made? = none) (objects : after.objects = before.objects)
    (heap : after.heap = before.heap.listening x listener)
    (keeps : ∀ other, other ∈ command.keep (managedAfter done) ↔
      if other = name then listener.isSome = true else other ∈ managedAfter done)
    (removed : ∀ kind id, id ∈ (after.window.part kind).removed →
      id ∈ (before.window.part kind).removed ∨
        (name ∈ everManaged done ∧ before.heap.Holds ⟨kind, id⟩ x)) :
    Roster (done ++ [command]) after := by
  have holdsIff : ∀ {key y}, after.heap.Holds key y ↔ before.heap.Holds key y := by
    rw [heap]
    exact ⟨Heap.holds_of_listening, (Heap.samePlaces_listening x listener before.heap).growth.holds _ _⟩
  refine ⟨?_, ?_, ?_, ?_, ?_⟩
  · rw [objects]
    exact roster.apart
  · intro other y isOther
    rw [objects] at isOther
    obtain ⟨known, isKnown⟩ := roster.bound isOther
    obtain ⟨found, isFound, -⟩ := holdsIff.mpr ⟨known, isKnown, rfl⟩
    exact ⟨found, isFound⟩
  · intro key y notLocation holds
    rw [madeKeys_concat, noneMade, Option.toList_none, List.append_nil]
    exact roster.made notLocation (holdsIff.mp holds)
  · intro other
    have watchedIff : ∀ y, before.objects.get? other = some y → (after.heap.Watched y ↔
        if other = name then listener.isSome = true else before.heap.Watched y) := by
      rw [heap]
      exact fun y isOther => roster.watched_listening isNamed isOther
    rw [managedAfter_concat, keeps, objects]
    by_cases isName : other = name
    · subst isName
      rw [if_pos rfl]
      constructor
      · exact fun listens => ⟨x, isNamed, (watchedIff x isNamed).mpr (by rwa [if_pos rfl])⟩
      · rintro ⟨y, isOther, watched⟩
        simpa using (watchedIff y isOther).mp watched
    · rw [if_neg isName, roster.managed]
      constructor
      · rintro ⟨y, isOther, watched⟩
        exact ⟨y, isOther, (watchedIff y isOther).mpr (by rwa [if_neg isName])⟩
      · rintro ⟨y, isOther, watched⟩
        exact ⟨y, isOther, by simpa [isName] using (watchedIff y isOther).mp watched⟩
  · intro kind id isRemoved
    rw [everManaged_concat, objects]
    rcases removed kind id isRemoved with wasRemoved | ⟨wasManaged, holds⟩
    · obtain ⟨other, isManaged, y, isOther, holds⟩ := roster.removed wasRemoved
      exact ⟨other, List.mem_append_left _ isManaged, y, isOther, holdsIff.mpr holds⟩
    · exact ⟨name, List.mem_append_left _ wasManaged, x, isNamed, holdsIff.mpr holds⟩

/-- Every action that runs no cycle keeps the roster. -/
theorem Roster.effect (effect : Effect index before after action) :
    Roster (done ++ [.act action]) after := by
  cases effect with
  | made isNew objects heap window => exact roster.make isNew objects heap window
  | changed isChange objects same _ _ hears =>
      apply roster.plain isChange.plain objects same
      intro kind id isRemoved
      rwa [removed_hearAll hears kind] at isRemoved
  | linked _ _ objects same _ _ window =>
      apply roster.plain ⟨rfl, rfl, fun _ => rfl⟩ objects same
      intro kind id isRemoved
      rwa [window] at isRemoved
  | @managed name address object isNamed isObject _ objects heap window =>
      refine roster.listening isNamed rfl objects heap (fun other => ?_)
        fun kind id isRemoved => Or.inl ?_
      · rw [Command.keep, List.mem_cons]
        split
        · rename_i isName
          simp [isName]
        · rename_i differs
          simp [differs]
      · rw [window, (Window.notes_recordWith _ _ _ _).removed kind] at isRemoved
        exact isRemoved
  | @unmanaged name address object isNamed isObject _ objects heap window =>
      refine roster.listening isNamed rfl objects heap (fun other => ?_) fun kind id isRemoved => ?_
      · rw [Command.keep, List.mem_filter]
        split
        · rename_i isName
          simp [isName]
        · rename_i differs
          simp [differs]
      · rw [window] at isRemoved
        split at isRemoved
        · rename_i listens
          have isManaged := (roster.watched_iff isNamed).mp ⟨object, isObject, listens⟩
          rcases Window.mem_removed_recordRemoved.mp isRemoved with isKey | wasRemoved
          · exact Or.inr ⟨mem_everManaged isManaged, object, isObject, isKey.symm⟩
          · exact Or.inl wasRemoved
        · exact Or.inl isRemoved

end Roster

end GraphCheckpoint.Session
