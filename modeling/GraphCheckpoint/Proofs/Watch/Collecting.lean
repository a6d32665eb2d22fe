import GraphCheckpoint.Proofs.Watch.Reports
import Mathlib.Data.List.Sort

/-!
Contract: windows told by what was recorded in them.

Owns:
- `Recording` and `CollectorCall`, what a collector is called with, and the windows it hands out;
- `Window.Determined`, the window that recordings leave, told by the recordings alone;
- that every window is determined by the recordings since the swap before it, whatever their order.

Does not own: who records, or whether a listener has been stopped.
-/

namespace GraphCheckpoint

/-! ## Recordings -/

/-- One call that notes something in a window. -/
inductive Recording where
  | changed (key : ObjectKey) (address : Address)
  | removed (key : ObjectKey)
deriving DecidableEq, Repr

namespace Recording

/-- What a recording does to a window. -/
def apply : Recording → Window → Window
  | .changed key address => Window.recordChanged key address
  | .removed key => Window.recordRemoved key

/-- The object that a recording puts under a key. -/
def object? (key : ObjectKey) : Recording → Option Address
  | .changed other address => if key = other then some address else none
  | .removed _ => none

/-- The first object recorded under a key. -/
def firstObject? (key : ObjectKey) (recordings : List Recording) : Option Address :=
  recordings.findSome? (object? key)

/-- No key is recorded with two objects. -/
def Consistent (recordings : List Recording) : Prop :=
  ∀ {key : ObjectKey} {address other : Address}, .changed key address ∈ recordings →
    .changed key other ∈ recordings → address = other

variable {key : ObjectKey} {address : Address} {recordings : List Recording}

theorem object?_eq_some_iff {recording : Recording} :
    recording.object? key = some address ↔ recording = .changed key address := by
  cases recording with
  | changed other place =>
      rw [object?, Recording.changed.injEq]
      split
      · rename_i same
        rw [Option.some.injEq, and_iff_right same.symm]
      · rename_i differs
        exact ⟨nofun, fun same => absurd same.1.symm differs⟩
  | removed other => exact ⟨nofun, nofun⟩

theorem firstObject?_concat (key : ObjectKey) (recordings : List Recording)
    (recording : Recording) :
    firstObject? key (recordings ++ [recording]) =
      (firstObject? key recordings).or (recording.object? key) := by
  rw [firstObject?, List.findSome?_append, List.findSome?_singleton]
  rfl

/-- Where a key has one object, the first one is any. -/
theorem firstObject?_eq_some_iff (consistent : Consistent recordings) :
    firstObject? key recordings = some address ↔ .changed key address ∈ recordings := by
  constructor
  · intro first
    obtain ⟨recording, member, given⟩ := List.exists_of_findSome?_eq_some first
    exact object?_eq_some_iff.mp given ▸ member
  · intro member
    cases first : firstObject? key recordings with
    | none =>
        have nothing := List.findSome?_eq_none_iff.mp first _ member
        rw [object?_eq_some_iff.mpr rfl] at nothing
        cases nothing
    | some other =>
        obtain ⟨recording, isMember, given⟩ := List.exists_of_findSome?_eq_some first
        rw [object?_eq_some_iff.mp given] at isMember
        rw [consistent isMember member]

/-- Which objects are first does not hang on the order, where each key has one object. -/
theorem firstObject?_perm (consistent : Consistent recordings) {others : List Recording}
    (reordered : recordings.Perm others) (key : ObjectKey) :
    firstObject? key others = firstObject? key recordings := by
  have othersConsistent : Consistent others := fun first second =>
    consistent (reordered.mem_iff.mpr first) (reordered.mem_iff.mpr second)
  refine Option.ext fun address => ?_
  rw [firstObject?_eq_some_iff consistent, firstObject?_eq_some_iff othersConsistent,
    reordered.mem_iff]

end Recording

/-! ## One window -/

/-- A part in the one form that its contents have. -/
structure WindowPart.Tidy (part : WindowPart) : Prop where
  ordered : part.changed.Ordered
  ascending : part.removed.Pairwise (· < ·)

namespace WindowPart

variable {part other : WindowPart}

theorem tidy_empty : WindowPart.empty.Tidy := ⟨List.Pairwise.nil, List.Pairwise.nil⟩

theorem Tidy.recordChanged (tidy : part.Tidy) (id : String) (address : Address) :
    (part.recordChanged id address).Tidy where
  ordered := ordered_recordChanged tidy.ordered id address
  ascending := by
    rw [removed_recordChanged]
    exact tidy.ascending

theorem Tidy.recordRemoved (tidy : part.Tidy) (id : String) : (part.recordRemoved id).Tidy where
  ordered := tidy.ordered.erase id
  ascending := IdSet.ascending_insert tidy.ascending

theorem Tidy.ext (tidy : part.Tidy) (otherTidy : other.Tidy)
    (changed : ∀ id, part.changed.get? id = other.changed.get? id)
    (removed : ∀ id, id ∈ part.removed ↔ id ∈ other.removed) : part = other := by
  have sameChanged := tidy.ordered.ext otherTidy.ordered changed
  have sameRemoved := tidy.ascending.eq_of_mem_iff otherTidy.ascending removed
  obtain ⟨_, _⟩ := part
  obtain ⟨_, _⟩ := other
  exact congrArg₂ WindowPart.mk sameChanged sameRemoved

end WindowPart

namespace Window

open Recording

variable {window other : Window} {recordings : List Recording}

/-- What recordings leave of an empty window. -/
def ofRecordings (recordings : List Recording) : Window :=
  recordings.foldl (fun window recording => recording.apply window) .empty

/-- The window that recordings leave: the ids recorded as removed, and under each other id that was
recorded the first object recorded under it. -/
structure Determined (recordings : List Recording) (window : Window) : Prop where
  tidy : ∀ kind, (window.part kind).Tidy
  removed : ∀ kind id, id ∈ (window.part kind).removed ↔ .removed ⟨kind, id⟩ ∈ recordings
  changed : ∀ kind id, (window.part kind).changed.get? id =
    if .removed ⟨kind, id⟩ ∈ recordings then none else firstObject? ⟨kind, id⟩ recordings

theorem determined_empty : Window.empty.Determined [] where
  tidy := by
    intro kind
    cases kind <;> exact WindowPart.tidy_empty
  removed := by
    intro kind id
    cases kind <;> exact ⟨nofun, nofun⟩
  changed := by
    intro kind id
    cases kind <;> rfl

/-- An object is noted unless its key has been removed or noted. -/
theorem Determined.recordChanged (determined : window.Determined recordings) (key : ObjectKey)
    (address : Address) :
    (window.recordChanged key address).Determined (recordings ++ [.changed key address]) := by
  have removals : ∀ other, .removed other ∈ recordings ++ [Recording.changed key address] ↔
      .removed other ∈ recordings := by
    simp
  refine ⟨fun kind => ?_, fun kind id => ?_, fun kind id => ?_⟩
  · rw [part_recordChanged]
    split
    · exact (determined.tidy kind).recordChanged key.id address
    · exact determined.tidy kind
  · rw [removed_recordChanged, removals, determined.removed kind id]
  · rw [get?_recordChanged, determined.changed kind id, firstObject?_concat, object?]
    simp only [removals, determined.removed kind id]
    by_cases gone : .removed ⟨kind, id⟩ ∈ recordings
    · simp only [gone, not_true_eq_false, and_false, if_true, if_false]
    · by_cases isKey : (⟨kind, id⟩ : ObjectKey) = key
      · subst isKey
        simp only [gone, not_false_eq_true, and_self, if_true, if_false]
      · simp only [gone, isKey, false_and, if_false, Option.or_none]

/-- A removed key has no object from then on. -/
theorem Determined.recordRemoved (determined : window.Determined recordings) (key : ObjectKey) :
    (window.recordRemoved key).Determined (recordings ++ [.removed key]) := by
  have removals : ∀ other, .removed other ∈ recordings ++ [Recording.removed key] ↔
      other = key ∨ .removed other ∈ recordings := by
    intro other
    simp [or_comm]
  refine ⟨fun kind => ?_, fun kind id => ?_, fun kind id => ?_⟩
  · rw [part_recordRemoved]
    split
    · exact (determined.tidy kind).recordRemoved key.id
    · exact determined.tidy kind
  · rw [mem_removed_recordRemoved, removals, determined.removed kind id]
  · refine Option.ext fun address => ?_
    rw [get?_recordRemoved (determined.tidy kind).ordered, determined.changed kind id,
      firstObject?_concat, object?, Option.or_none]
    simp only [removals]
    by_cases isKey : (⟨kind, id⟩ : ObjectKey) = key <;> simp [isKey]

theorem Determined.apply (determined : window.Determined recordings) (recording : Recording) :
    (recording.apply window).Determined (recordings ++ [recording]) := by
  cases recording with
  | changed key address => exact determined.recordChanged key address
  | removed key => exact determined.recordRemoved key

theorem Determined.foldl (determined : window.Determined recordings) (later : List Recording) :
    (later.foldl (fun window recording => recording.apply window) window).Determined
      (recordings ++ later) := by
  induction later generalizing window recordings with
  | nil =>
      rw [List.append_nil]
      exact determined
  | cons recording rest inductionHypothesis =>
      rw [List.append_cons]
      exact inductionHypothesis (determined.apply recording)

theorem determined_ofRecordings (recordings : List Recording) :
    (ofRecordings recordings).Determined recordings :=
  determined_empty.foldl recordings

/-- There is only one window that recordings determine. -/
theorem Determined.unique (determined : window.Determined recordings)
    (otherDetermined : other.Determined recordings) : window = other := by
  have parts : ∀ kind, window.part kind = other.part kind := fun kind =>
    (determined.tidy kind).ext (otherDetermined.tidy kind)
      (fun id => (determined.changed kind id).trans (otherDetermined.changed kind id).symm)
      (fun id => (determined.removed kind id).trans (otherDetermined.removed kind id).symm)
  obtain ⟨_, _, _⟩ := window
  obtain ⟨_, _, _⟩ := other
  rw [Window.mk.injEq]
  exact ⟨parts .entity, parts .location, parts .policy⟩

theorem determined_iff : window.Determined recordings ↔ window = ofRecordings recordings :=
  ⟨fun determined => determined.unique (determined_ofRecordings recordings),
    fun same => same ▸ determined_ofRecordings recordings⟩

/-- No id is changed and removed at once. -/
theorem Determined.apart (determined : window.Determined recordings) : window.Apart := by
  intro kind
  refine ⟨(determined.tidy kind).ordered, fun entry member isRemoved => ?_⟩
  have noted := Table.get?_of_mem (determined.tidy kind).ordered member
  rw [determined.changed kind entry.1, if_pos ((determined.removed kind entry.1).mp isRemoved)]
    at noted
  cases noted

/-- The order of recordings does not count, where each key has one object. -/
theorem ofRecordings_perm (consistent : Consistent recordings) {others : List Recording}
    (reordered : recordings.Perm others) : ofRecordings others = ofRecordings recordings := by
  have determined := determined_ofRecordings recordings
  refine (determined_iff.mp ⟨determined.tidy, fun kind id => ?_, fun kind id => ?_⟩).symm
  · rw [determined.removed kind id, reordered.mem_iff]
  · rw [determined.changed kind id, firstObject?_perm consistent reordered]
    simp only [reordered.mem_iff]

/-! ## One window to a section -/

theorem forall₂_determined_iff {sections : List (List Recording)} {windows : List Window} :
    List.Forall₂ Determined sections windows ↔ windows = sections.map ofRecordings := by
  induction sections generalizing windows with
  | nil => exact List.forall₂_nil_left_iff
  | cons recordings rest inductionHypothesis =>
      rw [List.forall₂_cons_left_iff, List.map_cons]
      simp only [determined_iff, inductionHypothesis]
      constructor
      · rintro ⟨window, later, rfl, rfl, rfl⟩
        rfl
      · rintro rfl
        exact ⟨_, _, rfl, rfl, rfl⟩

theorem map_ofRecordings_perm {sections others : List (List Recording)}
    (reordered : List.Forall₂ List.Perm sections others)
    (consistent : ∀ recordings ∈ sections, Consistent recordings) :
    others.map ofRecordings = sections.map ofRecordings := by
  induction reordered with
  | nil => rfl
  | cons first _ inductionHypothesis =>
      rw [List.map_cons, List.map_cons, ofRecordings_perm (consistent _ List.mem_cons_self) first,
        inductionHypothesis fun recordings member =>
          consistent recordings (List.mem_cons_of_mem _ member)]

end Window

/-! ## One window after the other -/

/-- What a collector is called with. -/
inductive CollectorCall where
  | record (recording : Recording)
  /-- Hands the window out and goes on with an empty one. -/
  | swap
deriving DecidableEq, Repr

namespace CollectorCall

/-- The recordings between one swap and the next, from the first call to the last. -/
def sections : List CollectorCall → List (List Recording)
  | [] => [[]]
  | .record recording :: rest => (sections rest).modifyHead (recording :: ·)
  | .swap :: rest => [] :: sections rest

theorem exists_sections (calls : List CollectorCall) :
    ∃ first later, sections calls = first :: later := by
  induction calls with
  | nil => exact ⟨[], [], rfl⟩
  | cons call rest inductionHypothesis =>
      cases call with
      | record recording =>
          obtain ⟨first, later, same⟩ := inductionHypothesis
          exact ⟨recording :: first, later, by rw [sections, same, List.modifyHead_cons]⟩
      | swap => exact ⟨[], sections rest, rfl⟩

/-- Each recording is in one section, and the sections stand between the swaps. -/
theorem intercalate_sections (calls : List CollectorCall) :
    [.swap].intercalate ((sections calls).map (List.map .record)) = calls := by
  induction calls with
  | nil => rfl
  | cons call rest inductionHypothesis =>
      obtain ⟨first, later, same⟩ := exists_sections rest
      rw [same] at inductionHypothesis
      cases call with
      | record recording =>
          rw [sections, same, List.modifyHead_cons]
          cases later with
          | nil => simpa using inductionHypothesis
          | cons second later => simpa using inductionHypothesis
      | swap =>
          rw [sections, same]
          simpa using inductionHypothesis

theorem sections_append_swap (before after : List CollectorCall) :
    sections (before ++ .swap :: after) = sections before ++ sections after := by
  induction before with
  | nil => rfl
  | cons call rest inductionHypothesis =>
      obtain ⟨first, later, same⟩ := exists_sections rest
      cases call with
      | record recording =>
          rw [List.cons_append, sections, inductionHypothesis, sections, same, List.cons_append,
            List.modifyHead_cons, List.modifyHead_cons, List.cons_append]
      | swap => rw [List.cons_append, sections, inductionHypothesis, sections, List.cons_append]

end CollectorCall

namespace Listener

open CollectorCall Window

/-- The windows that are handed out one after the other, and behind them the one that is still open. -/
def collect (listener : Listener) : List CollectorCall → List Window
  | [] => [listener.window]
  | .record recording :: rest => (listener.record recording.apply).collect rest
  | .swap :: rest => listener.swap.1 :: listener.swap.2.collect rest

/-- The first window goes on from what is there, and every later one begins empty. -/
theorem collect_of_sections {listener : Listener} (running : listener.stopped = false)
    {calls : List CollectorCall} {first : List Recording} {later : List (List Recording)}
    (isSections : sections calls = first :: later) :
    listener.collect calls =
      first.foldl (fun window recording => recording.apply window) listener.window ::
        later.map ofRecordings := by
  induction calls generalizing listener first later with
  | nil =>
      cases isSections
      rfl
  | cons call rest inductionHypothesis =>
      obtain ⟨restFirst, restLater, restSections⟩ := exists_sections rest
      cases call with
      | record recording =>
          rw [sections, restSections, List.modifyHead_cons] at isSections
          cases isSections
          have stillRunning : (listener.record recording.apply).stopped = false := by
            simp [Listener.record, running]
          rw [collect, inductionHypothesis stillRunning restSections, List.foldl_cons,
            window_record running]
      | swap =>
          rw [sections, restSections] at isSections
          cases isSections
          have goesOn : listener.swap.2.stopped = false := running
          rw [collect, inductionHypothesis goesOn restSections]
          rfl

theorem collect_fresh (calls : List CollectorCall) :
    fresh.collect calls = (sections calls).map ofRecordings := by
  obtain ⟨first, later, isSections⟩ := exists_sections calls
  rw [@collect_of_sections fresh rfl calls first later isSections, isSections]
  rfl

/-- Each window that a collector hands out, and the one still open, is the one window determined by the
recordings of its section: those between two swaps. No id is changed and removed in it at once; a swap
divides the windows before it from those after it; and within the sections the order does not count,
where each key has one object. -/
theorem windows_determined (calls : List CollectorCall) :
    [.swap].intercalate ((sections calls).map (List.map .record)) = calls ∧
      (∀ windows, List.Forall₂ Determined (sections calls) windows ↔
        windows = fresh.collect calls) ∧
      (∀ window ∈ fresh.collect calls, window.Apart) ∧
      (∀ before after, calls = before ++ .swap :: after →
        fresh.collect calls = fresh.collect before ++ fresh.collect after) ∧
      ∀ others, List.Forall₂ List.Perm (sections calls) (sections others) →
        (∀ recordings ∈ sections calls, Recording.Consistent recordings) →
        fresh.collect others = fresh.collect calls := by
  refine ⟨intercalate_sections calls, fun windows => ?_, fun window member => ?_,
    fun before after isWhole => ?_, fun others reordered consistent => ?_⟩
  · rw [collect_fresh]
    exact forall₂_determined_iff
  · rw [collect_fresh] at member
    obtain ⟨recordings, -, rfl⟩ := List.mem_map.mp member
    exact (determined_ofRecordings recordings).apart
  · rw [isWhole, collect_fresh, collect_fresh, collect_fresh, sections_append_swap, List.map_append]
  · rw [collect_fresh, collect_fresh]
    exact map_ofRecordings_perm reordered consistent

section Sample

private def touched : CollectorCall := .record (.changed ⟨.entity, "e"⟩ ⟨1⟩)

private def dropped : CollectorCall := .record (.removed ⟨.entity, "e"⟩)

private def around : CollectorCall := .record (.changed ⟨.location, "e"⟩ ⟨2⟩)

/-- A removal comes behind changes or before them, and counts until the swap. -/
theorem windows_determined_removal :
    fresh.collect [dropped, touched, around, .swap, touched] =
        fresh.collect [touched, around, dropped, .swap, touched] ∧
      fresh.collect [touched, around, dropped, .swap, touched] =
        [⟨⟨[], ["e"]⟩, ⟨[("e", ⟨2⟩)], []⟩, .empty⟩, ⟨⟨[("e", ⟨1⟩)], []⟩, .empty, .empty⟩] := by
  have objects : ∀ recordings ∈ sections [touched, around, dropped, .swap, touched],
      ∀ key address, .changed key address ∈ recordings →
        address = if key.kind = .entity then ⟨1⟩ else ⟨2⟩ := by
    simp +contextual [sections, touched, around, dropped, or_imp]
  obtain ⟨-, -, -, -, reorder⟩ := windows_determined [touched, around, dropped, .swap, touched]
  refine ⟨reorder _ (.cons (by decide) (.cons (.refl _) .nil)) ?_, by decide⟩
  intro recordings member key address other first second
  exact (objects recordings member key address first).trans
    (objects recordings member key other second).symm

end Sample

end Listener

end GraphCheckpoint
