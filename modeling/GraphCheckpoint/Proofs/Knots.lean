import GraphCheckpoint.Proofs.NormalForm
import Mathlib.Data.Fintype.EquivFin
import Mathlib.Logic.Relation

/-!
Contract: when following cells comes to an end.

Owns:
- `Cells.Enters`, the values into which one goes from a value, whether to write it down or to list what
  it refers to;
- that going into values ends exactly where it leads to no knot, a cell that holds itself through
  others;
- that knots come from resolving a cell with a value that leads back to it, and from nothing else.

Does not own: what a value that ends comes to.

Nothing keeps a cell from being resolved with a value that leads back to it, so going into values need
not end.
-/

namespace GraphCheckpoint

namespace Cells

open Relation

/-! ## Going into values -/

variable (cells : Cells)

/-- The first value is entered from the second: lists and maps are gone through whole, and a resolved
cell leads to what it holds. -/
inductive Enters : LiveValue → LiveValue → Prop
  | item {item : LiveValue} {items : List LiveValue} (isItem : item ∈ items) :
      Enters item (.list items)
  | entry {key : String} {value : LiveValue} {entries : Table LiveValue}
      (isEntry : (key, value) ∈ entries) : Enters value (.map entries)
  | held {cell : CellId} {value : LiveValue} (isResolved : cells.state cell = .resolved value) :
      Enters value (.deferred cell)

/-- Going into a value ends, however deep. -/
abbrev Ends (value : LiveValue) : Prop := Acc cells.Enters value

mutual

/-- The objects that are met on the way through a value, in order. -/
inductive Refers : LiveValue → List (ObjectKind × Handle) → Prop
  | null : Refers .null []
  | boolean (flag : Bool) : Refers (.boolean flag) []
  | integer (number : Int64) : Refers (.integer number) []
  | float (number : Binary64) : Refers (.float number) []
  | text (content : String) : Refers (.text content) []
  | entity (target : Handle) : Refers (.entity target) [(.entity, target)]
  | location (target : Handle) : Refers (.location target) [(.location, target)]
  | list {items : List LiveValue} {met : List (ObjectKind × Handle)} (ofItems : ItemsRefer items met) :
      Refers (.list items) met
  | map {entries : Table LiveValue} {met : List (ObjectKind × Handle)}
      (ofEntries : EntriesRefer entries met) : Refers (.map entries) met
  | resolved {cell : CellId} {value : LiveValue} {met : List (ObjectKind × Handle)}
      (isResolved : cells.state cell = .resolved value) (ofValue : Refers value met) :
      Refers (.deferred cell) met
  | pending {cell : CellId} (isPending : cells.state cell = .pending) : Refers (.deferred cell) []
  | failed {cell : CellId} {reason : String} (hasFailed : cells.state cell = .failed reason) :
      Refers (.deferred cell) []

inductive ItemsRefer : List LiveValue → List (ObjectKind × Handle) → Prop
  | nil : ItemsRefer [] []
  | cons {item : LiveValue} {rest : List LiveValue} {met others : List (ObjectKind × Handle)}
      (ofItem : Refers item met) (ofRest : ItemsRefer rest others) :
      ItemsRefer (item :: rest) (met ++ others)

inductive EntriesRefer : Table LiveValue → List (ObjectKind × Handle) → Prop
  | nil : EntriesRefer [] []
  | cons {key : String} {value : LiveValue} {rest : Table LiveValue}
      {met others : List (ObjectKind × Handle)} (ofValue : Refers value met)
      (ofRest : EntriesRefer rest others) : EntriesRefer ((key, value) :: rest) (met ++ others)

end

variable {cells}

/-! ### What ends comes to something -/

theorem exists_normalItems {items : List LiveValue}
    (each : ∀ item ∈ items, ∃ normal, cells.NormalForm item normal) :
    ∃ normal, cells.NormalItems items normal := by
  induction items with
  | nil => exact ⟨[], .nil⟩
  | cons item rest inductionHypothesis =>
      obtain ⟨first, ofItem⟩ := each item List.mem_cons_self
      obtain ⟨others, ofRest⟩ :=
        inductionHypothesis fun other member => each other (List.mem_cons_of_mem _ member)
      cases first with
      | none => exact ⟨.null :: others, .absent ofItem ofRest⟩
      | some normal => exact ⟨normal :: others, .present ofItem ofRest⟩

theorem exists_normalEntries {entries : Table LiveValue}
    (each : ∀ key value, (key, value) ∈ entries → ∃ normal, cells.NormalForm value normal) :
    ∃ normal, cells.NormalEntries entries normal := by
  induction entries with
  | nil => exact ⟨[], .nil⟩
  | cons entry rest inductionHypothesis =>
      obtain ⟨key, value⟩ := entry
      obtain ⟨first, ofValue⟩ := each key value List.mem_cons_self
      obtain ⟨others, ofRest⟩ := inductionHypothesis fun otherKey other member =>
        each otherKey other (List.mem_cons_of_mem _ member)
      cases first with
      | none => exact ⟨others, .absent ofValue ofRest⟩
      | some normal => exact ⟨(key, normal) :: others, .present ofValue ofRest⟩

/-- By induction on the way: all values that are entered from this one come to something. -/
theorem Ends.exists_normalForm {value : LiveValue} (ends : cells.Ends value) :
    ∃ normal, cells.NormalForm value normal := by
  induction ends with
  | intro value _ inductionHypothesis =>
      cases value with
      | null => exact ⟨_, .null⟩
      | boolean flag => exact ⟨_, .boolean flag⟩
      | integer number => exact ⟨_, .integer number⟩
      | float number => exact ⟨_, .float number⟩
      | text content => exact ⟨_, .text content⟩
      | entity target => exact ⟨_, .entity target⟩
      | location target => exact ⟨_, .location target⟩
      | list items =>
          obtain ⟨normal, ofItems⟩ :=
            exists_normalItems fun item isItem => inductionHypothesis item (.item isItem)
          exact ⟨_, .list ofItems⟩
      | map entries =>
          obtain ⟨normal, ofEntries⟩ :=
            exists_normalEntries fun _ value isEntry => inductionHypothesis value (.entry isEntry)
          exact ⟨_, .map ofEntries⟩
      | deferred cell =>
          cases isState : cells.state cell with
          | pending => exact ⟨_, .pending isState⟩
          | failed reason => exact ⟨_, .failed isState⟩
          | resolved held =>
              obtain ⟨normal, ofValue⟩ := inductionHypothesis held (.held isState)
              exact ⟨normal, .resolved isState ofValue⟩

/-- What leads into no value ends at once. -/
theorem ends_of_not_enters {value : LiveValue} (none : ∀ inner, ¬ cells.Enters inner value) :
    cells.Ends value :=
  ⟨_, fun inner enters => absurd enters (none inner)⟩

theorem ends_deferred_of_pending {cell : CellId} (isPending : cells.state cell = .pending) :
    cells.Ends (.deferred cell) :=
  ends_of_not_enters fun inner enters => by
    cases enters with
    | held isResolved => exact nomatch isPending.symm.trans isResolved

theorem ends_deferred_of_failed {cell : CellId} {reason : String}
    (hasFailed : cells.state cell = .failed reason) : cells.Ends (.deferred cell) :=
  ends_of_not_enters fun inner enters => by
    cases enters with
    | held isResolved => exact nomatch hasFailed.symm.trans isResolved

theorem ends_deferred_of_resolved {cell : CellId} {value : LiveValue}
    (isResolved : cells.state cell = .resolved value) (ends : cells.Ends value) :
    cells.Ends (.deferred cell) :=
  ⟨_, fun inner enters => by
    cases enters with
    | held alsoResolved =>
        cases isResolved.symm.trans alsoResolved
        exact ends⟩

mutual

/-- What has come to something had an end. -/
theorem ends_of_normalForm {value : LiveValue} {normal : Option SettledValue}
    (isNormal : cells.NormalForm value normal) : cells.Ends value := by
  match isNormal with
  | .null | .boolean _ | .integer _ | .float _ | .text _ | .entity _ | .location _ =>
      exact ends_of_not_enters fun _ enters => nomatch enters
  | .list ofItems =>
      exact ⟨_, fun inner enters => by
        cases enters with
        | item isItem => exact ends_of_normalItems ofItems inner isItem⟩
  | .map ofEntries =>
      exact ⟨_, fun inner enters => by
        cases enters with
        | entry isEntry => exact ends_of_normalEntries ofEntries _ inner isEntry⟩
  | .resolved isResolved ofValue =>
      exact ends_deferred_of_resolved isResolved (ends_of_normalForm ofValue)
  | .pending isPending => exact ends_deferred_of_pending isPending
  | .failed hasFailed => exact ends_deferred_of_failed hasFailed

theorem ends_of_normalItems {items : List LiveValue} {normal : List SettledValue}
    (isNormal : cells.NormalItems items normal) : ∀ item ∈ items, cells.Ends item := by
  match isNormal with
  | .nil => exact fun _ member => nomatch member
  | .present ofItem ofRest | .absent ofItem ofRest =>
      exact List.forall_mem_cons.mpr ⟨ends_of_normalForm ofItem, ends_of_normalItems ofRest⟩

theorem ends_of_normalEntries {entries : Table LiveValue} {normal : Table SettledValue}
    (isNormal : cells.NormalEntries entries normal) :
    ∀ key value, (key, value) ∈ entries → cells.Ends value := by
  match isNormal with
  | .nil => exact fun _ _ member => nomatch member
  | .present ofValue ofRest | .absent ofValue ofRest =>
      intro key value member
      rcases List.mem_cons.mp member with isFirst | isLater
      · cases isFirst
        exact ends_of_normalForm ofValue
      · exact ends_of_normalEntries ofRest key value isLater

end

/-- Going into a value ends exactly where it comes to something, and so exactly where settling it
does. -/
theorem ends_iff_settled {value : LiveValue} :
    cells.Ends value ↔ (cells.settled? value).isSome := by
  constructor
  · intro ends
    obtain ⟨normal, isNormal⟩ := ends.exists_normalForm
    rw [settled?_of_normalForm isNormal]
    rfl
  · intro settles
    obtain ⟨normal, isSettled⟩ := Option.isSome_iff_exists.mp settles
    exact ends_of_normalForm
      (normalForm_of_settleWith (normalForm_of_becomeWithin cells.size) value isSettled)

/-! ### What is met on the way -/

/-- The objects to which what a value comes to refers, in order. -/
def metIn (normal : Option SettledValue) : List (ObjectKind × Handle) := normal.elim [] Value.references

mutual

theorem refers_of_normalForm {value : LiveValue} {normal : Option SettledValue}
    (isNormal : cells.NormalForm value normal) : cells.Refers value (metIn normal) := by
  match isNormal with
  | .null => exact .null
  | .boolean flag => exact .boolean flag
  | .integer number => exact .integer number
  | .float number => exact .float number
  | .text content => exact .text content
  | .entity target => exact .entity target
  | .location target => exact .location target
  | .list ofItems => exact .list (itemsRefer_of_normalItems ofItems)
  | .map ofEntries => exact .map (entriesRefer_of_normalEntries ofEntries)
  | .resolved isResolved ofValue => exact .resolved isResolved (refers_of_normalForm ofValue)
  | .pending isPending => exact .pending isPending
  | .failed hasFailed => exact .failed hasFailed

theorem itemsRefer_of_normalItems {items : List LiveValue} {normal : List SettledValue}
    (isNormal : cells.NormalItems items normal) :
    cells.ItemsRefer items (Value.referencesOfItems normal) := by
  match isNormal with
  | .nil => exact .nil
  | .present ofItem ofRest | .absent ofItem ofRest =>
      exact .cons (refers_of_normalForm ofItem) (itemsRefer_of_normalItems ofRest)

theorem entriesRefer_of_normalEntries {entries : Table LiveValue} {normal : Table SettledValue}
    (isNormal : cells.NormalEntries entries normal) :
    cells.EntriesRefer entries (Value.referencesOfEntries normal) := by
  match isNormal with
  | .nil => exact .nil
  | .present ofValue ofRest | .absent ofValue ofRest =>
      exact .cons (refers_of_normalForm ofValue) (entriesRefer_of_normalEntries ofRest)

end

mutual

theorem Refers.exists_normalForm {value : LiveValue} {met : List (ObjectKind × Handle)}
    (refers : cells.Refers value met) :
    ∃ normal, cells.NormalForm value normal ∧ met = metIn normal := by
  match refers with
  | .null => exact ⟨_, .null, rfl⟩
  | .boolean flag => exact ⟨_, .boolean flag, rfl⟩
  | .integer number => exact ⟨_, .integer number, rfl⟩
  | .float number => exact ⟨_, .float number, rfl⟩
  | .text content => exact ⟨_, .text content, rfl⟩
  | .entity target => exact ⟨_, .entity target, rfl⟩
  | .location target => exact ⟨_, .location target, rfl⟩
  | .list ofItems =>
      obtain ⟨normal, isNormal, rfl⟩ := ofItems.exists_normalItems
      exact ⟨_, .list isNormal, rfl⟩
  | .map ofEntries =>
      obtain ⟨normal, isNormal, rfl⟩ := ofEntries.exists_normalEntries
      exact ⟨_, .map isNormal, rfl⟩
  | .resolved isResolved ofValue =>
      obtain ⟨normal, isNormal, isMet⟩ := ofValue.exists_normalForm
      exact ⟨normal, .resolved isResolved isNormal, isMet⟩
  | .pending isPending => exact ⟨none, .pending isPending, rfl⟩
  | .failed hasFailed => exact ⟨none, .failed hasFailed, rfl⟩

theorem ItemsRefer.exists_normalItems {items : List LiveValue} {met : List (ObjectKind × Handle)}
    (refer : cells.ItemsRefer items met) :
    ∃ normal, cells.NormalItems items normal ∧ met = Value.referencesOfItems normal := by
  match refer with
  | .nil => exact ⟨[], .nil, rfl⟩
  | .cons ofItem ofRest =>
      obtain ⟨first, ofFirst, rfl⟩ := ofItem.exists_normalForm
      obtain ⟨others, ofOthers, rfl⟩ := ofRest.exists_normalItems
      cases first with
      | none => exact ⟨_, .absent ofFirst ofOthers, rfl⟩
      | some normal => exact ⟨_, .present ofFirst ofOthers, rfl⟩

theorem EntriesRefer.exists_normalEntries {entries : Table LiveValue}
    {met : List (ObjectKind × Handle)} (refer : cells.EntriesRefer entries met) :
    ∃ normal, cells.NormalEntries entries normal ∧ met = Value.referencesOfEntries normal := by
  match refer with
  | .nil => exact ⟨[], .nil, rfl⟩
  | .cons ofValue ofRest =>
      obtain ⟨first, ofFirst, rfl⟩ := ofValue.exists_normalForm
      obtain ⟨others, ofOthers, rfl⟩ := ofRest.exists_normalEntries
      cases first with
      | none => exact ⟨_, .absent ofFirst ofOthers, rfl⟩
      | some normal => exact ⟨_, .present ofFirst ofOthers, rfl⟩

end

/-- What is met on the way through a value is what its settled form refers to. -/
theorem refers_iff {value : LiveValue} {met : List (ObjectKind × Handle)} :
    cells.Refers value met ↔ ∃ normal, cells.settled? value = some normal ∧ met = metIn normal := by
  constructor
  · intro refers
    obtain ⟨normal, isNormal, isMet⟩ := refers.exists_normalForm
    exact ⟨normal, settled?_of_normalForm isNormal, isMet⟩
  · rintro ⟨normal, isSettled, rfl⟩
    exact refers_of_normalForm
      (normalForm_of_settleWith (normalForm_of_becomeWithin cells.size) value isSettled)

/-- The ids of one kind among what is met. -/
def idsMet (kind : ObjectKind) (met : List (ObjectKind × Handle)) : List String :=
  met.filterMap fun (found, handle) => if found = kind then some handle.id else none

/-- The ids found are those of the entities and of the locations that are met. -/
theorem referencedIds?_eq_some_iff {value : LiveValue} {ids : List String × List String} :
    cells.referencedIds? value = some ids ↔
      ∃ met, cells.Refers value met ∧ ids = (idsMet .entity met, idsMet .location met) := by
  simp only [refers_iff]
  cases isSettled : cells.settled? value with
  | none => simp [referencedIds?, isSettled]
  | some normal =>
      cases normal <;> simp [referencedIds?, isSettled, metIn, idsMet, eq_comm]

/-- Listing what a value refers to ends exactly where settling it does. -/
theorem isSome_referencedIds? {value : LiveValue} :
    (cells.referencedIds? value).isSome = (cells.settled? value).isSome := by
  cases isSettled : cells.settled? value with
  | none => simp [referencedIds?, isSettled]
  | some normal => cases normal <;> simp [referencedIds?, isSettled]

/-! ## Knots -/

variable (cells)

/-- The first cell has been resolved with a value that holds the second one. -/
def Leads (one other : CellId) : Prop :=
  ∃ value, cells.state one = .resolved value ∧ other ∈ value.deferrals

/-- The cell leads back to itself. -/
def Knotted (cell : CellId) : Prop := TransGen cells.Leads cell cell

/-- A value leads to a cell that it holds, and to all that this one leads to. -/
def ReachedFrom (value : LiveValue) (cell : CellId) : Prop :=
  ∃ start ∈ value.deferrals, ReflTransGen cells.Leads start cell

variable {cells}

mutual

/-- A cell that a value holds is entered on the way through it. -/
theorem enters_of_mem_deferrals {value : LiveValue} {cell : CellId}
    (member : cell ∈ value.deferrals) : ReflTransGen cells.Enters (.deferred cell) value := by
  match value with
  | .null | .boolean _ | .integer _ | .float _ | .text _ | .entity _ | .location _ =>
      exact nomatch member
  | .deferred held =>
      cases List.mem_singleton.mp member
      exact .refl
  | .list items =>
      obtain ⟨item, isItem, enters⟩ := enters_of_mem_deferralsOfItems items member
      exact enters.tail (.item isItem)
  | .map entries =>
      obtain ⟨key, value, isEntry, enters⟩ := enters_of_mem_deferralsOfEntries entries member
      exact enters.tail (.entry isEntry)

theorem enters_of_mem_deferralsOfItems {cell : CellId} (items : List LiveValue)
    (member : cell ∈ Value.deferralsOfItems items) :
    ∃ item ∈ items, ReflTransGen cells.Enters (.deferred cell) item := by
  match items with
  | [] => exact nomatch member
  | item :: rest =>
      rcases List.mem_append.mp member with isHere | isLater
      · exact ⟨item, List.mem_cons_self, enters_of_mem_deferrals isHere⟩
      · obtain ⟨other, isItem, enters⟩ := enters_of_mem_deferralsOfItems rest isLater
        exact ⟨other, List.mem_cons_of_mem _ isItem, enters⟩

theorem enters_of_mem_deferralsOfEntries {cell : CellId} (entries : Table LiveValue)
    (member : cell ∈ Value.deferralsOfEntries entries) :
    ∃ key value, (key, value) ∈ entries ∧ ReflTransGen cells.Enters (.deferred cell) value := by
  match entries with
  | [] => exact nomatch member
  | (key, value) :: rest =>
      rcases List.mem_append.mp member with isHere | isLater
      · exact ⟨key, value, List.mem_cons_self, enters_of_mem_deferrals isHere⟩
      · obtain ⟨otherKey, other, isEntry, enters⟩ := enters_of_mem_deferralsOfEntries rest isLater
        exact ⟨otherKey, other, List.mem_cons_of_mem _ isEntry, enters⟩

end

mutual

/-- A value ends if all cells that it holds do. -/
theorem ends_of_deferrals (value : LiveValue)
    (each : ∀ cell ∈ value.deferrals, cells.Ends (.deferred cell)) : cells.Ends value := by
  match value with
  | .null | .boolean _ | .integer _ | .float _ | .text _ | .entity _ | .location _ =>
      exact ends_of_not_enters fun _ enters => nomatch enters
  | .deferred cell => exact each cell (List.mem_singleton_self cell)
  | .list items =>
      exact ⟨_, fun inner enters => by
        cases enters with
        | item isItem => exact ends_of_deferralsOfItems items each inner isItem⟩
  | .map entries =>
      exact ⟨_, fun inner enters => by
        cases enters with
        | entry isEntry => exact ends_of_deferralsOfEntries entries each _ inner isEntry⟩

theorem ends_of_deferralsOfItems (items : List LiveValue)
    (each : ∀ cell ∈ Value.deferralsOfItems items, cells.Ends (.deferred cell)) :
    ∀ item ∈ items, cells.Ends item := by
  match items with
  | [] => exact fun _ member => nomatch member
  | item :: rest =>
      refine List.forall_mem_cons.mpr ⟨?_, ?_⟩
      · exact ends_of_deferrals item fun cell member =>
          each cell (List.mem_append_left _ member)
      · exact ends_of_deferralsOfItems rest fun cell member =>
          each cell (List.mem_append_right _ member)

theorem ends_of_deferralsOfEntries (entries : Table LiveValue)
    (each : ∀ cell ∈ Value.deferralsOfEntries entries, cells.Ends (.deferred cell)) :
    ∀ key value, (key, value) ∈ entries → cells.Ends value := by
  match entries with
  | [] => exact fun _ _ member => nomatch member
  | (firstKey, first) :: rest =>
      intro key value member
      rcases List.mem_cons.mp member with isFirst | isLater
      · cases isFirst
        exact ends_of_deferrals first fun cell isHeld =>
          each cell (List.mem_append_left _ isHeld)
      · exact ends_of_deferralsOfEntries rest
          (fun cell isHeld => each cell (List.mem_append_right _ isHeld)) key value isLater

end

/-- A cell that leads to another one is left through it. -/
theorem Leads.enters {one other : CellId} (leads : cells.Leads one other) :
    TransGen cells.Enters (.deferred other) (.deferred one) := by
  obtain ⟨value, isResolved, member⟩ := leads
  exact TransGen.tail' (enters_of_mem_deferrals member) (.held isResolved)

theorem enters_of_transGen {one other : CellId} (leads : TransGen cells.Leads one other) :
    TransGen cells.Enters (.deferred other) (.deferred one) := by
  induction leads with
  | single leads => exact leads.enters
  | tail _ leads inductionHypothesis => exact leads.enters.trans inductionHypothesis

/-- What ends is not entered from itself. -/
theorem Ends.not_transGen_self {value : LiveValue} (ends : cells.Ends value) :
    ¬ TransGen cells.Enters value value := by
  induction ends.transGen with
  | intro value _ inductionHypothesis =>
      exact fun enters => inductionHypothesis value enters ends enters

/-- A value that ends leads to no knot. -/
theorem Ends.not_knotted {value : LiveValue} (ends : cells.Ends value) {cell : CellId}
    (reached : cells.ReachedFrom value cell) : ¬ cells.Knotted cell := by
  intro knotted
  obtain ⟨start, member, leads⟩ := reached
  have entered : ReflTransGen cells.Enters (.deferred cell) value := by
    rcases reflTransGen_iff_eq_or_transGen.mp leads with same | further
    · rw [same]
      exact enters_of_mem_deferrals member
    · exact (enters_of_transGen further).to_reflTransGen.trans (enters_of_mem_deferrals member)
  have endsThere : cells.Ends (.deferred cell) := by
    rcases reflTransGen_iff_eq_or_transGen.mp entered with same | further
    · rwa [← same]
    · exact ends.inv_of_transGen further
  exact endsThere.not_transGen_self (enters_of_transGen knotted)

/-- One cell leads to the other, which is no knot. -/
private def Below (cells : Cells) (other one : Fin cells.size) : Prop :=
  TransGen cells.Leads ⟨one⟩ ⟨other⟩ ∧ ¬ cells.Knotted ⟨one⟩

private theorem wellFounded_below (cells : Cells) : WellFounded cells.Below := by
  have isTrans : IsTrans (Fin cells.size) cells.Below :=
    ⟨fun _ _ _ first second => ⟨second.1.trans first.1, second.2⟩⟩
  have isIrrefl : Std.Irrefl cells.Below := ⟨fun _ below => below.2 below.1⟩
  exact Finite.wellFounded_of_trans_of_irrefl _

theorem isPending_of_size_le {cell : CellId} (outside : cells.size ≤ cell.index) :
    cells.state cell = .pending := by
  rw [state, Array.getD_eq_getD_getElem?, Array.getElem?_eq_none outside]
  rfl

/-- A cell that leads to no knot ends: the heap is finite, so one cannot go on from cell to cell
without coming back. -/
theorem ends_deferred_of_not_knotted (cell : CellId)
    (free : ∀ other, ReflTransGen cells.Leads cell other → ¬ cells.Knotted other) :
    cells.Ends (.deferred cell) := by
  by_cases outside : cells.size ≤ cell.index
  · exact ends_deferred_of_pending (isPending_of_size_le outside)
  obtain ⟨index⟩ := cell
  lift index to Fin cells.size using Nat.not_le.mp outside
  induction index using cells.wellFounded_below.induction with
  | _ index inductionHypothesis =>
      cases isState : cells.state ⟨index⟩ with
      | pending => exact ends_deferred_of_pending isState
      | failed reason => exact ends_deferred_of_failed isState
      | resolved value =>
          refine ends_deferred_of_resolved isState (ends_of_deferrals value fun held member => ?_)
          have leads : cells.Leads ⟨index⟩ held := ⟨value, isState, member⟩
          by_cases heldOutside : cells.size ≤ held.index
          · exact ends_deferred_of_pending (isPending_of_size_le heldOutside)
          · exact inductionHypothesis ⟨held.index, Nat.not_le.mp heldOutside⟩
              ⟨.single leads, free _ .refl⟩ (fun other further => free other (.head leads further))
              heldOutside

/-- Going into a value ends exactly where it leads to no knot. -/
theorem ends_iff_not_knotted {value : LiveValue} :
    cells.Ends value ↔ ∀ cell, cells.ReachedFrom value cell → ¬ cells.Knotted cell := by
  refine ⟨fun ends _ reached => ends.not_knotted reached, fun free => ?_⟩
  exact ends_of_deferrals value fun start member =>
    ends_deferred_of_not_knotted start fun other leads => free other ⟨start, member, leads⟩

/-- Every value ends exactly where there is no knot at all. -/
theorem forall_ends_iff : (∀ value, cells.Ends value) ↔ ∀ cell, ¬ cells.Knotted cell :=
  ⟨fun ends cell => (ends (.deferred cell)).not_knotted ⟨cell, List.mem_singleton_self cell, .refl⟩,
    fun free _ => ends_iff_not_knotted.mpr fun cell _ => free cell⟩

/-! ## How knots come about -/

/-- What can be done with computed values. All that hold a cell see what becomes of it. -/
inductive Call where
  | pending
  | resolve (cell : CellId) (value : LiveValue)
  | fail (cell : CellId) (reason : String)

def Call.perform (cells : Cells) : Call → Cells
  | .pending => (cells.allocate .pending).2
  | .resolve cell value => (cells.settle cell (.resolved value)).2
  | .fail cell reason => (cells.settle cell (.failed reason)).2

/-- The heap after calls, one after the other. -/
def afterCalls (calls : List Call) : Cells := calls.foldl Call.perform .empty

/-- The call settles a cell with a value that leads back to it. -/
def Ties (cells : Cells) : Call → Prop
  | .resolve cell value =>
      cell.index < cells.size ∧ cells.state cell = .pending ∧ cells.ReachedFrom value cell
  | _ => False

section Calls

variable {call : Call} {one other : CellId}

theorem state_allocate (cell : CellId) : (cells.allocate .pending).2.state cell = cells.state cell := by
  simp only [state, allocate, Array.getD_eq_getD_getElem?, Array.getElem?_push]
  split
  · rename_i isNew
    rw [isNew, Array.getElem?_eq_none (Nat.le_refl _)]
    rfl
  · rfl

theorem isDone_of_pending {cell : CellId} (isPending : cells.state cell = .pending) :
    cells.isDone cell = false := by
  rw [isDone, isPending]

/-- A pending cell of the heap takes the new state, and no other cell changes. -/
theorem state_settle {cell : CellId} (inRange : cell.index < cells.size)
    (isPending : cells.state cell = .pending) (state : Cell) (other : CellId) :
    (cells.settle cell state).2.state other = if other = cell then state else cells.state other := by
  rw [settle, isDone_of_pending isPending, if_neg nofun]
  simp only [Cells.state, Array.getD_eq_getD_getElem?, Array.getElem?_setIfInBounds]
  by_cases same : other = cell
  · rw [if_pos same, if_pos (congrArg CellId.index same.symm)]
    exact congrArg (Option.getD · Cell.pending) (if_pos inRange)
  · have differs : cell.index ≠ other.index := by
      intro sameIndex
      cases cell
      cases other
      exact same (congrArg CellId.mk sameIndex.symm)
    rw [if_neg same, if_neg differs]

/-- Otherwise nothing changes. -/
theorem settle_of_settled {cell : CellId}
    (settled : ¬ (cell.index < cells.size ∧ cells.state cell = .pending)) (state : Cell) :
    (cells.settle cell state).2 = cells := by
  by_cases inRange : cell.index < cells.size
  · have isDone : cells.isDone cell := by
      rw [Cells.isDone]
      split
      · rename_i isPending
        exact absurd ⟨inRange, isPending⟩ settled
      · rfl
    rw [settle, if_pos isDone]
  · rw [settle, isDone_of_pending (isPending_of_size_le (Nat.not_lt.mp inRange)), if_neg nofun,
      Array.setIfInBounds_eq_of_size_le (Nat.not_lt.mp inRange)]

/-- A cell that is resolved after a settling was so before, or has just been. -/
theorem state_settle_eq_resolved_iff {cell : CellId} {state : Cell} {value : LiveValue} :
    (cells.settle cell state).2.state one = .resolved value ↔
      cells.state one = .resolved value ∨ one = cell ∧ state = .resolved value ∧
        cell.index < cells.size ∧ cells.state cell = .pending := by
  by_cases isNew : cell.index < cells.size ∧ cells.state cell = .pending
  · rw [state_settle isNew.1 isNew.2]
    split
    · rename_i same
      exact ⟨fun isState => Or.inr ⟨same, isState, isNew⟩, fun found => by
        rcases found with resolved | ⟨-, isState, -⟩
        · rw [same, isNew.2] at resolved
          cases resolved
        · exact isState⟩
    · rename_i differs
      exact ⟨Or.inl, fun found => found.resolve_right fun made => differs made.1⟩
  · rw [settle_of_settled isNew]
    exact ⟨Or.inl, fun found => found.resolve_right fun made => isNew made.2.2⟩

/-- The call makes the first cell lead to the second one. -/
def Adds (cells : Cells) (call : Call) (one other : CellId) : Prop :=
  ∃ value, call = .resolve one value ∧ one.index < cells.size ∧ cells.state one = .pending ∧
    other ∈ value.deferrals

/-- Resolving a pending cell adds what it leads to, and no call does more. -/
theorem leads_perform : (call.perform cells).Leads one other ↔
    cells.Leads one other ∨ cells.Adds call one other := by
  cases call with
  | pending => simp [Leads, Adds, Call.perform, state_allocate]
  | fail cell reason => simp [Leads, Adds, Call.perform, state_settle_eq_resolved_iff]
  | resolve cell value =>
      simp only [Leads, Adds, Call.perform, state_settle_eq_resolved_iff]
      constructor
      · rintro ⟨held, resolved | ⟨rfl, isState, inRange, isPending⟩, member⟩
        · exact Or.inl ⟨held, resolved, member⟩
        · cases isState
          exact Or.inr ⟨value, rfl, inRange, isPending, member⟩
      · rintro (⟨held, resolved, member⟩ | ⟨held, isCall, inRange, isPending, member⟩)
        · exact ⟨held, Or.inl resolved, member⟩
        · cases isCall
          exact ⟨value, Or.inr ⟨rfl, rfl, inRange, isPending⟩, member⟩

theorem Adds.ties (adds : cells.Adds call one other)
    (back : ReflTransGen cells.Leads other one) : cells.Ties call := by
  obtain ⟨value, rfl, inRange, isPending, member⟩ := adds
  exact ⟨inRange, isPending, other, member, back⟩

/-- A call adds to what one cell leads to. -/
theorem Adds.unique (adds : cells.Adds call one other) {same beyond : CellId}
    (also : cells.Adds call same beyond) : same = one := by
  obtain ⟨value, rfl, -⟩ := adds
  obtain ⟨held, isCall, -⟩ := also
  cases isCall
  rfl

/-- A way after the call is one from before it, or takes one that was added and goes on as before. -/
theorem leads_of_perform (leads : ReflTransGen (call.perform cells).Leads one other) :
    ReflTransGen cells.Leads one other ∨
      ∃ changed next, cells.Adds call changed next ∧ ReflTransGen cells.Leads one changed ∧
        ReflTransGen cells.Leads next other := by
  induction leads using ReflTransGen.head_induction_on with
  | refl => exact Or.inl .refl
  | @head start middle first _ inductionHypothesis =>
      rcases leads_perform.mp first with before | adds
      · rcases inductionHypothesis with further | ⟨changed, next, adds, toChanged, fromNext⟩
        · exact Or.inl (.head before further)
        · exact Or.inr ⟨changed, next, adds, .head before toChanged, fromNext⟩
      · rcases inductionHypothesis with further | ⟨changed, next, also, -, fromNext⟩
        · exact Or.inr ⟨start, middle, adds, .refl, further⟩
        · cases adds.unique also
          exact Or.inr ⟨start, next, also, .refl, fromNext⟩

/-- A call leaves a knot exactly if there was one, or if it ties one. -/
theorem forall_not_knotted_perform : (∀ cell, ¬ (call.perform cells).Knotted cell) ↔
    (∀ cell, ¬ cells.Knotted cell) ∧ ¬ cells.Ties call := by
  have keeps : cells.Leads ≤ (call.perform cells).Leads :=
    fun _ _ leads => leads_perform.mpr (Or.inl leads)
  constructor
  · intro free
    refine ⟨fun cell knotted => free cell (TransGen.mono keeps _ _ knotted), fun ties => ?_⟩
    · cases call with
      | pending => exact ties
      | fail cell reason => exact ties
      | resolve cell value =>
          obtain ⟨inRange, isPending, start, member, back⟩ := ties
          have adds : cells.Adds (.resolve cell value) cell start :=
            ⟨value, rfl, inRange, isPending, member⟩
          exact free cell (TransGen.head' (leads_perform.mpr (Or.inr adds))
            (ReflTransGen.mono keeps _ _ back))
  · rintro ⟨free, untied⟩ cell knotted
    obtain ⟨next, first, back⟩ := TransGen.head'_iff.mp knotted
    rcases leads_perform.mp first with before | adds
    · rcases leads_of_perform back with further | ⟨changed, added, adds, toChanged, fromAdded⟩
      · exact free cell (TransGen.head' before further)
      · exact untied (adds.ties (fromAdded.trans (.head before toChanged)))
    · rcases leads_of_perform back with further | ⟨changed, added, also, toChanged, fromAdded⟩
      · exact untied (adds.ties further)
      · cases adds.unique also
        exact untied (also.ties fromAdded)

end Calls

/-- From any heap on, calls leave no knot exactly if there was none and none of them tied one. -/
theorem forall_not_knotted_foldl (calls : List Call) (cells : Cells) :
    (∀ cell, ¬ (calls.foldl Call.perform cells).Knotted cell) ↔
      (∀ cell, ¬ cells.Knotted cell) ∧
        ∀ before call rest, calls = before ++ call :: rest →
          ¬ (before.foldl Call.perform cells).Ties call := by
  induction calls generalizing cells with
  | nil => exact ⟨fun free => ⟨free, fun before call rest isSplit => by simp at isSplit⟩, And.left⟩
  | cons first later inductionHypothesis =>
      rw [List.foldl_cons, inductionHypothesis, forall_not_knotted_perform, and_assoc]
      refine and_congr_right fun _ => ⟨?_, fun untied => ⟨?_, ?_⟩⟩
      · rintro ⟨untiedFirst, untiedLater⟩ before call rest isSplit
        rcases List.cons_eq_append_iff.mp isSplit with ⟨rfl, same⟩ | ⟨others, rfl, isLater⟩
        · cases same
          exact untiedFirst
        · exact untiedLater others call rest isLater
      · exact untied [] first later rfl
      · exact fun before call rest isSplit =>
          untied (first :: before) call rest (congrArg (first :: ·) isSplit)

theorem not_knotted_empty (cell : CellId) : ¬ empty.Knotted cell := by
  intro knotted
  obtain ⟨next, ⟨value, isResolved, -⟩, -⟩ := TransGen.head'_iff.mp knotted
  exact nomatch (@isPending_of_size_le empty cell (Nat.zero_le _)).symm.trans isResolved

/-- Whatever calls have made of the computed values: going into a value, to write it down or to list the
objects to which it refers, ends exactly where the value leads to no knot, and settling tells which
values these are. All values end exactly if no call resolved a pending cell with a value that leads back
to it. -/
theorem ends_afterCalls_iff (calls : List Call) :
    (∀ value,
      ((afterCalls calls).Ends value ↔ ((afterCalls calls).settled? value).isSome) ∧
      ((afterCalls calls).Ends value ↔ ((afterCalls calls).referencedIds? value).isSome) ∧
      ((afterCalls calls).Ends value ↔
        ∀ cell, (afterCalls calls).ReachedFrom value cell → ¬ (afterCalls calls).Knotted cell)) ∧
    ((∀ value, (afterCalls calls).Ends value) ↔
      ∀ before call rest, calls = before ++ call :: rest → ¬ (afterCalls before).Ties call) := by
  refine ⟨fun value => ⟨ends_iff_settled, ?_, ends_iff_not_knotted⟩, ?_⟩
  · rw [ends_iff_settled, isSome_referencedIds?]
  · rw [forall_ends_iff, afterCalls, forall_not_knotted_foldl]
    exact and_iff_right not_knotted_empty

section Sample

/-- A cell that is resolved with a list that holds it. -/
private def selfHolding : List Call := [.pending, .resolve ⟨0⟩ (.list [.deferred ⟨0⟩])]

/-- Nothing keeps the calls from tying the knot, and then going into the cell does not end. -/
theorem not_ends_self_holding :
    ¬ (afterCalls selfHolding).Ends (.deferred ⟨0⟩) ∧
      (afterCalls selfHolding).referencedIds? (.deferred ⟨0⟩) = none := by
  obtain ⟨isSettled, refers, -⟩ := (ends_afterCalls_iff selfHolding).1 (.deferred ⟨0⟩)
  have endless : ¬ (afterCalls selfHolding).Ends (.deferred ⟨0⟩) := by
    rw [isSettled]
    decide
  refine ⟨endless, ?_⟩
  rwa [refers, Option.not_isSome_iff_eq_none] at endless

end Sample

end Cells

end GraphCheckpoint
