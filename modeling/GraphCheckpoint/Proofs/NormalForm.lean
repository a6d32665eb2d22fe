import GraphCheckpoint.Proofs.Cells
import Mathlib.Data.Finset.Card
import Mathlib.Order.Monotone.Basic

/-!
Contract: what live values and records come to, told by rules.

Owns:
- `Cells.NormalForm`, which follows cells as far as they lead;
- that following as many cells as there are is far enough, so that settling finds every normal form;
- the normal forms of records, deltas and graphs.

Does not own: how normal forms are written.

A value whose cells have no end has no normal form, and settling finds none.
-/

namespace GraphCheckpoint

/-! ## Following more cells -/

namespace Value

variable {ρ δ : Type} {become wider : δ → Option (Option (Value ρ Empty))}

mutual

/-- What settles still settles, and to the same, where more cells have an end. -/
theorem settleWith_mono (ends : ∀ cell settled, become cell = some settled → wider cell = some settled)
    (value : Value ρ δ) {settled : Option (Value ρ Empty)}
    (isSettled : value.settleWith become = some settled) :
    value.settleWith wider = some settled := by
  match value with
  | .null | .boolean _ | .integer _ | .float _ | .text _ | .entity _ | .location _ =>
      exact isSettled
  | .list items =>
      simp only [settleWith, Option.bind_eq_bind, Option.bind_eq_some_iff] at isSettled ⊢
      obtain ⟨results, itemsSettled, isResult⟩ := isSettled
      exact ⟨results, settleItemsWith_mono ends items itemsSettled, isResult⟩
  | .map entries =>
      simp only [settleWith, Option.bind_eq_bind, Option.bind_eq_some_iff] at isSettled ⊢
      obtain ⟨results, entriesSettled, isResult⟩ := isSettled
      exact ⟨results, settleEntriesWith_mono ends entries entriesSettled, isResult⟩
  | .deferred cell => exact ends cell settled isSettled

theorem settleItemsWith_mono
    (ends : ∀ cell settled, become cell = some settled → wider cell = some settled)
    (items : List (Value ρ δ)) {settled : List (Value ρ Empty)}
    (isSettled : settleItemsWith become items = some settled) :
    settleItemsWith wider items = some settled := by
  match items with
  | [] => exact isSettled
  | item :: rest =>
      simp only [settleItemsWith, Option.bind_eq_bind, Option.bind_eq_some_iff] at isSettled ⊢
      obtain ⟨first, itemSettled, others, restSettled, isResult⟩ := isSettled
      exact ⟨first, settleWith_mono ends item itemSettled, others,
        settleItemsWith_mono ends rest restSettled, isResult⟩

theorem settleEntriesWith_mono
    (ends : ∀ cell settled, become cell = some settled → wider cell = some settled)
    (entries : List (String × Value ρ δ)) {settled : List (String × Value ρ Empty)}
    (isSettled : settleEntriesWith become entries = some settled) :
    settleEntriesWith wider entries = some settled := by
  match entries with
  | [] => exact isSettled
  | (key, value) :: rest =>
      simp only [settleEntriesWith, Option.bind_eq_bind, Option.bind_eq_some_iff] at isSettled ⊢
      obtain ⟨first, valueSettled, others, restSettled, isResult⟩ := isSettled
      exact ⟨first, settleWith_mono ends value valueSettled, others,
        settleEntriesWith_mono ends rest restSettled, isResult⟩

end

end Value

namespace Cells

/-! ## Normal forms -/

variable (cells : Cells)

mutual

/-- What a live value comes to. A resolved cell stands for what it holds, a pending or failed one
for nothing. -/
inductive NormalForm : LiveValue → Option SettledValue → Prop
  | null : NormalForm .null (some .null)
  | boolean (flag : Bool) : NormalForm (.boolean flag) (some (.boolean flag))
  | integer (number : Int64) : NormalForm (.integer number) (some (.integer number))
  | float (number : Binary64) : NormalForm (.float number) (some (.float number))
  | text (content : String) : NormalForm (.text content) (some (.text content))
  | entity (target : Handle) : NormalForm (.entity target) (some (.entity target))
  | location (target : Handle) : NormalForm (.location target) (some (.location target))
  | list {items : List LiveValue} {normal : List SettledValue} (ofItems : NormalItems items normal) :
      NormalForm (.list items) (some (.list normal))
  | map {entries : Table LiveValue} {normal : Table SettledValue}
      (ofEntries : NormalEntries entries normal) : NormalForm (.map entries) (some (.map normal))
  | resolved {cell : CellId} {value : LiveValue} {normal : Option SettledValue}
      (isResolved : cells.state cell = .resolved value) (ofValue : NormalForm value normal) :
      NormalForm (.deferred cell) normal
  | pending {cell : CellId} (isPending : cells.state cell = .pending) :
      NormalForm (.deferred cell) none
  | failed {cell : CellId} {reason : String} (hasFailed : cells.state cell = .failed reason) :
      NormalForm (.deferred cell) none

/-- Lists keep their length: null stands where there is nothing. -/
inductive NormalItems : List LiveValue → List SettledValue → Prop
  | nil : NormalItems [] []
  | present {item : LiveValue} {rest : List LiveValue} {normal : SettledValue}
      {others : List SettledValue} (ofItem : NormalForm item (some normal))
      (ofRest : NormalItems rest others) : NormalItems (item :: rest) (normal :: others)
  | absent {item : LiveValue} {rest : List LiveValue} {others : List SettledValue}
      (ofItem : NormalForm item none) (ofRest : NormalItems rest others) :
      NormalItems (item :: rest) (.null :: others)

/-- Maps lose the keys under which there is nothing. -/
inductive NormalEntries : Table LiveValue → Table SettledValue → Prop
  | nil : NormalEntries [] []
  | present {key : String} {value : LiveValue} {rest : Table LiveValue} {normal : SettledValue}
      {others : Table SettledValue} (ofValue : NormalForm value (some normal))
      (ofRest : NormalEntries rest others) :
      NormalEntries ((key, value) :: rest) ((key, normal) :: others)
  | absent {key : String} {value : LiveValue} {rest : Table LiveValue}
      {others : Table SettledValue} (ofValue : NormalForm value none)
      (ofRest : NormalEntries rest others) : NormalEntries ((key, value) :: rest) others

end

/-! ## Enough cells -/

variable {cells}

theorem becomeWithin_of_resolved {cell : CellId} {value : LiveValue}
    (isResolved : cells.state cell = .resolved value) (remaining : Nat) :
    cells.becomeWithin (remaining + 1) cell =
      value.settleWith (cells.becomeWithin remaining) := by
  rw [becomeWithin, isResolved]

theorem becomeWithin_of_pending {cell : CellId} (isPending : cells.state cell = .pending)
    (budget : Nat) : cells.becomeWithin budget cell = some none := by
  rw [becomeWithin, isPending]

theorem becomeWithin_of_failed {cell : CellId} {reason : String}
    (hasFailed : cells.state cell = .failed reason) (budget : Nat) :
    cells.becomeWithin budget cell = some none := by
  rw [becomeWithin, hasFailed]

/-- What ends within a number of cells ends within one more. -/
theorem becomeWithin_succ (budget : Nat) (cell : CellId) (normal : Option SettledValue)
    (ends : cells.becomeWithin budget cell = some normal) :
    cells.becomeWithin (budget + 1) cell = some normal := by
  cases isState : cells.state cell with
  | pending => rwa [becomeWithin_of_pending isState] at ends ⊢
  | failed reason => rwa [becomeWithin_of_failed isState] at ends ⊢
  | resolved value =>
      cases budget with
      | zero =>
          rw [becomeWithin, isState] at ends
          cases ends
      | succ remaining =>
          rw [becomeWithin_of_resolved isState] at ends ⊢
          exact Value.settleWith_mono (becomeWithin_succ remaining) value ends

/-- What has been made of all cells decides what one more step makes of them. -/
theorem becomeWithin_succ_congr {one other : Nat}
    (same : cells.becomeWithin one = cells.becomeWithin other) :
    cells.becomeWithin (one + 1) = cells.becomeWithin (other + 1) := by
  funext cell
  cases isState : cells.state cell with
  | pending => rw [becomeWithin_of_pending isState, becomeWithin_of_pending isState]
  | failed reason => rw [becomeWithin_of_failed isState, becomeWithin_of_failed isState]
  | resolved value =>
      rw [becomeWithin_of_resolved isState, becomeWithin_of_resolved isState, same]

/-- A cell that does not end is one of the heap. -/
theorem lt_size_of_becomeWithin_eq_none {budget : Nat} {cell : CellId}
    (endless : cells.becomeWithin budget cell = none) : cell.index < cells.size := by
  by_contra outside
  have isPending : cells.state cell = .pending := by
    rw [state, Array.getD_eq_getD_getElem?, Array.getElem?_eq_none (Nat.not_lt.mp outside)]
    rfl
  rw [becomeWithin_of_pending isPending] at endless
  cases endless

/-- The cells of the heap that end within a number of cells. -/
private def ending (cells : Cells) (budget : Nat) : Finset Nat :=
  (Finset.range cells.size).filter fun index => (cells.becomeWithin budget ⟨index⟩).isSome

private theorem mem_ending {budget index : Nat} :
    index ∈ cells.ending budget ↔
      index < cells.size ∧ (cells.becomeWithin budget ⟨index⟩).isSome := by
  rw [ending, Finset.mem_filter, Finset.mem_range]

private theorem ending_succ (cells : Cells) (budget : Nat) :
    cells.ending budget ⊆ cells.ending (budget + 1) := by
  intro index member
  obtain ⟨below, ends⟩ := mem_ending.mp member
  obtain ⟨normal, isNormal⟩ := Option.isSome_iff_exists.mp ends
  exact mem_ending.mpr ⟨below, by rw [becomeWithin_succ budget _ normal isNormal]; rfl⟩

/-- Where one more cell lets no other cell end, it changes nothing. -/
private theorem becomeWithin_stable {budget : Nat}
    (same : cells.ending (budget + 1) ⊆ cells.ending budget) :
    cells.becomeWithin (budget + 1) = cells.becomeWithin budget := by
  funext cell
  cases isNormal : cells.becomeWithin budget cell with
  | some normal => exact becomeWithin_succ budget cell normal isNormal
  | none =>
      by_contra ends
      obtain ⟨normal, isLater⟩ := Option.ne_none_iff_exists'.mp ends
      have below := lt_size_of_becomeWithin_eq_none isNormal
      have member := same (mem_ending.mpr ⟨below, by rw [isLater]; rfl⟩)
      have still := (mem_ending.mp member).2
      rw [isNormal] at still
      cases still

/-- As many cells as there are suffice: one more changes nothing. Each cell that one more step lets
end is another one of the heap, so these steps run out. -/
theorem becomeWithin_size_succ (cells : Cells) :
    cells.becomeWithin (cells.size + 1) = cells.becomeWithin cells.size := by
  have grows : Monotone fun budget => (cells.ending budget).card :=
    monotone_nat_of_le_succ fun budget => Finset.card_le_card (cells.ending_succ budget)
  have bounded : ∀ budget, (cells.ending budget).card ≤ cells.size := by
    intro budget
    calc (cells.ending budget).card
      _ ≤ (Finset.range cells.size).card := Finset.card_filter_le _ _
      _ = cells.size := Finset.card_range cells.size
  have stays : ∀ budget, (cells.ending budget).card = (cells.ending (budget + 1)).card →
      (cells.ending (budget + 1)).card = (cells.ending (budget + 2)).card := by
    intro budget sameCard
    have same : cells.ending budget = cells.ending (budget + 1) :=
      Finset.eq_of_subset_of_card_le (cells.ending_succ budget) (Nat.le_of_eq sameCard.symm)
    have stable := becomeWithin_succ_congr (becomeWithin_stable same.symm.subset)
    rw [ending, ending, stable]
  -- The number of cells that end grows until it stays, and there are no more than all of them.
  have sameCard := Nat.stabilises_of_monotone grows bounded stays (Nat.le_succ cells.size)
  have same : cells.ending cells.size = cells.ending (cells.size + 1) :=
    Finset.eq_of_subset_of_card_le (cells.ending_succ cells.size) (Nat.le_of_eq sameCard)
  exact becomeWithin_stable same.symm.subset

/-! ## Settling finds the normal form -/

section Sound

variable {become : CellId → Option (Option SettledValue)}

mutual

theorem normalForm_of_settleWith
    (isNormal : ∀ cell normal, become cell = some normal → cells.NormalForm (.deferred cell) normal)
    (value : LiveValue) {normal : Option SettledValue}
    (isSettled : value.settleWith become = some normal) : cells.NormalForm value normal := by
  match value with
  | .null => cases isSettled; exact .null
  | .boolean flag => cases isSettled; exact .boolean flag
  | .integer number => cases isSettled; exact .integer number
  | .float number => cases isSettled; exact .float number
  | .text content => cases isSettled; exact .text content
  | .entity target => cases isSettled; exact .entity target
  | .location target => cases isSettled; exact .location target
  | .list items =>
      simp only [Value.settleWith, Option.bind_eq_bind, Option.bind_eq_some_iff] at isSettled
      obtain ⟨results, itemsSettled, isResult⟩ := isSettled
      cases isResult
      exact .list (normalItems_of_settleItemsWith isNormal items itemsSettled)
  | .map entries =>
      simp only [Value.settleWith, Option.bind_eq_bind, Option.bind_eq_some_iff] at isSettled
      obtain ⟨results, entriesSettled, isResult⟩ := isSettled
      cases isResult
      exact .map (normalEntries_of_settleEntriesWith isNormal entries entriesSettled)
  | .deferred cell => exact isNormal cell normal isSettled

theorem normalItems_of_settleItemsWith
    (isNormal : ∀ cell normal, become cell = some normal → cells.NormalForm (.deferred cell) normal)
    (items : List LiveValue) {normal : List SettledValue}
    (isSettled : Value.settleItemsWith become items = some normal) :
    cells.NormalItems items normal := by
  match items with
  | [] =>
      cases isSettled
      exact .nil
  | item :: rest =>
      simp only [Value.settleItemsWith, Option.bind_eq_bind, Option.bind_eq_some_iff] at isSettled
      obtain ⟨first, itemSettled, others, restSettled, isResult⟩ := isSettled
      cases isResult
      have ofItem := normalForm_of_settleWith isNormal item itemSettled
      have ofRest := normalItems_of_settleItemsWith isNormal rest restSettled
      cases first with
      | none => exact .absent ofItem ofRest
      | some found => exact .present ofItem ofRest

theorem normalEntries_of_settleEntriesWith
    (isNormal : ∀ cell normal, become cell = some normal → cells.NormalForm (.deferred cell) normal)
    (entries : Table LiveValue) {normal : Table SettledValue}
    (isSettled : Value.settleEntriesWith become entries = some normal) :
    cells.NormalEntries entries normal := by
  match entries with
  | [] =>
      cases isSettled
      exact .nil
  | (key, value) :: rest =>
      simp only [Value.settleEntriesWith, Option.bind_eq_bind, Option.bind_eq_some_iff]
        at isSettled
      obtain ⟨first, valueSettled, others, restSettled, isResult⟩ := isSettled
      have ofValue := normalForm_of_settleWith isNormal value valueSettled
      have ofRest := normalEntries_of_settleEntriesWith isNormal rest restSettled
      cases first with
      | none =>
          cases isResult
          exact .absent ofValue ofRest
      | some found =>
          cases isResult
          exact .present ofValue ofRest

end

end Sound

theorem normalForm_of_becomeWithin (budget : Nat) (cell : CellId) (normal : Option SettledValue)
    (ends : cells.becomeWithin budget cell = some normal) :
    cells.NormalForm (.deferred cell) normal := by
  cases isState : cells.state cell with
  | pending =>
      rw [becomeWithin_of_pending isState] at ends
      cases ends
      exact .pending isState
  | failed reason =>
      rw [becomeWithin_of_failed isState] at ends
      cases ends
      exact .failed isState
  | resolved value =>
      cases budget with
      | zero =>
          rw [becomeWithin, isState] at ends
          cases ends
      | succ remaining =>
          rw [becomeWithin_of_resolved isState] at ends
          have inside := normalForm_of_settleWith (normalForm_of_becomeWithin remaining) value ends
          exact .resolved isState inside

mutual

/-- By induction on how the normal form came about: what a resolved cell holds settles within the
number of cells there are, so the cell does within one more, which makes no difference. -/
theorem settled?_of_normalForm {value : LiveValue} {normal : Option SettledValue}
    (isNormal : cells.NormalForm value normal) : cells.settled? value = some normal := by
  match isNormal with
  | .null | .boolean _ | .integer _ | .float _ | .text _ | .entity _ | .location _ => rfl
  | .list ofItems =>
      rw [settled?, Value.settleWith, settleItems_of_normalItems ofItems]
      rfl
  | .map ofEntries =>
      rw [settled?, Value.settleWith, ← settledTable?, settledTable?_of_normalEntries ofEntries]
      rfl
  | .resolved isResolved ofValue =>
      rw [settled?, Value.settleWith, ← becomeWithin_size_succ, becomeWithin_of_resolved isResolved]
      exact settled?_of_normalForm ofValue
  | .pending isPending => exact becomeWithin_of_pending isPending cells.size
  | .failed hasFailed => exact becomeWithin_of_failed hasFailed cells.size

theorem settleItems_of_normalItems {items : List LiveValue} {normal : List SettledValue}
    (isNormal : cells.NormalItems items normal) :
    Value.settleItemsWith (cells.becomeWithin cells.size) items = some normal := by
  match isNormal with
  | .nil => rfl
  | .present ofItem ofRest =>
      rw [Value.settleItemsWith, settleItems_of_normalItems ofRest, ← settled?,
        settled?_of_normalForm ofItem]
      rfl
  | .absent ofItem ofRest =>
      rw [Value.settleItemsWith, settleItems_of_normalItems ofRest, ← settled?,
        settled?_of_normalForm ofItem]
      rfl

theorem settledTable?_of_normalEntries {entries : Table LiveValue} {normal : Table SettledValue}
    (isNormal : cells.NormalEntries entries normal) :
    cells.settledTable? entries = some normal := by
  match isNormal with
  | .nil => rfl
  | .present ofValue ofRest =>
      rw [settledTable?, Value.settleEntriesWith, ← settledTable?, ← settled?,
        settledTable?_of_normalEntries ofRest, settled?_of_normalForm ofValue]
      rfl
  | .absent ofValue ofRest =>
      rw [settledTable?, Value.settleEntriesWith, ← settledTable?, ← settled?,
        settledTable?_of_normalEntries ofRest, settled?_of_normalForm ofValue]
      rfl

end

/-- A table settles exactly where it has a normal form, and to that. -/
theorem settledTable?_eq_some_iff {entries : Table LiveValue} {normal : Table SettledValue} :
    cells.settledTable? entries = some normal ↔ cells.NormalEntries entries normal :=
  ⟨normalEntries_of_settleEntriesWith (normalForm_of_becomeWithin cells.size) entries,
    settledTable?_of_normalEntries⟩

end Cells

/-! ## Records -/

section Records

variable (cells : Cells)

/-- All but the values stays as it is. -/
structure Common.NormalForm (common : Common LiveValue) (normal : Common SettledValue) : Prop where
  id : normal.id = common.id
  typeName : normal.typeName = common.typeName
  displayName : normal.displayName = common.displayName
  config : cells.NormalEntries common.config normal.config
  attributes : cells.NormalEntries common.attributes normal.attributes
  tags : normal.tags = common.tags

structure EntityMemento.NormalForm (memento : EntityMemento LiveValue)
    (normal : EntityMemento SettledValue) : Prop where
  common : memento.common.NormalForm cells normal.common
  parent : normal.parent = memento.parent
  children : normal.children = memento.children
  locations : normal.locations = memento.locations
  policies : normal.policies = memento.policies
  enrichers : normal.enrichers = memento.enrichers
  application : normal.application = memento.application

structure LocationMemento.NormalForm (memento : LocationMemento LiveValue)
    (normal : LocationMemento SettledValue) : Prop where
  common : memento.common.NormalForm cells normal.common
  parent : normal.parent = memento.parent
  children : normal.children = memento.children

structure PolicyMemento.NormalForm (memento : PolicyMemento LiveValue)
    (normal : PolicyMemento SettledValue) : Prop where
  common : memento.common.NormalForm cells normal.common
  flags : cells.NormalEntries memento.flags normal.flags

/-- Records keep their order, and removed ids stay. -/
structure Delta.NormalForm (delta : Delta LiveValue) (normal : Delta SettledValue) : Prop where
  entities : List.Forall₂ (EntityMemento.NormalForm cells) delta.entities normal.entities
  locations : List.Forall₂ (LocationMemento.NormalForm cells) delta.locations normal.locations
  policies : List.Forall₂ (PolicyMemento.NormalForm cells) delta.policies normal.policies
  removedEntities : normal.removedEntities = delta.removedEntities
  removedLocations : normal.removedLocations = delta.removedLocations
  removedPolicies : normal.removedPolicies = delta.removedPolicies

/-- Records of one kind, each under the key under which its normal form stands. -/
def Table.NormalForm {M N : Type} (ofRecord : M → N → Prop) (table : Table M) (normal : Table N) :
    Prop :=
  List.Forall₂ (fun entry other => other.1 = entry.1 ∧ ofRecord entry.2 other.2) table normal

structure Graph.NormalForm (graph : Graph LiveValue) (normal : Graph SettledValue) : Prop where
  entities : Table.NormalForm (EntityMemento.NormalForm cells) graph.entities normal.entities
  locations : Table.NormalForm (LocationMemento.NormalForm cells) graph.locations normal.locations
  policies : Table.NormalForm (PolicyMemento.NormalForm cells) graph.policies normal.policies

variable {cells}

theorem Common.convert_settling_iff {common : Common LiveValue} {normal : Common SettledValue} :
    common.convert cells.settling = some normal ↔ common.NormalForm cells normal := by
  simp only [Common.convert, Cells.settling, Option.bind_eq_bind, Option.bind_eq_some_iff,
    Cells.settledTable?_eq_some_iff]
  constructor
  · rintro ⟨config, ofConfig, attributes, ofAttributes, isResult⟩
    cases isResult
    exact ⟨rfl, rfl, rfl, ofConfig, ofAttributes, rfl⟩
  · intro isNormal
    refine ⟨normal.config, isNormal.config, normal.attributes, isNormal.attributes, ?_⟩
    rw [← isNormal.id, ← isNormal.displayName, ← isNormal.tags, ← isNormal.typeName]
    rfl

theorem EntityMemento.convert_settling_iff {memento : EntityMemento LiveValue}
    {normal : EntityMemento SettledValue} :
    memento.convert cells.settling = some normal ↔ memento.NormalForm cells normal := by
  simp only [EntityMemento.convert, Option.bind_eq_bind, Option.bind_eq_some_iff,
    Common.convert_settling_iff]
  constructor
  · rintro ⟨common, ofCommon, isResult⟩
    cases isResult
    exact ⟨ofCommon, rfl, rfl, rfl, rfl, rfl, rfl⟩
  · intro isNormal
    refine ⟨normal.common, isNormal.common, ?_⟩
    rw [← isNormal.parent, ← isNormal.children, ← isNormal.locations, ← isNormal.policies,
      ← isNormal.enrichers, ← isNormal.application]
    rfl

theorem LocationMemento.convert_settling_iff {memento : LocationMemento LiveValue}
    {normal : LocationMemento SettledValue} :
    memento.convert cells.settling = some normal ↔ memento.NormalForm cells normal := by
  simp only [LocationMemento.convert, Option.bind_eq_bind, Option.bind_eq_some_iff,
    Common.convert_settling_iff]
  constructor
  · rintro ⟨common, ofCommon, isResult⟩
    cases isResult
    exact ⟨ofCommon, rfl, rfl⟩
  · intro isNormal
    refine ⟨normal.common, isNormal.common, ?_⟩
    rw [← isNormal.parent, ← isNormal.children]
    rfl

theorem PolicyMemento.convert_settling_iff {memento : PolicyMemento LiveValue}
    {normal : PolicyMemento SettledValue} :
    memento.convert cells.settling = some normal ↔ memento.NormalForm cells normal := by
  simp only [PolicyMemento.convert, Option.bind_eq_bind, Option.bind_eq_some_iff,
    Common.convert_settling_iff]
  constructor
  · rintro ⟨common, ofCommon, flags, isSettled, isResult⟩
    cases isResult
    exact ⟨ofCommon, Cells.settledTable?_eq_some_iff.mp isSettled⟩
  · intro isNormal
    exact ⟨normal.common, isNormal.common, normal.flags,
      Cells.settledTable?_eq_some_iff.mpr isNormal.flags, rfl⟩

/-- A traversal succeeds exactly with the results of its items. -/
theorem mapM_eq_some_iff {α β : Type} {action : α → Option β} {items : List α}
    {results : List β} :
    items.mapM action = some results ↔
      List.Forall₂ (fun item result => action item = some result) items results := by
  induction items generalizing results with
  | nil =>
      rw [List.mapM_nil, List.forall₂_nil_left_iff]
      exact ⟨fun same => (Option.some.inj same).symm, fun same => congrArg some same.symm⟩
  | cons item rest inductionHypothesis =>
      rw [List.mapM_cons, List.forall₂_cons_left_iff]
      simp only [Option.bind_eq_bind, Option.bind_eq_some_iff, inductionHypothesis]
      constructor
      · rintro ⟨first, isFirst, others, areOthers, isResult⟩
        cases isResult
        exact ⟨first, others, isFirst, areOthers, rfl⟩
      · rintro ⟨first, others, isFirst, areOthers, rfl⟩
        exact ⟨first, isFirst, others, areOthers, rfl⟩

/-- A delta settles exactly where it has a normal form, and to that. -/
theorem Delta.convert_settling_iff {delta : Delta LiveValue} {normal : Delta SettledValue} :
    delta.convert cells.settling = some normal ↔ delta.NormalForm cells normal := by
  simp only [Delta.convert, Option.bind_eq_bind, Option.bind_eq_some_iff, mapM_eq_some_iff,
    EntityMemento.convert_settling_iff, LocationMemento.convert_settling_iff,
    PolicyMemento.convert_settling_iff]
  constructor
  · rintro ⟨entities, ofEntities, locations, ofLocations, policies, ofPolicies, isResult⟩
    cases isResult
    exact ⟨ofEntities, ofLocations, ofPolicies, rfl, rfl, rfl⟩
  · intro isNormal
    refine ⟨normal.entities, isNormal.entities, normal.locations, isNormal.locations,
      normal.policies, isNormal.policies, ?_⟩
    rw [← isNormal.removedEntities, ← isNormal.removedLocations, ← isNormal.removedPolicies]
    rfl

/-- So does a traversal that leaves the keys as they are. -/
theorem Table.mapM_eq_some_iff {M N : Type} {settle : M → Option N} {table : Table M}
    {normal : Table N} :
    (table.mapM fun entry => (settle entry.2).bind fun other => pure (entry.1, other)) =
        some normal ↔
      Table.NormalForm (fun record other => settle record = some other) table normal := by
  rw [GraphCheckpoint.mapM_eq_some_iff, Table.NormalForm]
  have same : (fun (entry : String × M) (other : String × N) =>
      ((settle entry.2).bind fun record => pure (entry.1, record)) = some other) =
        fun entry other => other.1 = entry.1 ∧ settle entry.2 = some other.2 := by
    funext entry other
    cases isSettled : settle entry.2 with
    | none => simp
    | some record => simp [Prod.ext_iff, eq_comm]
  exact Iff.of_eq (congrArg (fun relation => List.Forall₂ relation table normal) same)

/-- A graph settles exactly where it has a normal form, and to that. -/
theorem Graph.convert_settling_iff {graph : Graph LiveValue} {normal : Graph SettledValue} :
    graph.convert cells.settling = some normal ↔ graph.NormalForm cells normal := by
  simp only [Graph.convert, Option.bind_eq_bind, Option.bind_eq_some_iff, Table.mapM_eq_some_iff,
    EntityMemento.convert_settling_iff, LocationMemento.convert_settling_iff,
    PolicyMemento.convert_settling_iff]
  constructor
  · rintro ⟨entities, ofEntities, locations, ofLocations, policies, ofPolicies, isResult⟩
    cases isResult
    exact ⟨ofEntities, ofLocations, ofPolicies⟩
  · intro isNormal
    exact ⟨normal.entities, isNormal.entities, normal.locations, isNormal.locations,
      normal.policies, isNormal.policies, rfl⟩

end Records


end GraphCheckpoint
