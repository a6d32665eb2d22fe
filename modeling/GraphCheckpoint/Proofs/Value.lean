import GraphCheckpoint.Proofs.Table
import GraphCheckpoint.Value
import Mathlib.Logic.Basic

/-!
Contract: what a change of references, and the settling of computed parts, keep of a value.

Owns:
- `Value.Regular`, the values all of whose maps are ordered, with floats or without;
- that a change of references and the settling of computed parts keep a value regular;
- `Value.lifted`, a value without computed parts read as one that could have some.

Does not own: which references there are, or when computed parts settle.
-/

namespace GraphCheckpoint.Value

variable {ρ ρ' ρ'' δ : Type} {floats : Prop}

/-! ## Regular values -/

mutual

/-- Every map in the value is in ascending key order, and floats stand in it only where they may. -/
def Regular (floats : Prop) : Value ρ δ → Prop
  | .float _ => floats
  | .list items => RegularItems floats items
  | .map entries => Table.Ordered entries ∧ RegularEntries floats entries
  | _ => True

def RegularItems (floats : Prop) : List (Value ρ δ) → Prop
  | [] => True
  | item :: rest => item.Regular floats ∧ RegularItems floats rest

def RegularEntries (floats : Prop) : List (String × Value ρ δ) → Prop
  | [] => True
  | (_, value) :: rest => value.Regular floats ∧ RegularEntries floats rest

end

/-- A table that could be the contents of a regular map. -/
def RegularTable (floats : Prop) (table : Table (Value ρ δ)) : Prop :=
  Table.Ordered table ∧ RegularEntries floats table

/-! ## Change of references -/

theorem mapReferencesOfEntries_eq (change : ρ → ρ') (entries : Table (Value ρ δ)) :
    mapReferencesOfEntries change entries = entries.mapValues (mapReferences change) := by
  induction entries with
  | nil => rfl
  | cons entry rest inductionHypothesis =>
      obtain ⟨key, value⟩ := entry
      rw [mapReferencesOfEntries, inductionHypothesis]
      rfl

theorem ordered_mapReferencesOfEntries (change : ρ → ρ') {entries : Table (Value ρ δ)}
    (ordered : Table.Ordered entries) :
    Table.Ordered (mapReferencesOfEntries change entries) := by
  rw [mapReferencesOfEntries_eq]
  exact ordered.mapValues _

mutual

theorem Regular.mapReferences (change : ρ → ρ') (value : Value ρ δ)
    (regular : value.Regular floats) : (value.mapReferences change).Regular floats := by
  match value with
  | .null | .boolean _ | .integer _ | .text _ | .entity _ | .location _ | .deferred _ =>
      exact trivial
  | .float _ => exact regular
  | .list items => exact RegularItems.mapReferences change items regular
  | .map entries =>
      exact ⟨ordered_mapReferencesOfEntries change regular.1,
        RegularEntries.mapReferences change entries regular.2⟩

theorem RegularItems.mapReferences (change : ρ → ρ') (items : List (Value ρ δ))
    (regular : RegularItems floats items) :
    RegularItems floats (mapReferencesOfItems change items) := by
  match items with
  | [] => exact trivial
  | item :: rest =>
      exact ⟨Regular.mapReferences change item regular.1,
        RegularItems.mapReferences change rest regular.2⟩

theorem RegularEntries.mapReferences (change : ρ → ρ') (entries : List (String × Value ρ δ))
    (regular : RegularEntries floats entries) :
    RegularEntries floats (mapReferencesOfEntries change entries) := by
  match entries with
  | [] => exact trivial
  | (_, value) :: rest =>
      exact ⟨Regular.mapReferences change value regular.1,
        RegularEntries.mapReferences change rest regular.2⟩

end

theorem RegularTable.mapReferences (change : ρ → ρ') {table : Table (Value ρ δ)}
    (regular : RegularTable floats table) :
    RegularTable floats (mapReferencesOfEntries change table) :=
  ⟨ordered_mapReferencesOfEntries change regular.1,
    RegularEntries.mapReferences change _ regular.2⟩

mutual

theorem mapReferences_mapReferences (first : ρ → ρ') (second : ρ' → ρ'') (value : Value ρ δ) :
    (value.mapReferences first).mapReferences second =
      value.mapReferences fun target => second (first target) := by
  match value with
  | .null | .boolean _ | .integer _ | .float _ | .text _ | .entity _ | .location _
  | .deferred _ => rfl
  | .list items =>
      exact congrArg Value.list (mapReferencesOfItems_mapReferencesOfItems first second items)
  | .map entries =>
      exact congrArg Value.map (mapReferencesOfEntries_mapReferencesOfEntries first second entries)

theorem mapReferencesOfItems_mapReferencesOfItems (first : ρ → ρ') (second : ρ' → ρ'')
    (items : List (Value ρ δ)) :
    mapReferencesOfItems second (mapReferencesOfItems first items) =
      mapReferencesOfItems (fun target => second (first target)) items := by
  match items with
  | [] => rfl
  | item :: rest =>
      exact congrArg₂ List.cons (mapReferences_mapReferences first second item)
        (mapReferencesOfItems_mapReferencesOfItems first second rest)

theorem mapReferencesOfEntries_mapReferencesOfEntries (first : ρ → ρ') (second : ρ' → ρ'')
    (entries : List (String × Value ρ δ)) :
    mapReferencesOfEntries second (mapReferencesOfEntries first entries) =
      mapReferencesOfEntries (fun target => second (first target)) entries := by
  match entries with
  | [] => rfl
  | (key, value) :: rest =>
      exact congrArg₂ (fun one others => (key, one) :: others)
        (mapReferences_mapReferences first second value)
        (mapReferencesOfEntries_mapReferencesOfEntries first second rest)

end

mutual

theorem references_mapReferences (change : ρ → ρ') (value : Value ρ δ) :
    (value.mapReferences change).references =
      value.references.map fun reference => (reference.1, change reference.2) := by
  match value with
  | .null | .boolean _ | .integer _ | .float _ | .text _ | .entity _ | .location _
  | .deferred _ => rfl
  | .list items => exact referencesOfItems_mapReferencesOfItems change items
  | .map entries => exact referencesOfEntries_mapReferencesOfEntries change entries

theorem referencesOfItems_mapReferencesOfItems (change : ρ → ρ') (items : List (Value ρ δ)) :
    referencesOfItems (mapReferencesOfItems change items) =
      (referencesOfItems items).map fun reference => (reference.1, change reference.2) := by
  match items with
  | [] => rfl
  | item :: rest =>
      rw [mapReferencesOfItems, referencesOfItems, referencesOfItems, List.map_append,
        references_mapReferences change item, referencesOfItems_mapReferencesOfItems change rest]

theorem referencesOfEntries_mapReferencesOfEntries (change : ρ → ρ')
    (entries : List (String × Value ρ δ)) :
    referencesOfEntries (mapReferencesOfEntries change entries) =
      (referencesOfEntries entries).map fun reference => (reference.1, change reference.2) := by
  match entries with
  | [] => rfl
  | (key, value) :: rest =>
      rw [mapReferencesOfEntries, referencesOfEntries, referencesOfEntries, List.map_append,
        references_mapReferences change value,
        referencesOfEntries_mapReferencesOfEntries change rest]

end

mutual

theorem deferrals_mapReferences (change : ρ → ρ') (value : Value ρ δ) :
    (value.mapReferences change).deferrals = value.deferrals := by
  match value with
  | .null | .boolean _ | .integer _ | .float _ | .text _ | .entity _ | .location _
  | .deferred _ => rfl
  | .list items => exact deferralsOfItems_mapReferencesOfItems change items
  | .map entries => exact deferralsOfEntries_mapReferencesOfEntries change entries

theorem deferralsOfItems_mapReferencesOfItems (change : ρ → ρ') (items : List (Value ρ δ)) :
    deferralsOfItems (mapReferencesOfItems change items) = deferralsOfItems items := by
  match items with
  | [] => rfl
  | item :: rest =>
      exact congrArg₂ (· ++ ·) (deferrals_mapReferences change item)
        (deferralsOfItems_mapReferencesOfItems change rest)

theorem deferralsOfEntries_mapReferencesOfEntries (change : ρ → ρ')
    (entries : List (String × Value ρ δ)) :
    deferralsOfEntries (mapReferencesOfEntries change entries) = deferralsOfEntries entries := by
  match entries with
  | [] => rfl
  | (key, value) :: rest =>
      exact congrArg₂ (· ++ ·) (deferrals_mapReferences change value)
        (deferralsOfEntries_mapReferencesOfEntries change rest)

end

/-! ## Settling -/

section Settling

variable {become : δ → Option (Option (Value ρ Empty))}

/-- Settling leaves keys out and adds none. -/
theorem keys_settleEntriesWith {entries : List (String × Value ρ δ)}
    {settled : List (String × Value ρ Empty)}
    (isSettled : settleEntriesWith become entries = some settled) :
    List.Sublist (Table.keys settled) (Table.keys entries) := by
  induction entries generalizing settled with
  | nil =>
      cases isSettled
      exact List.Sublist.slnil
  | cons entry rest inductionHypothesis =>
      obtain ⟨key, value⟩ := entry
      simp only [settleEntriesWith, Option.bind_eq_bind, Option.bind_eq_some_iff] at isSettled
      obtain ⟨present, -, others, restSettled, isResult⟩ := isSettled
      have below := inductionHypothesis restSettled
      cases present with
      | none =>
          cases isResult
          exact List.Sublist.cons _ below
      | some found =>
          cases isResult
          exact List.Sublist.cons_cons _ below

theorem ordered_of_keys {α β : Type} {table : Table α} {part : Table β}
    (ordered : Table.Ordered table)
    (sublist : List.Sublist (Table.keys part) (Table.keys table)) : Table.Ordered part :=
  List.pairwise_map.mp ((List.pairwise_map.mpr ordered).sublist sublist)

mutual

theorem Regular.settleWith
    (whole : ∀ cell settled, become cell = some (some settled) → settled.Regular floats)
    (value : Value ρ δ) {settled : Value ρ Empty} (regular : value.Regular floats)
    (isSettled : value.settleWith become = some (some settled)) : settled.Regular floats := by
  match value with
  | .null | .boolean _ | .integer _ | .text _ | .entity _ | .location _ =>
      cases isSettled
      exact trivial
  | .float _ =>
      cases isSettled
      exact regular
  | .list items =>
      simp only [Value.settleWith, Option.bind_eq_bind, Option.bind_eq_some_iff] at isSettled
      obtain ⟨results, itemsSettled, isResult⟩ := isSettled
      cases isResult
      exact RegularItems.settleItemsWith whole items regular itemsSettled
  | .map entries =>
      simp only [Value.settleWith, Option.bind_eq_bind, Option.bind_eq_some_iff] at isSettled
      obtain ⟨results, entriesSettled, isResult⟩ := isSettled
      cases isResult
      exact ⟨ordered_of_keys regular.1 (keys_settleEntriesWith entriesSettled),
        RegularEntries.settleEntriesWith whole entries regular.2 entriesSettled⟩
  | .deferred cell => exact whole cell settled isSettled

theorem RegularItems.settleItemsWith
    (whole : ∀ cell settled, become cell = some (some settled) → settled.Regular floats)
    (items : List (Value ρ δ)) {settled : List (Value ρ Empty)}
    (regular : RegularItems floats items)
    (isSettled : Value.settleItemsWith become items = some settled) :
    RegularItems floats settled := by
  match items with
  | [] =>
      cases isSettled
      exact trivial
  | item :: rest =>
      simp only [Value.settleItemsWith, Option.bind_eq_bind, Option.bind_eq_some_iff] at isSettled
      obtain ⟨present, itemSettled, others, restSettled, isResult⟩ := isSettled
      cases isResult
      have restRegular := RegularItems.settleItemsWith whole rest regular.2 restSettled
      cases present with
      | none => exact ⟨trivial, restRegular⟩
      | some found => exact ⟨Regular.settleWith whole item regular.1 itemSettled, restRegular⟩

theorem RegularEntries.settleEntriesWith
    (whole : ∀ cell settled, become cell = some (some settled) → settled.Regular floats)
    (entries : List (String × Value ρ δ)) {settled : List (String × Value ρ Empty)}
    (regular : RegularEntries floats entries)
    (isSettled : Value.settleEntriesWith become entries = some settled) :
    RegularEntries floats settled := by
  match entries with
  | [] =>
      cases isSettled
      exact trivial
  | (key, value) :: rest =>
      simp only [Value.settleEntriesWith, Option.bind_eq_bind, Option.bind_eq_some_iff]
        at isSettled
      obtain ⟨present, valueSettled, others, restSettled, isResult⟩ := isSettled
      have restRegular := RegularEntries.settleEntriesWith whole rest regular.2 restSettled
      cases present with
      | none =>
          cases isResult
          exact restRegular
      | some found =>
          cases isResult
          exact ⟨Regular.settleWith whole value regular.1 valueSettled, restRegular⟩

end

theorem RegularTable.settleEntriesWith
    (whole : ∀ cell settled, become cell = some (some settled) → settled.Regular floats)
    {table : Table (Value ρ δ)} {settled : Table (Value ρ Empty)}
    (regular : RegularTable floats table)
    (isSettled : Value.settleEntriesWith become table = some settled) :
    RegularTable floats settled :=
  ⟨ordered_of_keys regular.1 (keys_settleEntriesWith isSettled),
    RegularEntries.settleEntriesWith whole table regular.2 isSettled⟩

end Settling

/-! ## Values without computed parts -/

mutual

/-- A value without computed parts, read as one that could have some. -/
def lifted : Value ρ Empty → Value ρ δ
  | .null => .null
  | .boolean flag => .boolean flag
  | .integer number => .integer number
  | .float number => .float number
  | .text content => .text content
  | .list items => .list (liftedItems items)
  | .map entries => .map (liftedEntries entries)
  | .entity target => .entity target
  | .location target => .location target

def liftedItems : List (Value ρ Empty) → List (Value ρ δ)
  | [] => []
  | item :: rest => item.lifted :: liftedItems rest

def liftedEntries : List (String × Value ρ Empty) → List (String × Value ρ δ)
  | [] => []
  | (key, value) :: rest => (key, value.lifted) :: liftedEntries rest

end

mutual

theorem mapReferences_lifted (change : ρ → ρ') (value : Value ρ Empty) :
    (value.lifted : Value ρ δ).mapReferences change = (value.mapReferences change).lifted := by
  match value with
  | .null | .boolean _ | .integer _ | .float _ | .text _ | .entity _ | .location _ => rfl
  | .list items => exact congrArg Value.list (mapReferencesOfItems_liftedItems change items)
  | .map entries => exact congrArg Value.map (mapReferencesOfEntries_liftedEntries change entries)

theorem mapReferencesOfItems_liftedItems (change : ρ → ρ') (items : List (Value ρ Empty)) :
    mapReferencesOfItems change (liftedItems items : List (Value ρ δ)) =
      liftedItems (mapReferencesOfItems change items) := by
  match items with
  | [] => rfl
  | item :: rest =>
      exact congrArg₂ List.cons (mapReferences_lifted change item)
        (mapReferencesOfItems_liftedItems change rest)

theorem mapReferencesOfEntries_liftedEntries (change : ρ → ρ')
    (entries : List (String × Value ρ Empty)) :
    mapReferencesOfEntries change (liftedEntries entries : List (String × Value ρ δ)) =
      liftedEntries (mapReferencesOfEntries change entries) := by
  match entries with
  | [] => rfl
  | (key, value) :: rest =>
      exact congrArg₂ (fun one others => (key, one) :: others)
        (mapReferences_lifted change value) (mapReferencesOfEntries_liftedEntries change rest)

end

mutual

theorem references_lifted (value : Value ρ Empty) :
    (value.lifted : Value ρ δ).references = value.references := by
  match value with
  | .null | .boolean _ | .integer _ | .float _ | .text _ | .entity _ | .location _ => rfl
  | .list items => exact referencesOfItems_liftedItems items
  | .map entries => exact referencesOfEntries_liftedEntries entries

theorem referencesOfItems_liftedItems (items : List (Value ρ Empty)) :
    referencesOfItems (liftedItems items : List (Value ρ δ)) = referencesOfItems items := by
  match items with
  | [] => rfl
  | item :: rest =>
      exact congrArg₂ (· ++ ·) (references_lifted item) (referencesOfItems_liftedItems rest)

theorem referencesOfEntries_liftedEntries (entries : List (String × Value ρ Empty)) :
    referencesOfEntries (liftedEntries entries : List (String × Value ρ δ)) =
      referencesOfEntries entries := by
  match entries with
  | [] => rfl
  | (key, value) :: rest =>
      exact congrArg₂ (· ++ ·) (references_lifted value) (referencesOfEntries_liftedEntries rest)

end

mutual

theorem deferrals_lifted (value : Value ρ Empty) : (value.lifted : Value ρ δ).deferrals = [] := by
  match value with
  | .null | .boolean _ | .integer _ | .float _ | .text _ | .entity _ | .location _ => rfl
  | .list items => exact deferralsOfItems_liftedItems items
  | .map entries => exact deferralsOfEntries_liftedEntries entries

theorem deferralsOfItems_liftedItems (items : List (Value ρ Empty)) :
    deferralsOfItems (liftedItems items : List (Value ρ δ)) = [] := by
  match items with
  | [] => rfl
  | item :: rest =>
      exact List.append_eq_nil_iff.mpr ⟨deferrals_lifted item, deferralsOfItems_liftedItems rest⟩

theorem deferralsOfEntries_liftedEntries (entries : List (String × Value ρ Empty)) :
    deferralsOfEntries (liftedEntries entries : List (String × Value ρ δ)) = [] := by
  match entries with
  | [] => rfl
  | (key, value) :: rest =>
      exact List.append_eq_nil_iff.mpr
        ⟨deferrals_lifted value, deferralsOfEntries_liftedEntries rest⟩

end

end GraphCheckpoint.Value
