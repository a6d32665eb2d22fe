import GraphCheckpoint.Failure
import GraphCheckpoint.Proofs.Graph

/-!
Contract: resolution of references by look-ups that remember.

Owns:
- `Progress`, what a state keeps, how it may grow and what may end look-ups while they go on;
- `Progress.Yields`, an action that gives a described result from every such state, if it succeeds;
- that values, records and graphs resolve when each of their references does.

Does not own: any particular look-up.

A result is described in terms of the final state, whatever that will be: what is found early must
still be described so after all that is found later.
-/

namespace GraphCheckpoint

variable {σ α β : Type}

/-- What holds of a state throughout, with which failures it may end, and which states may come after
it. -/
structure Progress (σ : Type) where
  kept : σ → Prop
  fails : Failure → Prop
  later : σ → σ → Prop
  refl : ∀ state, later state state
  trans : ∀ first second third, later first second → later second third → later first third

namespace Progress

variable (progress : Progress σ)

/-- From every kept state the action fails as it may, or it succeeds and keeps the state, with a
result that is described in terms of every later state. -/
def Yields (action : StateT σ Outcome α) (described : σ → α → Prop) : Prop :=
  ∀ state, progress.kept state →
    (∃ failure, action.run state = .error failure ∧ progress.fails failure) ∨
    ∃ result after, action.run state = .ok (result, after) ∧ progress.kept after ∧
      progress.later state after ∧ ∀ final, progress.later after final → described final result

variable {progress}

/-- An action that may not fail succeeds. -/
theorem Yields.run {action : StateT σ Outcome α} {described : σ → α → Prop}
    (yields : progress.Yields action described) (never : ∀ failure, ¬ progress.fails failure)
    {state : σ} (isKept : progress.kept state) :
    ∃ result after, action.run state = .ok (result, after) ∧ progress.kept after ∧
      progress.later state after ∧ ∀ final, progress.later after final → described final result :=
  (yields state isKept).resolve_left fun ⟨failure, _, isPossible⟩ => never failure isPossible

theorem Yields.pure {result : α} {described : σ → α → Prop}
    (holds : ∀ final, described final result) :
    progress.Yields (Pure.pure result) described := by
  intro state kept
  exact Or.inr ⟨result, state, rfl, kept, progress.refl state, fun final _ => holds final⟩

theorem Yields.bind {action : StateT σ Outcome α} {next : α → StateT σ Outcome β}
    {first : σ → α → Prop} {second : σ → β → Prop} (yields : progress.Yields action first)
    (nextYields : ∀ result, progress.Yields (next result)
      fun final following => first final result → second final following) :
    progress.Yields (action >>= next) second := by
  intro state kept
  rcases yields state kept with ⟨failure, ran, isPossible⟩ |
    ⟨result, middle, ran, middleKept, middleLater, described⟩
  · exact Or.inl ⟨failure, by rw [StateT.run_bind, ran]; rfl, isPossible⟩
  have goesOn : (action >>= next).run state = (next result).run middle := by
    rw [StateT.run_bind, ran]
    rfl
  rw [goesOn]
  refine (nextYields result middle middleKept).imp_right ?_
  rintro ⟨following, after, nextRan, afterKept, afterLater, nextDescribed⟩
  refine ⟨following, after, nextRan, afterKept, progress.trans _ _ _ middleLater afterLater, ?_⟩
  intro final finalLater
  exact nextDescribed final finalLater
    (described final (progress.trans _ _ _ afterLater finalLater))

theorem Yields.mapM {γ : Type} {action : α → StateT σ Outcome β} {items : List α}
    {before : σ → α → γ} {after : β → γ}
    (yields : ∀ item ∈ items, progress.Yields (action item)
      fun final result => after result = before final item) :
    progress.Yields (items.mapM action)
      fun final results => results.map after = items.map (before final) := by
  induction items with
  | nil => exact Yields.pure fun final => rfl
  | cons item rest inductionHypothesis =>
      rw [List.mapM_cons]
      refine (yields item (by simp)).bind fun result => ?_
      refine (inductionHypothesis fun item member => yields item (by simp [member])).bind
        fun results => ?_
      refine Yields.pure fun final restSame firstSame => ?_
      rw [List.map_cons, List.map_cons, firstSame, restSame]

end Progress

/-! ## Values -/

namespace Value

variable {ρ ρ' ρ'' δ : Type} {progress : Progress σ}
  {find : ObjectKind → ρ → StateT σ Outcome ρ'} {before : σ → ρ → ρ''} {after : ρ' → ρ''}

mutual

theorem yields_resolveReferences (value : Value ρ Empty)
    (finds : ∀ reference ∈ value.references, progress.Yields (find reference.1 reference.2)
      fun final found => after found = before final reference.2) :
    progress.Yields (value.resolveReferences find : StateT σ Outcome (Value ρ' δ))
      fun final resolved =>
        resolved.mapReferences after = (value.mapReferences (before final)).lifted := by
  match value with
  | .null | .boolean _ | .integer _ | .float _ | .text _ => exact .pure fun final => rfl
  | .list items =>
      refine (yields_resolveItems items finds).bind fun resolved => .pure fun final same => ?_
      exact congrArg Value.list same
  | .map entries =>
      refine (yields_resolveEntries entries finds).bind fun resolved => .pure fun final same => ?_
      exact congrArg Value.map same
  | .entity target =>
      refine (finds (.entity, target) (by simp [references])).bind fun found =>
        .pure fun final same => ?_
      exact congrArg Value.entity same
  | .location target =>
      refine (finds (.location, target) (by simp [references])).bind fun found =>
        .pure fun final same => ?_
      exact congrArg Value.location same

theorem yields_resolveItems (items : List (Value ρ Empty))
    (finds : ∀ reference ∈ referencesOfItems items,
      progress.Yields (find reference.1 reference.2)
        fun final found => after found = before final reference.2) :
    progress.Yields (resolveItems find items : StateT σ Outcome (List (Value ρ' δ)))
      fun final resolved => mapReferencesOfItems after resolved =
        liftedItems (mapReferencesOfItems (before final) items) := by
  match items with
  | [] => exact .pure fun final => rfl
  | item :: rest =>
      refine (yields_resolveReferences item fun reference member =>
        finds reference (by simp [referencesOfItems, member])).bind fun first => ?_
      refine (yields_resolveItems rest fun reference member =>
        finds reference (by simp [referencesOfItems, member])).bind fun others => ?_
      refine .pure fun final othersSame firstSame => ?_
      exact congrArg₂ List.cons firstSame othersSame

theorem yields_resolveEntries (entries : List (String × Value ρ Empty))
    (finds : ∀ reference ∈ referencesOfEntries entries,
      progress.Yields (find reference.1 reference.2)
        fun final found => after found = before final reference.2) :
    progress.Yields (resolveEntries find entries : StateT σ Outcome (List (String × Value ρ' δ)))
      fun final resolved => mapReferencesOfEntries after resolved =
        liftedEntries (mapReferencesOfEntries (before final) entries) := by
  match entries with
  | [] => exact .pure fun final => rfl
  | (key, value) :: rest =>
      refine (yields_resolveReferences value fun reference member =>
        finds reference (by simp [referencesOfEntries, member])).bind fun first => ?_
      refine (yields_resolveEntries rest fun reference member =>
        finds reference (by simp [referencesOfEntries, member])).bind fun others => ?_
      refine .pure fun final othersSame firstSame => ?_
      exact congrArg₂ (fun one remaining => (key, one) :: remaining) firstSame othersSame

end

end Value

/-! ## Records and graphs -/

section Records

variable {ρ ρ' ρ'' δ : Type} {progress : Progress σ} (names : String → String)
  {find : ObjectKind → ρ → StateT σ Outcome ρ'} {before : σ → ρ → ρ''} {after : ρ' → ρ''}

/-- Resolves references by look-ups and renames types. -/
def Conversion.resolving (names : String → String) (find : ObjectKind → ρ → StateT σ Outcome ρ') :
    Conversion (StateT σ Outcome) (Value ρ Empty) (Value ρ' δ) :=
  ⟨names, Value.resolveEntries find⟩

/-- Changes references and keeps the names of types. -/
def Conversion.relabelling (change : ρ → ρ') : Conversion Id (Value ρ δ) (Value ρ' δ) :=
  ⟨id, Value.mapReferencesOfEntries change⟩

/-- Changes references of values without computed parts and renames types. -/
def Conversion.relabellingLifted (names : String → String) (change : ρ → ρ') :
    Conversion Id (Value ρ Empty) (Value ρ' δ) :=
  ⟨names, fun table => Value.liftedEntries (Value.mapReferencesOfEntries change table)⟩

theorem Common.yields_convert (common : Common (Value ρ Empty))
    (finds : ∀ reference ∈ common.references Value.referencesOfEntries,
      progress.Yields (find reference.1 reference.2)
        fun final found => after found = before final reference.2) :
    progress.Yields (common.convert (.resolving names find) : StateT σ Outcome (Common (Value ρ' δ)))
      fun final resolved => resolved.convert (.relabelling after) =
        common.convert (.relabellingLifted names (before final)) := by
  refine (Value.yields_resolveEntries common.config fun reference member =>
    finds reference (List.mem_append_left _ member)).bind fun config => ?_
  refine (Value.yields_resolveEntries common.attributes fun reference member =>
    finds reference (List.mem_append_right _ member)).bind fun attributes => ?_
  refine .pure fun final attributesSame configSame => ?_
  exact congrArg₂ (fun one other : Table (Value ρ'' δ) => (⟨common.id, names common.typeName,
    common.displayName, one, other, common.tags⟩ : Common (Value ρ'' δ))) configSame attributesSame

theorem EntityMemento.yields_convert (memento : EntityMemento (Value ρ Empty))
    (finds : ∀ reference ∈ memento.valueReferences Value.referencesOfEntries,
      progress.Yields (find reference.1 reference.2)
        fun final found => after found = before final reference.2) :
    progress.Yields
      (memento.convert (.resolving names find) : StateT σ Outcome (EntityMemento (Value ρ' δ)))
      fun final resolved => resolved.convert (.relabelling after) =
        memento.convert (.relabellingLifted names (before final)) := by
  refine (memento.common.yields_convert names finds).bind fun common => .pure fun final same => ?_
  exact congrArg (fun whole : Common (Value ρ'' δ) => (⟨whole, memento.parent, memento.children,
    memento.locations, memento.policies, memento.enrichers, memento.application⟩ :
      EntityMemento (Value ρ'' δ))) same

theorem LocationMemento.yields_convert (memento : LocationMemento (Value ρ Empty))
    (finds : ∀ reference ∈ memento.valueReferences Value.referencesOfEntries,
      progress.Yields (find reference.1 reference.2)
        fun final found => after found = before final reference.2) :
    progress.Yields
      (memento.convert (.resolving names find) : StateT σ Outcome (LocationMemento (Value ρ' δ)))
      fun final resolved => resolved.convert (.relabelling after) =
        memento.convert (.relabellingLifted names (before final)) := by
  refine (memento.common.yields_convert names finds).bind fun common => .pure fun final same => ?_
  exact congrArg (fun whole : Common (Value ρ'' δ) => (⟨whole, memento.parent, memento.children⟩ :
    LocationMemento (Value ρ'' δ))) same

theorem PolicyMemento.yields_convert (memento : PolicyMemento (Value ρ Empty))
    (finds : ∀ reference ∈ memento.valueReferences Value.referencesOfEntries,
      progress.Yields (find reference.1 reference.2)
        fun final found => after found = before final reference.2) :
    progress.Yields
      (memento.convert (.resolving names find) : StateT σ Outcome (PolicyMemento (Value ρ' δ)))
      fun final resolved => resolved.convert (.relabelling after) =
        memento.convert (.relabellingLifted names (before final)) := by
  refine (memento.common.yields_convert names fun reference member =>
    finds reference (List.mem_append_left _ member)).bind fun common => ?_
  refine (Value.yields_resolveEntries memento.flags fun reference member =>
    finds reference (List.mem_append_right _ member)).bind fun flags => ?_
  refine .pure fun final flagsSame commonSame => ?_
  exact congrArg₂ (fun whole contents => (⟨whole, contents⟩ : PolicyMemento (Value ρ'' δ)))
    commonSame flagsSame

/-- The references that stand in values of the records of a delta. -/
def Delta.valueReferences {V α : Type} (ofTable : Table V → List α) (delta : Delta V) : List α :=
  delta.entities.flatMap (EntityMemento.valueReferences ofTable) ++
    delta.locations.flatMap (LocationMemento.valueReferences ofTable) ++
    delta.policies.flatMap (PolicyMemento.valueReferences ofTable)

/-- A conversion changes the references of a delta as it changes those of tables. -/
theorem Delta.valueReferences_convert {V W α β : Type} {conversion : Conversion Id V W}
    {ofTable : Table V → List α} {ofConverted : Table W → List β} {change : α → β}
    (ofTables : ∀ table, ofConverted (conversion.table table) = (ofTable table).map change)
    (delta : Delta V) :
    Delta.valueReferences ofConverted (Delta.convert (m := Id) conversion delta) =
      (delta.valueReferences ofTable).map change := by
  rw [convert_pure]
  simp only [valueReferences, List.map_append, List.map_flatMap, List.flatMap_map,
    EntityMemento.valueReferences_convert ofTables,
    LocationMemento.valueReferences_convert ofTables,
    PolicyMemento.valueReferences_convert ofTables]

/-- The records of a delta resolve when the references in their values do, one kind after another. -/
theorem Delta.yields_convert (delta : Delta (Value ρ Empty))
    (finds : ∀ reference ∈ delta.valueReferences Value.referencesOfEntries,
      progress.Yields (find reference.1 reference.2)
        fun final found => after found = before final reference.2) :
    progress.Yields
      (delta.convert (.resolving names find) : StateT σ Outcome (Delta (Value ρ' δ)))
      fun final resolved => resolved.convert (.relabelling after) =
        delta.convert (.relabellingLifted names (before final)) := by
  have ofEntity : ∀ memento ∈ delta.entities, _ := fun memento member =>
    memento.yields_convert (δ := δ) names fun reference isReference =>
      finds reference (by
        simp only [Delta.valueReferences, List.mem_append, List.mem_flatMap]
        exact Or.inl (Or.inl ⟨memento, member, isReference⟩))
  have ofLocation : ∀ memento ∈ delta.locations, _ := fun memento member =>
    memento.yields_convert (δ := δ) names fun reference isReference =>
      finds reference (by
        simp only [Delta.valueReferences, List.mem_append, List.mem_flatMap]
        exact Or.inl (Or.inr ⟨memento, member, isReference⟩))
  have ofPolicy : ∀ memento ∈ delta.policies, _ := fun memento member =>
    memento.yields_convert (δ := δ) names fun reference isReference =>
      finds reference (by
        simp only [Delta.valueReferences, List.mem_append, List.mem_flatMap]
        exact Or.inr ⟨memento, member, isReference⟩)
  refine (Progress.Yields.mapM ofEntity).bind fun entities => ?_
  refine (Progress.Yields.mapM ofLocation).bind fun locations => ?_
  refine (Progress.Yields.mapM ofPolicy).bind fun policies => ?_
  refine .pure fun final policiesSame locationsSame entitiesSame => ?_
  rw [Delta.convert_pure, Delta.convert_pure]
  simp only [entitiesSame, locationsSame, policiesSame]

/-- Keyed records resolve when each of them does. -/
theorem Progress.Yields.mapM_entries {M N O : Type} {resolve : M → StateT σ Outcome N}
    {changed : σ → M → O} {seen : N → O} {table : Table M}
    (yields : ∀ record ∈ table.values, progress.Yields (resolve record)
      fun final resolved => seen resolved = changed final record) :
    progress.Yields (table.mapM fun (key, record) => do return (key, ← resolve record))
      fun final resolved => Table.mapValues seen resolved = table.mapValues (changed final) := by
  refine Progress.Yields.mapM fun entry member => ?_
  refine (yields entry.2 (List.mem_map_of_mem member)).bind fun resolved => ?_
  exact .pure fun final same => congrArg (fun record => (entry.1, record)) same

/-- A graph resolves when the references in its values do, and is then the graph with each reference
replaced by what was found for it. -/
theorem Graph.yields_convert (graph : Graph (Value ρ Empty))
    (finds : ∀ reference ∈ graph.valueReferences Value.referencesOfEntries,
      progress.Yields (find reference.1 reference.2)
        fun final found => after found = before final reference.2) :
    progress.Yields
      (graph.convert (.resolving names find) : StateT σ Outcome (Graph (Value ρ' δ)))
      fun final resolved => resolved.convert (.relabelling after) =
        graph.convert (.relabellingLifted names (before final)) := by
  have ofEntity : ∀ memento ∈ graph.entities.values, _ := fun memento member =>
    memento.yields_convert (δ := δ) names fun reference isReference =>
      finds reference (by
        simp only [Graph.valueReferences, List.mem_append, List.mem_flatMap]
        exact Or.inl (Or.inl ⟨memento, member, isReference⟩))
  have ofLocation : ∀ memento ∈ graph.locations.values, _ := fun memento member =>
    memento.yields_convert (δ := δ) names fun reference isReference =>
      finds reference (by
        simp only [Graph.valueReferences, List.mem_append, List.mem_flatMap]
        exact Or.inl (Or.inr ⟨memento, member, isReference⟩))
  have ofPolicy : ∀ memento ∈ graph.policies.values, _ := fun memento member =>
    memento.yields_convert (δ := δ) names fun reference isReference =>
      finds reference (by
        simp only [Graph.valueReferences, List.mem_append, List.mem_flatMap]
        exact Or.inr ⟨memento, member, isReference⟩)
  refine (Progress.Yields.mapM_entries ofEntity).bind fun entities => ?_
  refine (Progress.Yields.mapM_entries ofLocation).bind fun locations => ?_
  refine (Progress.Yields.mapM_entries ofPolicy).bind fun policies => ?_
  refine .pure fun final policiesSame locationsSame entitiesSame => ?_
  rw [Graph.convert_pure, Graph.convert_pure]
  simp only [entitiesSame, locationsSame, policiesSame]

end Records

end GraphCheckpoint
