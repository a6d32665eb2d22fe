import GraphCheckpoint.Proofs.Resolving

/-!
Contract: what resolving references does to the state that look-ups share.

Owns:
- `effect`, an operation without its result;
- `Shows`, what of a result is known before, and what comes from questions;
- that resolving values asks for their references, one after another, does nothing else, and changes
  nothing but the references; for a graph or a delta, that it asks in this order;
- `Graph.outline` and `Delta.outline`, what is known of records before their values are resolved.

Does not own: any particular look-up.

Whether records resolve, and with what state this ends, shows in their references alone.
-/

namespace GraphCheckpoint

variable {m : Type → Type} [Monad m] [LawfulMonad m] {α β γ : Type}

/-- What an operation does, its result aside. -/
def effect {m : Type → Type} [Monad m] {α : Type} (action : m α) : m Unit := do
  let _ ← action
  return ()

theorem effect_pure (result : α) : effect (pure result : m α) = pure () := pure_bind _ _

theorem effect_bind (action : m α) {next : α → m β} {after : m Unit}
    (same : ∀ result, effect (next result) = after) :
    effect (action >>= next) = (do effect action; after) := by
  simp only [effect, bind_assoc, pure_bind]
  exact congrArg (action >>= ·) (funext same)

theorem effect_bind_pure (action : m α) (change : α → β) :
    effect (do return change (← action)) = effect action := by
  rw [effect_bind action fun _ => effect_pure _]
  exact bind_pure_unit

theorem effect_map (change : α → β) (action : m α) : effect (change <$> action) = effect action := by
  rw [map_eq_pure_bind]
  exact effect_bind_pure action change

/-- Going through items does what it does for each of them. -/
theorem effect_mapM (action : α → m β) (items : List α) :
    effect (items.mapM action) = forM items fun item => effect (action item) := by
  induction items with
  | nil => exact effect_pure _
  | cons item rest inductionHypothesis =>
      rw [List.mapM_cons, List.forM_cons, ← inductionHypothesis]
      exact effect_bind _ fun _ => effect_bind_pure _ _

theorem map_const (action : m α) (result : β) :
    (fun _ => result) <$> action = (do effect action; return result) := by
  simp only [effect, map_eq_pure_bind, bind_assoc, pure_bind]

/-- Items that each ask for a list of things, and leave what is known before, ask for all of these
things. -/
theorem mapM_asking {action : α → m β} {asked : α → List γ} {ask : γ → m Unit} {shape : α → β}
    (items : List α)
    (asks : ∀ item, action item = (do forM (asked item) ask; return shape item)) :
    items.mapM action = (do forM (items.flatMap asked) ask; return items.map shape) := by
  induction items with
  | nil => rw [List.mapM_nil, List.flatMap_nil, List.forM_nil, pure_bind, List.map_nil]
  | cons item rest inductionHypothesis =>
      rw [List.mapM_cons, List.flatMap_cons, List.forM_append, inductionHypothesis, asks]
      simp only [bind_assoc, pure_bind, List.map_cons]

/-- Keyed records ask when each of them does. -/
theorem mapM_entries_asking {M N : Type} {resolve : M → m N} {asked : M → List γ}
    {shape : M → N}
    (each : ∀ record, resolve record = (do forM (asked record) ask; return shape record))
    (table : Table M) :
    (table.mapM fun (key, record) => do return (key, ← resolve record)) = (do
      forM (table.values.flatMap asked) ask
      return table.mapValues shape) := by
  rw [Table.values, List.flatMap_map]
  refine mapM_asking table fun entry => ?_
  simp only [each, bind_assoc, pure_bind]

/-- Two operations of which the same is seen end together, with the same failure or in the same state. -/
theorem run_of_same {σ : Type} {action : StateT σ Outcome α} {asks : StateT σ Outcome β}
    {seen : α → γ} {answered : β → γ} (same : seen <$> action = answered <$> asks) (state : σ) :
    (∃ failure, asks.run state = .error failure ∧ action.run state = .error failure) ∨
    ∃ answer result after, asks.run state = .ok (answer, after) ∧
      action.run state = .ok (result, after) ∧ seen result = answered answer := by
  have ran := congrArg (fun whole => StateT.run whole state) same
  simp only [StateT.run_map] at ran
  cases asking : asks.run state with
  | error failure =>
      rw [asking] at ran
      cases acting : action.run state with
      | error other =>
          rw [acting] at ran
          cases ran
          exact Or.inl ⟨failure, rfl, rfl⟩
      | ok ended =>
          rw [acting] at ran
          cases ran
  | ok asked =>
      obtain ⟨answer, after⟩ := asked
      rw [asking] at ran
      cases acting : action.run state with
      | error other =>
          rw [acting] at ran
          cases ran
      | ok ended =>
          obtain ⟨result, other⟩ := ended
          rw [acting] at ran
          obtain ⟨sameSeen, rfl⟩ := Prod.mk.inj (Except.ok.inj ran)
          exact Or.inr ⟨answer, result, other, rfl, rfl, sameSeen⟩

/-- An operation that leaves what is known before ends as the questions do that it asks. -/
theorem run_of_map {σ : Type} {action : StateT σ Outcome α} {asks : StateT σ Outcome Unit}
    {seen : α → β} {expected : β} (same : seen <$> action = (do asks; return expected))
    (state : σ) :
    (∃ failure, asks.run state = .error failure ∧ action.run state = .error failure) ∨
    ∃ result after, asks.run state = .ok ((), after) ∧ action.run state = .ok (result, after) ∧
      seen result = expected := by
  have asked : seen <$> action = (fun _ => expected) <$> asks :=
    same.trans (map_eq_pure_bind _ _).symm
  refine (run_of_same asked state).imp_right ?_
  rintro ⟨answer, result, after, asking, acting, isExpected⟩
  exact ⟨result, after, asking, acting, isExpected⟩

/-- Items are gone through to their end, or up to the first that fails. -/
theorem run_mapM_cases {σ : Type} (action : α → StateT σ Outcome β) (items : List α) (state : σ) :
    (∃ results after, (items.mapM action).run state = .ok (results, after)) ∨
    ∃ before item rest results between failure, items = before ++ item :: rest ∧
      (before.mapM action).run state = .ok (results, between) ∧
      (action item).run between = .error failure ∧
      (items.mapM action).run state = .error failure := by
  induction items generalizing state with
  | nil => exact Or.inl ⟨[], state, rfl⟩
  | cons item rest inductionHypothesis =>
      rw [List.mapM_cons, StateT.run_bind]
      cases first : (action item).run state with
      | error failure => exact Or.inr ⟨[], item, rest, [], state, failure, rfl, rfl, first, rfl⟩
      | ok ended =>
          obtain ⟨result, next⟩ := ended
          rcases inductionHypothesis next with ⟨results, after, ran⟩ |
            ⟨before, bad, behind, results, between, failure, rfl, passed, fails, ran⟩
          · refine Or.inl ⟨result :: results, after, ?_⟩
            change ((rest.mapM action).run next >>= _) = _
            rw [ran]
            rfl
          · refine Or.inr ⟨item :: before, bad, behind, result :: results, between, failure, rfl, ?_,
              fails, ?_⟩
            · rw [List.mapM_cons, StateT.run_bind, first]
              change ((before.mapM action).run next >>= _) = _
              rw [passed]
              rfl
            · change (((before ++ bad :: behind).mapM action).run next >>= _) = _
              rw [ran]
              rfl

/-! ## Results with references -/

/-- The result has a form that is known before, and refers to what the questions give, in their order. -/
def Shows {S R : Type} (action : m α) (form : α → S) (refers : α → List R) (known : S)
    (asks : m (List R)) : Prop :=
  (fun result => (form result, refers result)) <$> action = (known, ·) <$> asks

section Shows

variable {S T U R : Type} {action : m α} {other : m β} {form : α → S} {otherForm : β → T}
  {formAfter : γ → U} {refers : α → List R} {otherRefers : β → List R} {refersAfter : γ → List R}
  {known : S} {otherKnown : T} {asks otherAsks : m (List R)}

theorem Shows.effect_eq (seen : Shows action form refers known asks) :
    effect action = effect asks := by
  rw [← effect_map (fun result => (form result, refers result)), seen, effect_map]

theorem Shows.map (seen : Shows action form refers known asks) {change : α → γ} (changeForm : S → U)
    (forms : ∀ result, formAfter (change result) = changeForm (form result))
    (same : ∀ result, refersAfter (change result) = refers result) :
    Shows (do return change (← action)) formAfter refersAfter (changeForm known) asks := by
  have changed := congrArg ((fun pair => (changeForm pair.1, pair.2)) <$> ·) seen
  simp only [Functor.map_map] at changed
  rw [Shows, ← changed]
  simp only [map_eq_pure_bind, bind_assoc, pure_bind, forms, same]

theorem Shows.join (seen : Shows action form refers known asks)
    (otherSeen : Shows other otherForm otherRefers otherKnown otherAsks) {join : α → β → γ}
    (joinForms : S → T → U)
    (forms : ∀ one two, formAfter (join one two) = joinForms (form one) (otherForm two))
    (parts : ∀ one two, refersAfter (join one two) = refers one ++ otherRefers two) :
    Shows (do let one ← action; return join one (← other)) formAfter refersAfter
      (joinForms known otherKnown) (do let found ← asks; return found ++ (← otherAsks)) := by
  have apart : (fun result => (formAfter result, refersAfter result)) <$>
      (do let one ← action; return join one (← other)) = (do
        let one ← (fun result => (form result, refers result)) <$> action
        let two ← (fun result => (otherForm result, otherRefers result)) <$> other
        return (joinForms one.1 two.1, one.2 ++ two.2)) := by
    simp only [map_eq_pure_bind, bind_assoc, pure_bind, forms, parts]
  rw [Shows, apart, seen, otherSeen]
  simp only [map_eq_pure_bind, bind_assoc, pure_bind]

end Shows

/-! ## Values -/

namespace Value

variable {ρ ρ' δ : Type}

/-- A value without regard to where its references lead. -/
def shape : Value ρ δ → Value Unit δ := mapReferences fun _ => ()

def shapeOfItems : List (Value ρ δ) → List (Value Unit δ) := mapReferencesOfItems fun _ => ()

def shapeOfEntries : List (String × Value ρ δ) → List (String × Value Unit δ) :=
  mapReferencesOfEntries fun _ => ()

variable (find : ObjectKind → ρ → m ρ')

/-- Finds what a reference leads to, and keeps its kind. -/
def follow (reference : ObjectKind × ρ) : m (ObjectKind × ρ') := do
  return (reference.1, ← find reference.1 reference.2)

/-- Following a reference fails as finding what it leads to does. -/
theorem run_follow_eq_error {σ : Type} {find : ObjectKind → ρ → StateT σ Outcome ρ'}
    {reference : ObjectKind × ρ} {state : σ} {failure : Failure}
    (fails : (follow find reference).run state = .error failure) :
    (find reference.1 reference.2).run state = .error failure := by
  rw [follow, StateT.run_bind] at fails
  cases found : (find reference.1 reference.2).run state with
  | error other =>
      rw [found] at fails
      cases fails
      rfl
  | ok ended =>
      rw [found] at fails
      cases fails

mutual

/-- A value that resolves keeps its shape, and refers to what is found for its references, one after
another. -/
theorem shows_resolveReferences (value : Value ρ Empty) :
    Shows (value.resolveReferences find : m (Value ρ' δ)) shape references value.lifted.shape
      (value.references.mapM (follow find)) := by
  match value with
  | .null | .boolean _ | .integer _ | .float _ | .text _ =>
      simp only [Shows, resolveReferences, references, List.mapM_nil, map_pure]
      rfl
  | .entity target | .location target =>
      simp only [Shows, resolveReferences, references, List.mapM_cons, List.mapM_nil, follow,
        map_eq_pure_bind, bind_assoc, pure_bind]
      rfl
  | .list items => exact (shows_resolveItems items).map Value.list (fun _ => rfl) fun _ => rfl
  | .map entries => exact (shows_resolveEntries entries).map Value.map (fun _ => rfl) fun _ => rfl

theorem shows_resolveItems (items : List (Value ρ Empty)) :
    Shows (resolveItems find items : m (List (Value ρ' δ))) shapeOfItems referencesOfItems
      (shapeOfItems (liftedItems items)) ((referencesOfItems items).mapM (follow find)) := by
  match items with
  | [] =>
      simp only [Shows, resolveItems, referencesOfItems, List.mapM_nil, map_pure]
      rfl
  | item :: rest =>
      rw [referencesOfItems, List.mapM_append]
      exact (shows_resolveReferences item).join (shows_resolveItems rest) List.cons (fun _ _ => rfl)
        fun _ _ => rfl

theorem shows_resolveEntries (entries : List (String × Value ρ Empty)) :
    Shows (resolveEntries find entries : m (List (String × Value ρ' δ))) shapeOfEntries
      referencesOfEntries (shapeOfEntries (liftedEntries entries))
      ((referencesOfEntries entries).mapM (follow find)) := by
  match entries with
  | [] =>
      simp only [Shows, resolveEntries, referencesOfEntries, List.mapM_nil, map_pure]
      rfl
  | (key, value) :: rest =>
      rw [referencesOfEntries, List.mapM_append]
      exact (shows_resolveReferences value).join (shows_resolveEntries rest)
        (fun first others => (key, first) :: others) (fun _ _ => rfl) fun _ _ => rfl

end

/-- Resolving a table asks for its references, one after another, and does nothing else. -/
theorem effect_resolveEntries (entries : List (String × Value ρ Empty)) :
    effect (resolveEntries find entries : m (List (String × Value ρ' δ))) =
      forM (referencesOfEntries entries) fun reference => effect (find reference.1 reference.2) := by
  rw [(shows_resolveEntries find entries).effect_eq, effect_mapM]
  exact congrArg (forM (referencesOfEntries entries)) (funext fun _ => effect_bind_pure _ _)

end Value

/-! ## Records and graphs -/

/-- Forgets all values and renames types. -/
def Conversion.forgetting (names : String → String) {V : Type} : Conversion Id V Empty :=
  ⟨names, fun _ => []⟩

/-- The records of a graph without their values. -/
def Graph.outline {V : Type} (names : String → String) (graph : Graph V) : Graph Empty :=
  graph.convert (m := Id) (.forgetting names)

/-- The records of a delta without their values. -/
def Delta.outline {V : Type} (names : String → String) (delta : Delta V) : Delta Empty :=
  delta.convert (m := Id) (.forgetting names)

/-- Converting a table asks for what it holds, and does nothing else. -/
def Conversion.Asks {m : Type → Type} [Monad m] {V W γ : Type} (conversion : Conversion m V W)
    (ofTable : Table V → List γ) (ask : γ → m Unit) : Prop :=
  ∀ table, effect (conversion.table table) = forM (ofTable table) ask

theorem Conversion.asks_resolving {ρ ρ' δ : Type} (names : String → String)
    (find : ObjectKind → ρ → m ρ') :
    Conversion.Asks (⟨names, Value.resolveEntries find⟩ : Conversion m _ (Value ρ' δ))
      Value.referencesOfEntries fun reference => effect (find reference.1 reference.2) :=
  Value.effect_resolveEntries find

section Records

variable {V : Type} {conversion : Conversion m V Empty} {ofTable : Table V → List γ}
  {ask : γ → m Unit}
  (asks : ∀ table, conversion.table table = (do forM (ofTable table) ask; return []))

include asks

private theorem Common.convert_asking (common : Common V) :
    common.convert conversion = (do
      forM (common.references ofTable) ask
      return common.convert (m := Id) (.forgetting conversion.typeName)) := by
  simp only [Common.convert, asks, Common.references, List.forM_append, bind_assoc, pure_bind]
  rfl

private theorem EntityMemento.convert_asking (memento : EntityMemento V) :
    memento.convert conversion = (do
      forM (memento.valueReferences ofTable) ask
      return memento.convert (m := Id) (.forgetting conversion.typeName)) := by
  simp only [EntityMemento.convert, Common.convert_asking asks, EntityMemento.valueReferences,
    bind_assoc, pure_bind]
  rfl

private theorem LocationMemento.convert_asking (memento : LocationMemento V) :
    memento.convert conversion = (do
      forM (memento.valueReferences ofTable) ask
      return memento.convert (m := Id) (.forgetting conversion.typeName)) := by
  simp only [LocationMemento.convert, Common.convert_asking asks, LocationMemento.valueReferences,
    bind_assoc, pure_bind]
  rfl

private theorem PolicyMemento.convert_asking (memento : PolicyMemento V) :
    memento.convert conversion = (do
      forM (memento.valueReferences ofTable) ask
      return memento.convert (m := Id) (.forgetting conversion.typeName)) := by
  simp only [PolicyMemento.convert, Common.convert_asking asks, asks,
    PolicyMemento.valueReferences, List.forM_append, bind_assoc, pure_bind]
  rfl

private theorem Graph.convert_asking (graph : Graph V) :
    graph.convert conversion = (do
      forM (graph.valueReferences ofTable) ask
      return graph.outline conversion.typeName) := by
  have ofEntities := mapM_entries_asking
    (fun memento => EntityMemento.convert_asking asks memento) graph.entities
  have ofLocations := mapM_entries_asking
    (fun memento => LocationMemento.convert_asking asks memento) graph.locations
  have ofPolicies := mapM_entries_asking
    (fun memento => PolicyMemento.convert_asking asks memento) graph.policies
  rw [outline, convert_pure, Graph.convert, ofEntities, ofLocations, ofPolicies]
  simp only [Graph.valueReferences, List.forM_append, bind_assoc, pure_bind]

private theorem Delta.convert_asking (delta : Delta V) :
    delta.convert conversion = (do
      forM (delta.valueReferences ofTable) ask
      return delta.outline conversion.typeName) := by
  have ofEntities := mapM_asking delta.entities
    fun memento => EntityMemento.convert_asking asks memento
  have ofLocations := mapM_asking delta.locations
    fun memento => LocationMemento.convert_asking asks memento
  have ofPolicies := mapM_asking delta.policies
    fun memento => PolicyMemento.convert_asking asks memento
  rw [outline, convert_pure, Delta.convert, ofEntities, ofLocations, ofPolicies]
  simp only [Delta.valueReferences, List.forM_append, bind_assoc, pure_bind]

end Records

/-- Where converting a table asks for what it holds, forgetting what comes of it leaves the asking. -/
private theorem Conversion.Asks.followedBy_forgetting {V W : Type} {conversion : Conversion m V W}
    {ofTable : Table V → List γ} {ask : γ → m Unit} (asks : conversion.Asks ofTable ask)
    (table : Table V) : (conversion.followedBy (.forgetting id)).table table =
      (do forM (ofTable table) ask; return []) := by
  rw [← asks]
  exact map_const _ _

/-- Converting a graph asks for its references, one kind of record after another, and leaves records
with the same ids and links. -/
theorem Graph.outline_convert {V W : Type} {conversion : Conversion m V W}
    {ofTable : Table V → List γ} {ask : γ → m Unit} (asks : conversion.Asks ofTable ask)
    (graph : Graph V) :
    Graph.outline id <$> graph.convert conversion = (do
      forM (graph.valueReferences ofTable) ask
      return graph.outline conversion.typeName) :=
  (Graph.convert_followedBy conversion (.forgetting id) graph).symm.trans
    (Graph.convert_asking asks.followedBy_forgetting graph)

/-- So does converting a delta. -/
theorem Delta.outline_convert {V W : Type} {conversion : Conversion m V W}
    {ofTable : Table V → List γ} {ask : γ → m Unit} (asks : conversion.Asks ofTable ask)
    (delta : Delta V) :
    Delta.outline id <$> delta.convert conversion = (do
      forM (delta.valueReferences ofTable) ask
      return delta.outline conversion.typeName) :=
  (Delta.convert_followedBy conversion (.forgetting id) delta).symm.trans
    (Delta.convert_asking asks.followedBy_forgetting delta)

end GraphCheckpoint
