import GraphCheckpoint.Proofs.Asking
import GraphCheckpoint.Proofs.Knots
import GraphCheckpoint.Proofs.Reloading

/-!
Contract: a record that is put into the form in which it is written, and taken out of it again.

Owns:
- the normal form of a record of any kind, and its values in the order in which they are gone through;
- that what is taken out is the normal form, but for its references, which are what the look-ups give;
- which look-up decides the failure;
- that the normal form refers to what the record refers to, and is written as the record is.

Does not own: the bytes between the two forms.

Look-ups may remember, so each is made in the state that the ones before it leave. The first that fails
ends the reading.
-/

namespace GraphCheckpoint

open GraphCheckpoint.Encoding

/-! ## Values in a row -/

namespace Value

variable {ρ ρ' δ : Type}

theorem referencesOfEntries_append (first second : Table (Value ρ δ)) :
    referencesOfEntries (first ++ second) =
      referencesOfEntries first ++ referencesOfEntries second := by
  induction first with
  | nil => rfl
  | cons entry rest inductionHypothesis =>
      obtain ⟨key, value⟩ := entry
      rw [List.cons_append, referencesOfEntries, referencesOfEntries, inductionHypothesis,
        List.append_assoc]

/-- A change of references leaves the shape of values. -/
theorem shapeOfEntries_mapReferences (change : ρ → ρ') (entries : Table (Value ρ Empty)) :
    shapeOfEntries (liftedEntries (mapReferencesOfEntries change entries) : Table (Value ρ' δ)) =
      shapeOfEntries (liftedEntries entries) := by
  rw [shapeOfEntries, shapeOfEntries, mapReferencesOfEntries_liftedEntries,
    mapReferencesOfEntries_liftedEntries, mapReferencesOfEntries_mapReferencesOfEntries]

theorem length_references_of_shape {left right : Value ρ δ} (same : left.shape = right.shape) :
    left.references.length = right.references.length := by
  have counted := congrArg (fun value => (references value).length) same
  simpa only [shape, references_mapReferences, List.length_map] using counted

theorem length_references_of_shapeOfEntries {left right : List (String × Value ρ δ)}
    (same : shapeOfEntries left = shapeOfEntries right) :
    (referencesOfEntries left).length = (referencesOfEntries right).length := by
  have counted := congrArg (fun entries => (referencesOfEntries entries).length) same
  simpa only [shapeOfEntries, referencesOfEntries_mapReferencesOfEntries, List.length_map]
    using counted

mutual

/-- A value is known by its shape and what it refers to. -/
theorem eq_of_shape (left right : Value ρ δ) (sameShape : left.shape = right.shape)
    (sameReferences : left.references = right.references) : left = right := by
  match left with
  | .list items =>
      cases right with
      | list others =>
          exact congrArg Value.list
            (eq_of_shapeOfItems items others (Value.list.inj sameShape) sameReferences)
      | _ => exact nomatch sameShape
  | .map entries =>
      cases right with
      | map others =>
          exact congrArg Value.map
            (eq_of_shapeOfEntries entries others (Value.map.inj sameShape) sameReferences)
      | _ => exact nomatch sameShape
  | .entity target =>
      cases right <;> cases sameShape
      cases sameReferences
      rfl
  | .location target =>
      cases right <;> cases sameShape
      cases sameReferences
      rfl
  | .null | .boolean _ | .integer _ | .float _ | .text _ | .deferred _ =>
      cases right <;> cases sameShape
      rfl

theorem eq_of_shapeOfItems (left right : List (Value ρ δ))
    (sameShape : shapeOfItems left = shapeOfItems right)
    (sameReferences : referencesOfItems left = referencesOfItems right) : left = right := by
  match left, right with
  | [], [] => rfl
  | [], _ :: _ | _ :: _, [] => exact nomatch sameShape
  | item :: rest, other :: others =>
      obtain ⟨sameFirst, sameRest⟩ := List.cons.inj sameShape
      obtain ⟨refersFirst, refersRest⟩ :=
        List.append_inj sameReferences (length_references_of_shape sameFirst)
      rw [eq_of_shape item other sameFirst refersFirst,
        eq_of_shapeOfItems rest others sameRest refersRest]

theorem eq_of_shapeOfEntries (left right : List (String × Value ρ δ))
    (sameShape : shapeOfEntries left = shapeOfEntries right)
    (sameReferences : referencesOfEntries left = referencesOfEntries right) : left = right := by
  match left, right with
  | [], [] => rfl
  | [], _ :: _ | _ :: _, [] => exact nomatch sameShape
  | (key, value) :: rest, (otherKey, other) :: others =>
      obtain ⟨sameFirst, sameRest⟩ := List.cons.inj sameShape
      obtain ⟨sameKey, sameValue⟩ := Prod.mk.inj sameFirst
      obtain ⟨refersFirst, refersRest⟩ :=
        List.append_inj sameReferences (length_references_of_shape sameValue)
      rw [sameKey, eq_of_shape value other sameValue refersFirst,
        eq_of_shapeOfEntries rest others sameRest refersRest]

end
end Value

namespace Cells

variable {cells : Cells}

mutual

/-- A value without computed parts is its own normal form. -/
theorem normalForm_lifted (value : SettledValue) : cells.NormalForm value.lifted (some value) := by
  match value with
  | .null => exact .null
  | .boolean flag => exact .boolean flag
  | .integer number => exact .integer number
  | .float number => exact .float number
  | .text content => exact .text content
  | .entity target => exact .entity target
  | .location target => exact .location target
  | .list items => exact .list (normalItems_lifted items)
  | .map entries => exact .map (normalEntries_lifted entries)

theorem normalItems_lifted (items : List SettledValue) :
    cells.NormalItems (Value.liftedItems items) items := by
  match items with
  | [] => exact .nil
  | item :: rest => exact .present (normalForm_lifted item) (normalItems_lifted rest)

theorem normalEntries_lifted (entries : Table SettledValue) :
    cells.NormalEntries (Value.liftedEntries entries) entries := by
  match entries with
  | [] => exact .nil
  | (key, value) :: rest => exact .present (normalForm_lifted value) (normalEntries_lifted rest)

end

theorem NormalEntries.append {first second : Table LiveValue} {normal others : Table SettledValue}
    (ofFirst : cells.NormalEntries first normal) (ofSecond : cells.NormalEntries second others) :
    cells.NormalEntries (first ++ second) (normal ++ others) := by
  induction first generalizing normal with
  | nil =>
      cases ofFirst
      exact ofSecond
  | cons entry rest inductionHypothesis =>
      cases ofFirst with
      | present ofValue ofRest => exact .present ofValue (inductionHypothesis ofRest)
      | absent ofValue ofRest => exact .absent ofValue (inductionHypothesis ofRest)

/-- A table comes to something exactly if each of its values does. -/
theorem exists_normalEntries_iff {entries : Table LiveValue} :
    (∃ normal, cells.NormalEntries entries normal) ↔
      ∀ key value, (key, value) ∈ entries → cells.Ends value := by
  constructor
  · rintro ⟨normal, isNormal⟩
    exact ends_of_normalEntries isNormal
  · exact fun each => exists_normalEntries fun key value isEntry =>
      (each key value isEntry).exists_normalForm

/-- What a table refers to is told by its normal form. -/
theorem referencedKeys_of_normalEntries {entries : Table LiveValue} {normal : Table SettledValue}
    (isNormal : cells.NormalEntries entries normal) :
    cells.referencedKeys entries =
      (Value.referencesOfEntries normal).map fun (kind, handle) => ⟨kind, handle.id⟩ := by
  rw [referencedKeys, settledTable?_of_normalEntries isNormal]
  rfl

end Cells

namespace ObjectMemento

variable {V W : Type} {ρ ρ' δ : Type}

/-- All values of a record, in the order in which they are gone through. -/
def entries : ObjectMemento V → Table V
  | .entity memento => memento.common.config ++ memento.common.attributes
  | .location memento => memento.common.config ++ memento.common.attributes
  | .policy memento => memento.common.config ++ memento.common.attributes ++ memento.flags

theorem valueReferences_eq (record : ObjectMemento (Value ρ δ)) :
    record.valueReferences Value.referencesOfEntries = Value.referencesOfEntries record.entries := by
  cases record with
  | entity memento => exact (Value.referencesOfEntries_append _ _).symm
  | location memento => exact (Value.referencesOfEntries_append _ _).symm
  | policy memento =>
      rw [entries, Value.referencesOfEntries_append, Value.referencesOfEntries_append]
      rfl

/-- A record without regard to where its references lead. -/
def shape (record : ObjectMemento (Value ρ δ)) : ObjectMemento (Value Unit δ) :=
  record.convert (m := Id) ⟨fun name => name, Value.shapeOfEntries⟩

/-- A record without computed parts as one that could have some, with other names for types. -/
def live (names : String → String) (record : ObjectMemento (Value ρ Empty)) :
    ObjectMemento (Value ρ δ) :=
  record.convert (m := Id) ⟨names, Value.liftedEntries⟩

/-- All but the values stays as it is, and each table comes to what it comes to. -/
def NormalForm (cells : Cells) :
    ObjectMemento LiveValue → ObjectMemento SettledValue → Prop
  | .entity memento, .entity normal => memento.NormalForm cells normal
  | .location memento, .location normal => memento.NormalForm cells normal
  | .policy memento, .policy normal => memento.NormalForm cells normal
  | _, _ => False

private theorem eq_of_shapeOfCommon {left right : Common (Value ρ δ)}
    (sameShape : Common.convert (m := Id) ⟨fun name => name, Value.shapeOfEntries⟩ left =
      right.convert (m := Id) ⟨fun name => name, Value.shapeOfEntries⟩)
    (sameReferences : left.references Value.referencesOfEntries =
      right.references Value.referencesOfEntries) : left = right := by
  obtain ⟨id, typeName, displayName, config, attributes, tags⟩ := left
  obtain ⟨_, _, _, otherConfig, otherAttributes, _⟩ := right
  obtain ⟨rfl, rfl, rfl, sameConfig, sameAttributes, rfl⟩ := Common.mk.inj sameShape
  obtain ⟨refersConfig, refersAttributes⟩ :=
    List.append_inj sameReferences (Value.length_references_of_shapeOfEntries sameConfig)
  obtain rfl : config = otherConfig := Value.eq_of_shapeOfEntries _ _ sameConfig refersConfig
  obtain rfl : attributes = otherAttributes :=
    Value.eq_of_shapeOfEntries _ _ sameAttributes refersAttributes
  rfl

/-- A record is known by its shape and what it refers to. -/
theorem eq_of_shape {left right : ObjectMemento (Value ρ δ)} (sameShape : left.shape = right.shape)
    (sameReferences : left.valueReferences Value.referencesOfEntries =
      right.valueReferences Value.referencesOfEntries) : left = right := by
  cases left with
  | entity memento =>
      cases right with
      | entity other =>
          obtain ⟨common, _, _, _, _, _, _⟩ := memento
          obtain ⟨otherCommon, _, _, _, _, _, _⟩ := other
          obtain ⟨sameCommon, rfl, rfl, rfl, rfl, rfl, rfl⟩ :=
            EntityMemento.mk.inj (ObjectMemento.entity.inj sameShape)
          obtain rfl : common = otherCommon := eq_of_shapeOfCommon sameCommon sameReferences
          rfl
      | _ => exact nomatch sameShape
  | location memento =>
      cases right with
      | location other =>
          obtain ⟨common, _, _⟩ := memento
          obtain ⟨otherCommon, _, _⟩ := other
          obtain ⟨sameCommon, rfl, rfl⟩ :=
            LocationMemento.mk.inj (ObjectMemento.location.inj sameShape)
          obtain rfl : common = otherCommon := eq_of_shapeOfCommon sameCommon sameReferences
          rfl
      | _ => exact nomatch sameShape
  | policy memento =>
      cases right with
      | policy other =>
          obtain ⟨common, flags⟩ := memento
          obtain ⟨otherCommon, otherFlags⟩ := other
          obtain ⟨sameCommon, sameFlags⟩ :=
            PolicyMemento.mk.inj (ObjectMemento.policy.inj sameShape)
          obtain ⟨refersCommon, refersFlags⟩ :=
            List.append_inj' sameReferences (Value.length_references_of_shapeOfEntries sameFlags)
          obtain rfl : common = otherCommon := eq_of_shapeOfCommon sameCommon refersCommon
          obtain rfl : flags = otherFlags :=
            Value.eq_of_shapeOfEntries _ _ sameFlags refersFlags
          rfl
      | _ => exact nomatch sameShape

section Resolving

variable {m : Type → Type} [Monad m] [LawfulMonad m] (names : String → String)
  (find : ObjectKind → ρ → m ρ')

/-- What all records have in common resolves to what has its shape. -/
private theorem shows_convertCommon (common : Common (Value ρ Empty)) :
    Shows (common.convert ⟨names, Value.resolveEntries find⟩)
      (fun resolved : Common (Value ρ' δ) =>
        resolved.convert (m := Id) ⟨fun name => name, Value.shapeOfEntries⟩)
      (fun resolved => resolved.references Value.referencesOfEntries)
      (Common.convert (m := Id) ⟨fun name => name, Value.shapeOfEntries⟩
        (common.convert (m := Id) ⟨names, Value.liftedEntries⟩))
      ((common.references Value.referencesOfEntries).mapM (Value.follow find)) := by
  rw [Common.references, List.mapM_append]
  refine (Value.shows_resolveEntries find common.config).join
    (Value.shows_resolveEntries find common.attributes)
    (fun config attributes => (⟨common.id, names common.typeName, common.displayName, config,
      attributes, common.tags⟩ : Common (Value Unit δ))) ?_ ?_
  · exact fun _ _ => rfl
  · exact fun _ _ => rfl

/-- A record that resolves has the shape that it had, and refers to what the look-ups give, one after
another. -/
theorem shows_convert (record : ObjectMemento (Value ρ Empty)) :
    Shows (record.convert ⟨names, Value.resolveEntries find⟩) shape
      (fun resolved : ObjectMemento (Value ρ' δ) =>
        resolved.valueReferences Value.referencesOfEntries)
      (record.live names).shape
      ((record.valueReferences Value.referencesOfEntries).mapM (Value.follow find)) := by
  cases record with
  | entity memento =>
      rw [convert, EntityMemento.convert, map_bind]
      simp only [map_pure]
      refine (shows_convertCommon names find memento.common).map
        (fun common => ObjectMemento.entity ⟨common, memento.parent, memento.children,
          memento.locations, memento.policies, memento.enrichers, memento.application⟩) ?_ ?_
      · exact fun _ => rfl
      · exact fun _ => rfl
  | location memento =>
      rw [convert, LocationMemento.convert, map_bind]
      simp only [map_pure]
      refine (shows_convertCommon names find memento.common).map
        (fun common => ObjectMemento.location ⟨common, memento.parent, memento.children⟩) ?_ ?_
      · exact fun _ => rfl
      · exact fun _ => rfl
  | policy memento =>
      rw [convert, PolicyMemento.convert, map_bind, valueReferences,
        PolicyMemento.valueReferences, List.mapM_append]
      simp only [map_bind, map_pure]
      refine (shows_convertCommon names find memento.common).join
        (Value.shows_resolveEntries find memento.flags)
        (fun common flags => ObjectMemento.policy ⟨common, flags⟩) ?_ ?_
      · exact fun _ _ => rfl
      · exact fun _ _ => rfl

end Resolving

section Settling

variable {cells : Cells} {record : ObjectMemento LiveValue} {normal : ObjectMemento SettledValue}

theorem convert_settling_iff :
    record.convert cells.settling = some normal ↔ record.NormalForm cells normal := by
  cases record with
  | entity memento =>
      cases normal <;>
        simp [convert, NormalForm, EntityMemento.convert_settling_iff]
  | location memento =>
      cases normal <;>
        simp [convert, NormalForm, LocationMemento.convert_settling_iff]
  | policy memento =>
      cases normal <;>
        simp [convert, NormalForm, PolicyMemento.convert_settling_iff]

theorem NormalForm.entries (isNormal : record.NormalForm cells normal) :
    cells.NormalEntries record.entries normal.entries := by
  cases record <;> cases normal <;> try exact isNormal.elim
  · exact isNormal.common.config.append isNormal.common.attributes
  · exact isNormal.common.config.append isNormal.common.attributes
  · exact (isNormal.common.config.append isNormal.common.attributes).append isNormal.flags

private theorem exists_normalCommon {common : Common LiveValue}
    (each : ∀ key value, (key, value) ∈ common.config ++ common.attributes → cells.Ends value) :
    ∃ normal, common.NormalForm cells normal := by
  obtain ⟨config, ofConfig⟩ := Cells.exists_normalEntries_iff.mpr fun key value isEntry =>
    each key value (List.mem_append_left _ isEntry)
  obtain ⟨attributes, ofAttributes⟩ := Cells.exists_normalEntries_iff.mpr fun key value isEntry =>
    each key value (List.mem_append_right _ isEntry)
  exact ⟨⟨common.id, common.typeName, common.displayName, config, attributes, common.tags⟩,
    ⟨rfl, rfl, rfl, ofConfig, ofAttributes, rfl⟩⟩

/-- A record has a normal form exactly if going into its values ends. -/
theorem exists_normalForm_iff : (∃ normal, record.NormalForm cells normal) ↔
    ∀ key value, (key, value) ∈ record.entries → cells.Ends value := by
  constructor
  · rintro ⟨normal, isNormal⟩
    exact Cells.exists_normalEntries_iff.mp ⟨normal.entries, isNormal.entries⟩
  · intro each
    cases record with
    | entity memento =>
        obtain ⟨common, ofCommon⟩ := exists_normalCommon each
        exact ⟨.entity ⟨common, memento.parent, memento.children, memento.locations,
          memento.policies, memento.enrichers, memento.application⟩,
          ⟨ofCommon, rfl, rfl, rfl, rfl, rfl, rfl⟩⟩
    | location memento =>
        obtain ⟨common, ofCommon⟩ := exists_normalCommon each
        exact ⟨.location ⟨common, memento.parent, memento.children⟩, ⟨ofCommon, rfl, rfl⟩⟩
    | policy memento =>
        obtain ⟨common, ofCommon⟩ := exists_normalCommon fun key value isEntry =>
          each key value (List.mem_append_left _ isEntry)
        obtain ⟨flags, ofFlags⟩ := Cells.exists_normalEntries_iff.mpr fun key value isEntry =>
          each key value (List.mem_append_right _ isEntry)
        exact ⟨.policy ⟨common, flags⟩, ⟨ofCommon, ofFlags⟩⟩

private theorem referencedKeys_common {common : Common LiveValue} {normal : Common SettledValue}
    (isNormal : common.NormalForm cells normal) :
    common.references cells.referencedKeys =
      (normal.references Value.referencesOfEntries).map fun (kind, handle) => ⟨kind, handle.id⟩ := by
  rw [Common.references, Cells.referencedKeys_of_normalEntries isNormal.config,
    Cells.referencedKeys_of_normalEntries isNormal.attributes, Common.references, List.map_append]

/-- What the values of a record refer to is told by its normal form. -/
theorem NormalForm.referencedKeys (isNormal : record.NormalForm cells normal) :
    record.valueReferences cells.referencedKeys =
      (normal.valueReferences Value.referencesOfEntries).map
        fun (kind, handle) => ⟨kind, handle.id⟩ := by
  cases record <;> cases normal <;> try exact isNormal.elim
  · exact referencedKeys_common isNormal.common
  · exact referencedKeys_common isNormal.common
  · simp only [valueReferences, PolicyMemento.valueReferences]
    rw [referencedKeys_common isNormal.common, Cells.referencedKeys_of_normalEntries isNormal.flags,
      List.map_append]

/-- On the way through the values of a record, its references are met in the order in which its normal
form has them. -/
theorem NormalForm.refer (isNormal : record.NormalForm cells normal) :
    cells.EntriesRefer record.entries (normal.valueReferences Value.referencesOfEntries) := by
  rw [valueReferences_eq]
  exact Cells.entriesRefer_of_normalEntries isNormal.entries

/-- A record without computed parts is its own normal form, whatever the names of types. -/
theorem normalForm_live (names : String → String) (normal : ObjectMemento SettledValue) :
    (normal.live names).NormalForm cells
      (normal.convert (m := Id) ⟨names, fun table => table⟩) := by
  cases normal with
  | entity memento =>
      exact ⟨⟨rfl, rfl, rfl, Cells.normalEntries_lifted _, Cells.normalEntries_lifted _, rfl⟩,
        rfl, rfl, rfl, rfl, rfl, rfl⟩
  | location memento =>
      exact ⟨⟨rfl, rfl, rfl, Cells.normalEntries_lifted _, Cells.normalEntries_lifted _, rfl⟩,
        rfl, rfl⟩
  | policy memento =>
      exact ⟨⟨rfl, rfl, rfl, Cells.normalEntries_lifted _, Cells.normalEntries_lifted _, rfl⟩,
        Cells.normalEntries_lifted _⟩

end Settling

/-! ## Conversions of records of any kind -/

theorem convert_followedBy {m : Type → Type} [Monad m] [LawfulMonad m] {X : Type}
    (first : Conversion m V W) (second : Conversion Id W X) (record : ObjectMemento V) :
    record.convert (first.followedBy second) =
      (fun middle : ObjectMemento W => middle.convert (m := Id) second) <$>
        record.convert first := by
  cases record with
  | entity memento =>
      rw [convert, EntityMemento.convert_followedBy, convert, Functor.map_map, Functor.map_map]
      rfl
  | location memento =>
      rw [convert, LocationMemento.convert_followedBy, convert, Functor.map_map, Functor.map_map]
      rfl
  | policy memento =>
      rw [convert, PolicyMemento.convert_followedBy, convert, Functor.map_map, Functor.map_map]
      rfl

theorem convert_convert {X : Type} (first : Conversion Id V W) (second : Conversion Id W X)
    (record : ObjectMemento V) :
    ObjectMemento.convert (m := Id) second (record.convert first) =
      record.convert (first.followedBy second) :=
  (convert_followedBy first second record).symm

/-- A conversion changes the references of a record as it changes those of tables. -/
theorem valueReferences_convert {conversion : Conversion Id V W} {α β : Type}
    {ofTable : Table V → List α} {ofConverted : Table W → List β} {change : α → β}
    (ofTables : ∀ table, ofConverted (conversion.table table) = (ofTable table).map change)
    (record : ObjectMemento V) :
    ObjectMemento.valueReferences ofConverted (record.convert (m := Id) conversion) =
      (record.valueReferences ofTable).map change := by
  cases record with
  | entity memento => exact EntityMemento.valueReferences_convert ofTables memento
  | location memento => exact LocationMemento.valueReferences_convert ofTables memento
  | policy memento => exact PolicyMemento.valueReferences_convert ofTables memento

end ObjectMemento

namespace Encoding.Settings

variable {σ : Type} {settings : Settings} {cells : Cells} {record : ObjectMemento LiveValue}
  {normal : ObjectMemento SettledValue}

/-! ## Writing and reading -/

variable (settings) in
/-- The name under which a type comes back. -/
def renamed (typeName : String) : String :=
  settings.aliases.decodeName (settings.aliases.encodeName typeName)

variable (settings) in
/-- Looks an object up by its id, under the name with which its declared type comes back. -/
def lookUp (lookup : Lookup σ) (kind : ObjectKind) (handle : Handle) : StateT σ Outcome Handle :=
  lookup kind handle.id (handle.declaredType.map settings.renamed)

variable (settings) in
/-- What is written of a record in normal form. -/
def writtenRecord (normal : ObjectMemento SettledValue) : ObjectMemento Datum :=
  normal.convert (m := Id) settings.writtenForm

/-- What is written of a record is what is written of its normal form, and nothing is written of a
record without one. -/
theorem convert_writing_eq_some_iff {written : ObjectMemento Datum} :
    record.convert (settings.writing cells) = some written ↔
      ∃ normal, record.NormalForm cells normal ∧ settings.writtenRecord normal = written := by
  rw [writing_eq, ObjectMemento.convert_followedBy, Option.map_eq_map, Option.map_eq_some_iff]
  simp only [ObjectMemento.convert_settling_iff]
  rfl

theorem shape_writtenRecord (normal : ObjectMemento SettledValue) :
    ((settings.writtenRecord normal).live settings.aliases.decodeName).shape =
      (normal.live settings.renamed : ObjectMemento LiveValue).shape := by
  have tables : (fun table => Value.shapeOfEntries (Value.liftedEntries
      (Value.mapReferencesOfEntries settings.writtenReference table)) :
        Table SettledValue → Table (Value Unit CellId)) =
      fun table => Value.shapeOfEntries (Value.liftedEntries table) :=
    funext fun table => Value.shapeOfEntries_mapReferences settings.writtenReference table
  simp only [writtenRecord, ObjectMemento.live, ObjectMemento.shape, ObjectMemento.convert_convert]
  exact congrArg (fun change => ObjectMemento.convert (m := Id) ⟨settings.renamed, change⟩ normal)
    tables

theorem references_writtenRecord (normal : ObjectMemento SettledValue) :
    (settings.writtenRecord normal).valueReferences Value.referencesOfEntries =
      (normal.valueReferences Value.referencesOfEntries).map fun reference =>
        (reference.1, settings.writtenReference reference.2) :=
  ObjectMemento.valueReferences_convert
    (Value.referencesOfEntries_mapReferencesOfEntries settings.writtenReference) normal

/-- What is read of a written record has the shape of the normal form, and refers to what the look-ups
give for the references of that, one after another. -/
theorem shows_reading (lookup : Lookup σ) (normal : ObjectMemento SettledValue) :
    Shows ((settings.writtenRecord normal).convert (settings.reading lookup)) ObjectMemento.shape
      (fun restated => restated.valueReferences Value.referencesOfEntries)
      (normal.live settings.renamed).shape
      ((normal.valueReferences Value.referencesOfEntries).mapM
        (Value.follow (settings.lookUp lookup))) := by
  let resolve := fun kind (reference : Reference) =>
    lookup kind reference.id (reference.expectedType.map settings.aliases.decodeName)
  have seen := ObjectMemento.shows_convert (δ := CellId) settings.aliases.decodeName resolve
    (settings.writtenRecord normal)
  have sameFollow : (fun reference : ObjectKind × Handle =>
      Value.follow resolve (reference.1, settings.writtenReference reference.2)) =
        Value.follow (settings.lookUp lookup) := by
    funext reference
    simp only [Value.follow, resolve, writtenReference, lookUp, Option.map_map]
    rfl
  rw [shape_writtenRecord, references_writtenRecord, List.mapM_map] at seen
  rw [← sameFollow]
  exact seen

variable (settings) in
/-- The record is the normal form, with these in the place of its references, one after another. -/
structure Restates (normal : ObjectMemento SettledValue) (found : List (ObjectKind × Handle))
    (restated : ObjectMemento LiveValue) : Prop where
  shape : restated.shape = (normal.live settings.renamed).shape
  references : restated.valueReferences Value.referencesOfEntries = found

variable (settings) in
/-- What reading comes to that starts in a state. The references of the normal form are looked up, one
after another. -/
inductive ReadsBack (lookup : Lookup σ) (state : σ) (normal : ObjectMemento SettledValue)
    (written : ObjectMemento Datum) : Prop
  /-- All look-ups succeed, and one record is what they make of the normal form. -/
  | restated (found : List (ObjectKind × Handle)) (after : σ) (record : ObjectMemento LiveValue)
      (finds : ((normal.valueReferences Value.referencesOfEntries).mapM
        (Value.follow (settings.lookUp lookup))).run state = .ok (found, after))
      (reads : (written.convert (settings.reading lookup)).run state = .ok (record, after))
      (restates : ∀ other, settings.Restates normal found other ↔ other = record)
  /-- A look-up fails after those before it have succeeded. -/
  | failed (before rest : List (ObjectKind × Handle)) (reference : ObjectKind × Handle)
      (found : List (ObjectKind × Handle)) (between : σ) (failure : Failure)
      (inOrder : normal.valueReferences Value.referencesOfEntries = before ++ reference :: rest)
      (finds : (before.mapM (Value.follow (settings.lookUp lookup))).run state = .ok (found, between))
      (fails : (settings.lookUp lookup reference.1 reference.2).run between = .error failure)
      (reads : (written.convert (settings.reading lookup)).run state = .error failure)

theorem readsBack (lookup : Lookup σ) (state : σ) (normal : ObjectMemento SettledValue) :
    settings.ReadsBack lookup state normal (settings.writtenRecord normal) := by
  rcases run_of_same (settings.shows_reading lookup normal) state with
    ⟨failure, finding, reads⟩ | ⟨found, record, after, finds, reads, same⟩
  · rcases run_mapM_cases (Value.follow (settings.lookUp lookup))
        (normal.valueReferences Value.referencesOfEntries) state with
      ⟨found, after, finds⟩ |
        ⟨before, reference, rest, found, between, other, inOrder, finds, fails, ran⟩
    · exact nomatch finding.symm.trans finds
    · cases finding.symm.trans ran
      exact .failed before rest reference found between failure inOrder finds
        (Value.run_follow_eq_error fails) reads
  · obtain ⟨sameShape, refers⟩ := Prod.mk.inj same
    refine .restated found after record finds reads fun other => ⟨fun restates => ?_, ?_⟩
    · exact ObjectMemento.eq_of_shape (restates.shape.trans sameShape.symm)
        (restates.references.trans refers.symm)
    · rintro rfl
      exact ⟨sameShape, refers⟩

/-! ## The normal form, written again -/

/-- The names of types come back as ones that are written the same. -/
theorem writtenRecord_renamed (ordered : settings.aliases.byType.Ordered)
    (normal : ObjectMemento SettledValue) :
    settings.writtenRecord (normal.convert (m := Id) ⟨settings.renamed, fun table => table⟩) =
      settings.writtenRecord normal := by
  have names : (fun typeName => settings.aliases.encodeName (settings.renamed typeName)) =
      settings.aliases.encodeName :=
    funext (Aliases.encodeName_decodeName_encodeName ordered)
  rw [writtenRecord, ObjectMemento.convert_convert]
  exact congrArg (fun change => ObjectMemento.convert (m := Id)
    ⟨change, Value.mapReferencesOfEntries settings.writtenReference⟩ normal) names

/-- The normal form, with the names with which types come back, is written as it was. -/
theorem convert_writing_live (ordered : settings.aliases.byType.Ordered)
    (normal : ObjectMemento SettledValue) :
    (normal.live settings.renamed).convert (settings.writing cells) =
      some (settings.writtenRecord normal) :=
  convert_writing_eq_some_iff.mpr
    ⟨_, ObjectMemento.normalForm_live _ normal, writtenRecord_renamed ordered normal⟩

variable (settings cells) in
/-- What is known of a record, of what is written of it, and of its normal form. -/
structure WritesAs (record : ObjectMemento LiveValue) (written : ObjectMemento Datum)
    (normal : ObjectMemento SettledValue) : Prop where
  isNormal : record.NormalForm cells normal
  /-- What is read back is the normal form, whatever the look-ups remember. -/
  readsBack : ∀ {σ : Type} (lookup : Lookup σ) (state : σ),
    settings.ReadsBack lookup state normal written
  /-- On the way through the record, the references of the normal form are met in their order. -/
  refer : cells.EntriesRefer record.entries (normal.valueReferences Value.referencesOfEntries)
  /-- So they are on the way through the normal form itself. -/
  refersStill : cells.EntriesRefer (normal.live settings.renamed).entries
    (normal.valueReferences Value.referencesOfEntries)
  /-- The same ids are reported for both. -/
  sameKeys : (normal.live settings.renamed).valueReferences cells.referencedKeys =
    record.valueReferences cells.referencedKeys
  writtenAgain : (normal.live settings.renamed).convert (settings.writing cells) = some written

/-- A record is written exactly if going into each of its values ends, whatever the aliases are. What
is read back is its normal form with what the look-ups give, and that is written as the record is. -/
theorem restates_ofCalls (calls : List (String × String)) (format : Format) (cells : Cells)
    (record : ObjectMemento LiveValue) :
    let settings : Settings := ⟨format, .ofCalls calls⟩
    ((record.convert (settings.writing cells)).isSome ↔
      ∀ key value, (key, value) ∈ record.entries → cells.Ends value) ∧
    ∀ written, record.convert (settings.writing cells) = some written →
      ∃ normal, settings.WritesAs cells record written normal := by
  intro settings
  constructor
  · rw [← ObjectMemento.exists_normalForm_iff, Option.isSome_iff_exists]
    constructor
    · rintro ⟨written, isWritten⟩
      obtain ⟨normal, isNormal, -⟩ := convert_writing_eq_some_iff.mp isWritten
      exact ⟨normal, isNormal⟩
    · rintro ⟨normal, isNormal⟩
      exact ⟨_, convert_writing_eq_some_iff.mpr ⟨normal, isNormal, rfl⟩⟩
  · intro written isWritten
    obtain ⟨normal, isNormal, rfl⟩ := convert_writing_eq_some_iff.mp isWritten
    have stillNormal : (normal.live settings.renamed).NormalForm cells
        (normal.convert (m := Id) ⟨settings.renamed, fun table => table⟩) :=
      ObjectMemento.normalForm_live settings.renamed normal
    have sameReferences : ObjectMemento.valueReferences Value.referencesOfEntries
        (normal.convert (m := Id) ⟨settings.renamed, fun table => table⟩) =
          (normal.valueReferences Value.referencesOfEntries).map fun reference => reference :=
      ObjectMemento.valueReferences_convert (fun _ => (List.map_id' _).symm) normal
    rw [List.map_id'] at sameReferences
    refine ⟨normal, ?_⟩
    exact {
      isNormal := isNormal
      readsBack := fun lookup state => readsBack lookup state normal
      refer := isNormal.refer
      refersStill := sameReferences ▸ stillNormal.refer
      sameKeys := by
        rw [stillNormal.referencedKeys, isNormal.referencedKeys, sameReferences]
      writtenAgain := convert_writing_live (Aliases.ordered_ofCalls calls) normal
    }

section Sample

/-- A computation that is not done, and one that has given an entity. -/
private def halfDone : Cells := ⟨#[.pending, .resolved (.entity ⟨7, "t", some "Server"⟩)]⟩

private def namedNode : List (String × String) := [("Server", "node"), ("Cluster", "node")]

private def waiting : ObjectMemento LiveValue :=
  .entity ⟨⟨"e", "Server", none, [("gone", .deferred ⟨0⟩),
    ("kept", .list [.deferred ⟨0⟩, .deferred ⟨1⟩])], [], []⟩, none, [], [], [], [], none⟩

private def waitingWritten : ObjectMemento Datum :=
  .entity ⟨⟨"e", "node", none, [("kept", .list [.null, .entity ⟨"t", some "node"⟩])], [], []⟩,
    none, [], [], [], [], none⟩

/-- The entry that is not done is left out, and stands as null in the list. A table of references that
does not have the entity is what decides the failure. -/
theorem restates_ofCalls_waiting :
    waiting.convert (writing ⟨.json, .ofCalls namedNode⟩ halfDone) = some waitingWritten ∧
    (∃ normal, WritesAs ⟨.json, .ofCalls namedNode⟩ halfDone waiting waitingWritten normal) ∧
    (waitingWritten.convert (reading ⟨.json, .ofCalls namedNode⟩ StaticLookup.empty.resolver)).run
      () = .error (.noSuchObject .entity "t") := by
  have isWritten :
      waiting.convert (writing ⟨.json, .ofCalls namedNode⟩ halfDone) = some waitingWritten := by rfl
  exact ⟨isWritten, (restates_ofCalls namedNode .json halfDone waiting).2 _ isWritten, by rfl⟩

end Sample

end Encoding.Settings

end GraphCheckpoint
