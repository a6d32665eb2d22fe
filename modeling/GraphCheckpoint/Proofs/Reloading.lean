import GraphCheckpoint.Proofs.Encoding.Aliases
import GraphCheckpoint.Proofs.Placeholders
import GraphCheckpoint.Proofs.Readable

/-!
Contract: single records that are encoded and decoded again.

Owns:
- records of any kind as one: their conversion, their trees and their readers;
- the round trip of a record, as a program, and when its bytes are read again at all;
- the kind and the name of the type that come back.

Does not own: which names survive their aliases.

Floats, references and computed values may come back as something else, or stop the reader. Neither
matters to the name of a type, which stands beside them.
-/

namespace GraphCheckpoint

open GraphCheckpoint.Encoding

/-! ## Records of any kind -/

namespace ObjectMemento

variable {V W : Type} {m : Type → Type} [Monad m]

def convert (conversion : Conversion m V W) : ObjectMemento V → m (ObjectMemento W)
  | .entity memento => .entity <$> memento.convert conversion
  | .location memento => .location <$> memento.convert conversion
  | .policy memento => .policy <$> memento.convert conversion

def Regular {ρ δ : Type} (floats : Prop) : ObjectMemento (Value ρ δ) → Prop
  | .entity memento => memento.Regular floats
  | .location memento => memento.Regular floats
  | .policy memento => memento.Regular floats

/-- What a record is, and of which type. -/
def sort (record : ObjectMemento V) : ObjectKind × String := (record.kind, record.typeName)

/-- A conversion keeps the kind and renames the type, whatever becomes of the tables. -/
theorem map_sort_convert [LawfulMonad m] (conversion : Conversion m V W)
    (record : ObjectMemento V) :
    sort <$> record.convert conversion =
      (fun _ => (record.kind, conversion.typeName record.typeName)) <$>
        record.convert conversion := by
  cases record with
  | entity memento =>
      simp only [convert, EntityMemento.convert, Common.convert, map_eq_pure_bind, bind_assoc,
        pure_bind]
      rfl
  | location memento =>
      simp only [convert, LocationMemento.convert, Common.convert, map_eq_pure_bind, bind_assoc,
        pure_bind]
      rfl
  | policy memento =>
      simp only [convert, PolicyMemento.convert, Common.convert, map_eq_pure_bind, bind_assoc,
        pure_bind]
      rfl

/-- A conversion that finds nothing irregular keeps records regular. -/
theorem Regular.convert {ρ δ ρ' δ' : Type} {floats : Prop}
    {conversion : Conversion Option (Value ρ δ) (Value ρ' δ')}
    (keeps : ∀ table converted, Value.RegularTable floats table →
      conversion.table table = some converted → Value.RegularTable floats converted)
    {record : ObjectMemento (Value ρ δ)} {converted : ObjectMemento (Value ρ' δ')}
    (regular : record.Regular floats) (isConverted : record.convert conversion = some converted) :
    converted.Regular floats := by
  cases record with
  | entity memento =>
      obtain ⟨found, isFound, rfl⟩ := Option.map_eq_some_iff.mp isConverted
      exact EntityMemento.Regular.convert keeps regular isFound
  | location memento =>
      obtain ⟨found, isFound, rfl⟩ := Option.map_eq_some_iff.mp isConverted
      exact LocationMemento.Regular.convert keeps regular isFound
  | policy memento =>
      obtain ⟨found, isFound, rfl⟩ := Option.map_eq_some_iff.mp isConverted
      exact PolicyMemento.Regular.convert keeps regular isFound

end ObjectMemento

namespace Document

/-- The tree of a record. -/
def recordNode : ObjectMemento Datum → Node
  | .entity memento => entityNode memento
  | .location memento => locationNode memento
  | .policy memento => policyNode memento

/-- Reads a record of the kind. -/
def readRecord (kind : ObjectKind) (format : Format) (limit : Nat) (node : Node) :
    Option (ObjectMemento Datum) :=
  match kind with
  | .entity => (readEntity format limit node).map .entity
  | .location => (readLocation format limit node).map .location
  | .policy => (readPolicy format limit node).map .policy

variable {format : Format} {limit : Nat} {replace : Binary64 → Node}

theorem plain_recordNode {record : ObjectMemento Datum}
    (regular : record.Regular (format = .messagePack)) : (recordNode record).Plain format := by
  cases record with
  | entity memento => exact plain_entityNode regular
  | location memento => exact plain_locationNode regular
  | policy memento => exact plain_policyNode regular

theorem isSome_readRecord (record : ObjectMemento Datum) :
    (readRecord record.kind format limit ((recordNode record).withFloats replace)).isSome =
      (marked replace (recordNode record)).legible limit := by
  cases record with
  | entity memento => exact Option.isSome_map.trans (isSome_readEntity memento)
  | location memento => exact Option.isSome_map.trans (isSome_readLocation memento)
  | policy memento => exact Option.isSome_map.trans (isSome_readPolicy memento)

/-! ## Names of types that are read -/

theorem typeName_of_readCommon {common found : Common Datum}
    (isRead : readCommon format limit ((commonNode common).withFloats replace) = some found) :
    found.typeName = common.typeName := by
  cases limit with
  | zero => cases isRead
  | succ inner =>
      have fields := readFields_withFloats (.encoded format) replace inner
        ["id", "type", "displayName", "config", "attributes", "tags"] (commonNode_eq common) rfl
        (by decide)
      simp only [List.map_cons, List.map_nil, Option.map_some] at fields
      simp only [readCommon, fields, Option.bind_eq_bind, Option.bind_some, required,
        Option.bind_eq_some_iff] at isRead
      obtain ⟨_, -, _, isTypeName, _, -, _, -, _, -, _, -, isResult⟩ := isRead
      cases isTypeName
      cases isResult
      rfl

theorem typeName_of_readEntity {memento found : EntityMemento Datum}
    (isRead : readEntity format limit ((entityNode memento).withFloats replace) = some found) :
    found.typeName = memento.typeName := by
  cases limit with
  | zero => cases isRead
  | succ inner =>
      have fields := readFields_withFloats (.encoded format) replace inner
        ["base", "parentId", "childrenIds", "locationIds", "policyIds", "enricherIds",
          "applicationId"] (entityNode_eq memento) rfl (by decide)
      simp only [List.map_cons, List.map_nil, Option.map_some] at fields
      simp only [readEntity, fields, Option.bind_eq_bind, Option.bind_some, required,
        Option.bind_eq_some_iff] at isRead
      obtain ⟨_, isCommon, _, -, _, -, _, -, _, -, _, -, _, -, isResult⟩ := isRead
      cases isResult
      exact typeName_of_readCommon isCommon

theorem typeName_of_readLocation {memento found : LocationMemento Datum}
    (isRead : readLocation format limit ((locationNode memento).withFloats replace) = some found) :
    found.typeName = memento.typeName := by
  cases limit with
  | zero => cases isRead
  | succ inner =>
      have fields := readFields_withFloats (.encoded format) replace inner
        ["base", "parentId", "childrenIds"] (locationNode_eq memento) rfl (by decide)
      simp only [List.map_cons, List.map_nil, Option.map_some] at fields
      simp only [readLocation, fields, Option.bind_eq_bind, Option.bind_some, required,
        Option.bind_eq_some_iff] at isRead
      obtain ⟨_, isCommon, _, -, _, -, isResult⟩ := isRead
      cases isResult
      exact typeName_of_readCommon isCommon

theorem typeName_of_readPolicy {memento found : PolicyMemento Datum}
    (isRead : readPolicy format limit ((policyNode memento).withFloats replace) = some found) :
    found.typeName = memento.typeName := by
  cases limit with
  | zero => cases isRead
  | succ inner =>
      have fields := readFields_withFloats (.encoded format) replace inner
        ["base", "flags"] (policyNode_eq memento) rfl (by decide)
      simp only [List.map_cons, List.map_nil, Option.map_some] at fields
      simp only [readPolicy, fields, Option.bind_eq_bind, Option.bind_some, required,
        Option.bind_eq_some_iff] at isRead
      obtain ⟨_, isCommon, _, -, isResult⟩ := isRead
      cases isResult
      exact typeName_of_readCommon isCommon

/-- Whatever has become of the floats, the kind and the name of the type are read as written. -/
theorem sort_of_readRecord {record found : ObjectMemento Datum}
    (isRead : readRecord record.kind format limit ((recordNode record).withFloats replace) =
      some found) : found.sort = record.sort := by
  cases record with
  | entity memento =>
      obtain ⟨read, isEntity, rfl⟩ := Option.map_eq_some_iff.mp isRead
      exact congrArg (Prod.mk _) (typeName_of_readEntity isEntity)
  | location memento =>
      obtain ⟨read, isLocation, rfl⟩ := Option.map_eq_some_iff.mp isRead
      exact congrArg (Prod.mk _) (typeName_of_readLocation isLocation)
  | policy memento =>
      obtain ⟨read, isPolicy, rfl⟩ := Option.map_eq_some_iff.mp isRead
      exact congrArg (Prod.mk _) (typeName_of_readPolicy isPolicy)

end Document

/-! ## The round trip -/

namespace Encoding.Settings

variable {σ : Type} {settings : Settings} {cells : Cells} {lookup : Lookup σ} {state : σ}
  {record : ObjectMemento LiveValue}

/-- Encodes a record and decodes its bytes as one of the same kind. -/
def reloadRecord (settings : Settings) (cells : Cells) (lookup : Lookup σ) :
    ObjectMemento LiveValue → StateT σ Outcome (ObjectMemento LiveValue)
  | .entity memento => do
      return .entity (← settings.decodeEntity lookup (← settings.encodeEntity cells memento))
  | .location memento => do
      return .location (← settings.decodeLocation lookup (← settings.encodeLocation cells memento))
  | .policy memento => do
      return .policy (← settings.decodePolicy lookup (← settings.encodePolicy cells memento))

private theorem readBytes_map {α β : Type} (read : Format → Nat → Node → Option α)
    (change : α → β) (bytes : Bytes) :
    settings.readBytes (fun format limit node => (read format limit node).map change) bytes =
      (settings.readBytes read bytes).map change := by
  unfold readBytes
  cases settings.parseNode? bytes with
  | none => rfl
  | some node =>
      cases isRead : read settings.format settings.format.nesting node <;>
        simp [isRead, Except.map]

/-- Decoding a record of one kind is decoding a record of any. -/
private theorem run_decode {M N : Type} {read : Format → Nat → Node → Option M}
    {resolve : M → StateT σ Outcome N} {ofRead : M → ObjectMemento Datum}
    {ofResolved : N → ObjectMemento LiveValue}
    (same : ∀ found, (ofRead found).convert (settings.reading lookup) =
      ofResolved <$> resolve found) (bytes : Bytes) :
    (do return ofResolved (← (do resolve (← settings.readBytes read bytes))) :
        StateT σ Outcome (ObjectMemento LiveValue)).run state = (do
      let found ← settings.readBytes
        (fun format limit node => (read format limit node).map ofRead) bytes
      (found.convert (settings.reading lookup)).run state) := by
  rw [readBytes_map]
  cases settings.readBytes read bytes with
  | error failure => rfl
  | ok found =>
      show _ = ((ofRead found).convert (settings.reading lookup)).run state
      rw [same]
      rfl

/-- What is written of a record is read, and then resolved. -/
theorem reloadRecord_run_of_written {written : ObjectMemento Datum}
    (isWritten : record.convert (settings.writing cells) = some written) :
    (settings.reloadRecord cells lookup record).run state = (do
      let found ← settings.readBytes (Document.readRecord record.kind)
        (settings.printNode (Document.recordNode written))
      (found.convert (settings.reading lookup)).run state) := by
  cases record with
  | entity memento =>
      obtain ⟨converted, isConverted, rfl⟩ := Option.map_eq_some_iff.mp isWritten
      have isEncoded : settings.encodeEntity cells memento =
          .ok (settings.printNode (Document.entityNode converted)) := by
        rw [encodeEntity, isConverted]
        rfl
      rw [reloadRecord, isEncoded]
      exact run_decode (fun _ => rfl) _
  | location memento =>
      obtain ⟨converted, isConverted, rfl⟩ := Option.map_eq_some_iff.mp isWritten
      have isEncoded : settings.encodeLocation cells memento =
          .ok (settings.printNode (Document.locationNode converted)) := by
        rw [encodeLocation, isConverted]
        rfl
      rw [reloadRecord, isEncoded]
      exact run_decode (fun _ => rfl) _
  | policy memento =>
      obtain ⟨converted, isConverted, rfl⟩ := Option.map_eq_some_iff.mp isWritten
      have isEncoded : settings.encodePolicy cells memento =
          .ok (settings.printNode (Document.policyNode converted)) := by
        rw [encodePolicy, isConverted]
        rfl
      rw [reloadRecord, isEncoded]
      exact run_decode (fun _ => rfl) _

/-- A record with values that have no end is not written. -/
theorem reloadRecord_run_of_endless (isEndless : record.convert (settings.writing cells) = none) :
    (settings.reloadRecord cells lookup record).run state = .error settings.endless := by
  cases record with
  | entity memento =>
      rw [reloadRecord, encodeEntity, Option.map_eq_none_iff.mp isEndless]
      rfl
  | location memento =>
      rw [reloadRecord, encodeLocation, Option.map_eq_none_iff.mp isEndless]
      rfl
  | policy memento =>
      rw [reloadRecord, encodePolicy, Option.map_eq_none_iff.mp isEndless]
      rfl

/-! ## When a record comes back -/

variable (settings) in
/-- The record is written, and its bytes are read again. -/
def ReadsRecord (cells : Cells) (record : ObjectMemento LiveValue) : Prop :=
  ∃ written, record.convert (settings.writing cells) = some written ∧
    settings.Readable (Document.recordNode written)

variable (settings) in
/-- A regular record over regular cells, whose lengths have a form where the encoding counts them. -/
structure Writable (cells : Cells) (record : ObjectMemento LiveValue) : Prop where
  cellsRegular : cells.Regular True
  regular : record.Regular True
  fits : settings.format = .messagePack → ∀ written,
    record.convert (settings.writing cells) = some written → (Document.recordNode written).Fits

theorem Writable.regular_written (writable : settings.Writable cells record)
    {written : ObjectMemento Datum}
    (isWritten : record.convert (settings.writing cells) = some written) :
    written.Regular True := by
  refine ObjectMemento.Regular.convert (fun table converted regular isConverted => ?_)
    writable.regular isWritten
  obtain ⟨settled, isSettled, rfl⟩ := Option.map_eq_some_iff.mp isConverted
  exact Value.RegularTable.mapReferences _ (writable.cellsRegular.settledTable? regular isSettled)

theorem Writable.plain_written (writable : settings.Writable cells record)
    {written : ObjectMemento Datum}
    (isWritten : record.convert (settings.writing cells) = some written) :
    (Document.recordNode written).Plain .messagePack :=
  Document.plain_recordNode (by simpa using writable.regular_written isWritten)

theorem sort_of_written {written : ObjectMemento Datum}
    (isWritten : record.convert (settings.writing cells) = some written) :
    written.sort = (record.kind, settings.aliases.encodeName record.typeName) := by
  have same := ObjectMemento.map_sort_convert (settings.writing cells) record
  rw [isWritten] at same
  exact Option.some.inj same

theorem sort_of_resolved {found : ObjectMemento Datum} {loaded : ObjectMemento LiveValue}
    {after : σ}
    (isResolved : (found.convert (settings.reading lookup)).run state = .ok (loaded, after)) :
    loaded.sort = (found.kind, settings.aliases.decodeName found.typeName) := by
  have same := congrArg (fun action => StateT.run action state)
    (ObjectMemento.map_sort_convert (settings.reading lookup) found)
  simp only [StateT.run_map, isResolved] at same
  exact congrArg Prod.fst (Except.ok.inj same)

/-- The bytes of a record are read exactly where they are readable. -/
theorem Writable.readBytes_iff (writable : settings.Writable cells record)
    {written : ObjectMemento Datum}
    (isWritten : record.convert (settings.writing cells) = some written) :
    (∃ found, settings.readBytes (Document.readRecord record.kind)
        (settings.printNode (Document.recordNode written)) = .ok found) ↔
      settings.Readable (Document.recordNode written) := by
  have sameKind : written.kind = record.kind := congrArg Prod.fst (sort_of_written isWritten)
  rw [← sameKind]
  exact readBytes_printNode (writable.plain_written isWritten)
    (fun isFormat => writable.fits isFormat written isWritten)
    fun _ _ => Document.isSome_readRecord written

/-- What is read of them has the kind and the type that were written. -/
theorem Writable.sort_of_read (writable : settings.Writable cells record)
    {written found : ObjectMemento Datum}
    (isWritten : record.convert (settings.writing cells) = some written)
    (isRead : settings.readBytes (Document.readRecord record.kind)
      (settings.printNode (Document.recordNode written)) = .ok found) :
    found.sort = written.sort := by
  have sameKind : written.kind = record.kind := congrArg Prod.fst (sort_of_written isWritten)
  have isParsed := (readBytes_eq_ok_iff _).mp isRead
  rw [← sameKind, parseNode?_printNode_of_plain (writable.plain_written isWritten)
    fun isFormat => writable.fits isFormat written isWritten] at isParsed
  split at isParsed
  · cases isParsed
  · exact Document.sort_of_readRecord isParsed

/-- Whatever the look-up does: what comes back is of the same kind, and of the type that is read for
what is written for its type. -/
theorem sort_of_reloadRecord (writable : settings.Writable cells record)
    {loaded : ObjectMemento LiveValue} {after : σ}
    (ran : (settings.reloadRecord cells lookup record).run state = .ok (loaded, after)) :
    loaded.sort = (record.kind,
      settings.aliases.decodeName (settings.aliases.encodeName record.typeName)) := by
  cases isWritten : record.convert (settings.writing cells) with
  | none => exact nomatch (reloadRecord_run_of_endless isWritten).symm.trans ran
  | some written =>
      rw [reloadRecord_run_of_written isWritten] at ran
      obtain ⟨found, isRead, isResolved⟩ := outcome_bind_eq_ok ran
      have sameSort : (found.kind, found.typeName) =
          (record.kind, settings.aliases.encodeName record.typeName) :=
        (writable.sort_of_read isWritten isRead).trans (sort_of_written isWritten)
      obtain ⟨sameKind, sameName⟩ := Prod.mk.inj sameSort
      rw [sort_of_resolved isResolved, sameKind, sameName]

/-- Records always resolve to placeholders. -/
theorem convertRecord_placeholders (record : ObjectMemento Datum) (slots : Slots) :
    ∃ loaded after,
      (record.convert (settings.reading PlaceholderLookup.resolver)).run (.start slots) =
        .ok (loaded, after) := by
  let find := fun kind (reference : Reference) => PlaceholderLookup.resolver kind reference.id
    (reference.expectedType.map settings.aliases.decodeName)
  have finds : ∀ reference : ObjectKind × Reference,
      (PlaceholderLookup.asking fun _ _ => True).Yields (find reference.1 reference.2)
        fun _ found => found.id = reference.2.id :=
    fun _ => PlaceholderLookup.yields_resolver trivial _
  have never : ∀ failure, ¬ (PlaceholderLookup.asking fun _ _ => True).fails failure :=
    fun _ impossible => impossible
  have start := @PlaceholderLookup.tracks_start (fun _ _ => True) slots
  cases record with
  | entity memento =>
      obtain ⟨loaded, after, ran, -⟩ := (@EntityMemento.yields_convert _ _ _ _ CellId _
        settings.aliases.decodeName find (fun _ => Reference.id) Handle.id memento
        fun reference _ => finds reference).run never start
      exact ⟨.entity loaded, after, (StateT.run_map _ _ _).trans (congrArg _ ran)⟩
  | location memento =>
      obtain ⟨loaded, after, ran, -⟩ := (@LocationMemento.yields_convert _ _ _ _ CellId _
        settings.aliases.decodeName find (fun _ => Reference.id) Handle.id memento
        fun reference _ => finds reference).run never start
      exact ⟨.location loaded, after, (StateT.run_map _ _ _).trans (congrArg _ ran)⟩
  | policy memento =>
      obtain ⟨loaded, after, ran, -⟩ := (@PolicyMemento.yields_convert _ _ _ _ CellId _
        settings.aliases.decodeName find (fun _ => Reference.id) Handle.id memento
        fun reference _ => finds reference).run never start
      exact ⟨.policy loaded, after, (StateT.run_map _ _ _).trans (congrArg _ ran)⟩

/-- With placeholders, a record comes back exactly where it is written and read again. -/
theorem exists_reloadRecord_iff (writable : settings.Writable cells record) (slots : Slots) :
    (∃ loaded after, (settings.reloadRecord cells PlaceholderLookup.resolver record).run
      (.start slots) = .ok (loaded, after)) ↔ settings.ReadsRecord cells record := by
  cases isWritten : record.convert (settings.writing cells) with
  | none =>
      refine iff_of_false ?_ ?_
      · rintro ⟨loaded, after, ran⟩
        exact nomatch (reloadRecord_run_of_endless isWritten).symm.trans ran
      · rintro ⟨written, isToo, -⟩
        exact nomatch isWritten.symm.trans isToo
  | some written =>
      have reads := writable.readBytes_iff isWritten
      simp only [reloadRecord_run_of_written isWritten]
      constructor
      · rintro ⟨loaded, after, ran⟩
        obtain ⟨found, isRead, -⟩ := outcome_bind_eq_ok ran
        exact ⟨written, isWritten, reads.mp ⟨found, isRead⟩⟩
      · rintro ⟨other, isToo, readable⟩
        cases isWritten.symm.trans isToo
        obtain ⟨found, isRead⟩ := reads.mpr readable
        obtain ⟨loaded, after, isResolved⟩ := @convertRecord_placeholders settings found slots
        exact ⟨loaded, after, by rw [isRead]; exact isResolved⟩

/-! ## Aliases -/

/-- What has become of a record under aliases. -/
structure ComesBack (aliases : Aliases) (record loaded : ObjectMemento LiveValue) : Prop where
  kind : loaded.kind = record.kind
  /-- It is of the type that it was exactly if the name of that survives. -/
  same : loaded.typeName = record.typeName ↔ aliases.Survives record.typeName
  /-- Otherwise it is of another one: the first of those that have the written name for an alias. -/
  other : ¬ aliases.Survives record.typeName → loaded.typeName ≠ record.typeName ∧
    aliases.IsFirst (aliases.encodeName record.typeName) loaded.typeName

theorem comesBack_of_sort {aliases : Aliases} (ordered : aliases.byType.Ordered)
    {loaded : ObjectMemento LiveValue}
    (isSort : loaded.sort =
      (record.kind, aliases.decodeName (aliases.encodeName record.typeName))) :
    ComesBack aliases record loaded := by
  obtain ⟨sameKind, isName⟩ := Prod.mk.inj isSort
  have survives : loaded.typeName = record.typeName ↔ aliases.Survives record.typeName := by
    rw [isName]
    exact Aliases.decodeName_encodeName_iff ordered
  refine ⟨sameKind, survives, fun lost => ⟨fun same => lost (survives.mp same), ?_⟩⟩
  rw [isName]
  exact Aliases.isFirst_of_not_survives ordered lost

/-- Under any aliases, and with any look-up, a record that comes back is of the same type exactly if
the name of its type survives them, and of the first type with the written alias otherwise. With
placeholders it comes back wherever its bytes can be read. All names survive exactly if no two types
share an alias and every alias is itself the name of a type with an alias. -/
theorem reloadRecord_ofCalls (calls : List (String × String)) (format : Format) :
    (∀ {σ : Type} (lookup : Lookup σ) (state : σ) (cells : Cells)
        (record : ObjectMemento LiveValue), Writable ⟨format, .ofCalls calls⟩ cells record →
      ∀ loaded after, (reloadRecord ⟨format, .ofCalls calls⟩ cells lookup record).run state =
          .ok (loaded, after) → ComesBack (.ofCalls calls) record loaded) ∧
    (∀ (cells : Cells) (record : ObjectMemento LiveValue) (slots : Slots),
      Writable ⟨format, .ofCalls calls⟩ cells record →
        ((∃ loaded after, (reloadRecord ⟨format, .ofCalls calls⟩ cells PlaceholderLookup.resolver
            record).run (.start slots) = .ok (loaded, after)) ↔
          ReadsRecord ⟨format, .ofCalls calls⟩ cells record)) ∧
    ((∀ name, (Aliases.ofCalls calls).decodeName ((Aliases.ofCalls calls).encodeName name) = name) ↔
      (Aliases.ofCalls calls).Injective ∧ (Aliases.ofCalls calls).Closed) := by
  have ordered := Aliases.ordered_ofCalls calls
  refine ⟨?_, fun cells record slots writable => exists_reloadRecord_iff writable slots, ?_⟩
  · intro σ lookup state cells record writable loaded after ran
    exact comesBack_of_sort ordered (sort_of_reloadRecord writable ran)
  · rw [← Aliases.forall_survives_iff]
    exact forall_congr' fun name => Aliases.decodeName_encodeName_iff ordered

section Sample

/-- Two types with one alias. -/
private def colliding : List (String × String) := [("Server", "node"), ("Cluster", "node")]

private def server : ObjectMemento LiveValue := .entity (.blank "e" "Server")

private theorem writable_server : Writable ⟨.json, .ofCalls colliding⟩ .empty server :=
  ⟨Cells.regular_empty, ⟨⟨.nil, trivial⟩, ⟨.nil, trivial⟩, .nil⟩, nofun⟩

private theorem readsRecord_server : ReadsRecord ⟨.json, .ofCalls colliding⟩ .empty server :=
  ⟨.entity (.blank "e" "node"), by rfl, by decide +kernel, nofun⟩

/-- A server comes back as a cluster. -/
theorem reloadRecord_ofCalls_colliding : ∃ loaded after,
    (reloadRecord ⟨.json, .ofCalls colliding⟩ .empty PlaceholderLookup.resolver server).run
        (.start .empty) = .ok (loaded, after) ∧
      loaded.typeName = "Cluster" := by
  obtain ⟨comesBack, reads, -⟩ := reloadRecord_ofCalls colliding .json
  obtain ⟨loaded, after, ran⟩ :=
    (reads .empty server .empty writable_server).mpr readsRecord_server
  have isLoaded := comesBack _ _ _ _ writable_server loaded after ran
  have lost : ¬ (Aliases.ofCalls colliding).Survives "Server" := by
    rw [← Aliases.decodeName_encodeName_iff (Aliases.ordered_ofCalls colliding)]
    decide +kernel
  obtain ⟨notServer, isFirst⟩ := isLoaded.other lost
  have table : (Aliases.ofCalls colliding).byType = [("Cluster", "node"), ("Server", "node")] := by
    decide +kernel
  have member := Table.mem_of_get? isFirst.aliased
  rw [table] at member
  refine ⟨loaded, after, ran, ?_⟩
  rcases List.mem_pair.mp member with isCluster | isServer
  · exact congrArg Prod.fst isCluster
  · exact absurd (congrArg Prod.fst isServer) notServer

end Sample

end Encoding.Settings

end GraphCheckpoint
