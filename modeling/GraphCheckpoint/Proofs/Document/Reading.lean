import GraphCheckpoint.Proofs.Document.RoundTrip

/-!
Contract: what a reader takes from any tree.

Owns:
- that the values and records which are read are regular, and fit when the tree is sized;
- that they nest no deeper than the reader goes, unless the tree comes from MessagePack.

Does not own: where trees come from.

MessagePack admits byte strings in place of values and of empty lists. These are no containers where
they are read, but what is read of them is written with some.
-/

namespace GraphCheckpoint.Document

open GraphCheckpoint.Encoding

variable {source : Source} {limit : Nat} {sized : Prop}

/-- What becomes of a part that was read, once it is written again. -/
structure Within (source : Source) (limit : Nat) (sized : Prop) (written : Node) : Prop where
  fits : sized → written.Fits
  legible : source ≠ .encoded .messagePack → written.legible limit = true

/-- What was held back is measured whatever its source is. -/
theorem Within.ofHeld {written : Node} (within : Within .held limit sized written) :
    Within source limit sized written :=
  ⟨within.fits, fun _ => within.legible (by simp)⟩

theorem Within.imp {stronger : Prop} {written : Node} (within : Within source limit sized written)
    (isSized : stronger → sized) : Within source limit stronger written :=
  ⟨fun holds => within.fits (isSized holds), within.legible⟩

/-! ## Texts, lists and tables -/

theorem readText_fits {node : Node} {content : String} (isRead : readText node = some content)
    (isSized : node.Sized) : (bytesOfText content).length < Node.lengthBound := by
  unfold readText at isRead
  split at isRead
  · cases isRead
    exact isSized
  · rw [bytesOfText_of_textOfBytes? isRead]
    exact isSized
  · cases isRead

theorem within_text {node : Node} {content : String} (isRead : readText node = some content) :
    Within source limit node.Sized (.text content) :=
  ⟨readText_fits isRead, fun _ => rfl⟩

theorem length_of_mapM {α β : Type} {action : α → Option β} {items : List α} {results : List β}
    (isMapped : items.mapM action = some results) : results.length = items.length := by
  induction items generalizing results with
  | nil =>
      cases isMapped
      rfl
  | cons item rest inductionHypothesis =>
      simp only [List.mapM_cons, Option.bind_eq_bind, Option.bind_eq_some_iff] at isMapped
      obtain ⟨first, -, others, areOthers, isResult⟩ := isMapped
      cases isResult
      rw [List.length_cons, List.length_cons, inductionHypothesis areOthers]

/-- A list that is read has been opened, or stands for an empty byte string of MessagePack. -/
theorem readList_cases {α : Type} {read : Nat → Node → Option α} {node : Node} {items : List α}
    (isRead : readList source read limit node = some items) :
    (∃ inner nodes, limit = inner + 1 ∧ node = .list nodes ∧ nodes.mapM (read inner) = some items) ∨
      (source = .encoded .messagePack ∧ items = []) := by
  unfold readList at isRead
  split at isRead
  · exact Or.inl ⟨_, _, rfl, rfl, isRead⟩
  · split at isRead
    · cases isRead
      exact Or.inr ⟨‹_›, rfl⟩
    · cases isRead
  · cases isRead

/-- Every result is what each single one is known to be. -/
private theorem forall_results_of_mapM {α β : Type} {action : α → Option β} {property : β → Prop}
    (each : ∀ item result, action item = some result → property result) {items : List α}
    {results : List β} (isMapped : items.mapM action = some results) :
    ∀ result ∈ results, property result :=
  @forall_of_mapM α β action (fun _ => True) property (fun item result _ => each item result) items
    results (fun _ _ => trivial) isMapped

theorem forall_of_readList {α : Type} {read : Nat → Node → Option α} {node : Node}
    {items : List α} {property : α → Prop}
    (each : ∀ inner part item, limit = inner + 1 → read inner part = some item → property item)
    (isRead : readList source read limit node = some items) : ∀ item ∈ items, property item := by
  rcases readList_cases isRead with ⟨inner, nodes, isLimit, -, isMapped⟩ | ⟨-, isEmpty⟩
  · exact forall_results_of_mapM (fun part item found => each inner part item isLimit found) isMapped
  · rw [isEmpty]
    simp

theorem within_list {α : Type} {read : Nat → Node → Option α} {print : α → Node} {node : Node}
    {items : List α}
    (each : ∀ inner part item, limit = inner + 1 → read inner part = some item →
      Within source inner part.Sized (print item))
    (isRead : readList source read limit node = some items) :
    Within source limit node.Sized (.list (items.map print)) := by
  rcases readList_cases isRead with ⟨inner, nodes, rfl, rfl, isMapped⟩ | ⟨isPacked, rfl⟩
  · refine ⟨fun isSized => fits_list_of ?_ ?_, fun notPacked => legible_list_of ?_⟩
    · rw [length_of_mapM isMapped]
      exact isSized.1
    · exact forall_of_mapM (fun part item partSized found => (each inner part item rfl found).fits
        partSized) (Node.sizedItems_iff.mp isSized.2) isMapped
    · exact forall_results_of_mapM (fun part item found =>
        (each inner part item rfl found).legible notPacked) isMapped
  · exact ⟨fun _ => fits_list_of (show 0 < Node.lengthBound by decide) (by simp),
      fun notPacked => absurd isPacked notPacked⟩

theorem within_textNodes {node : Node} {texts : List String}
    (isRead : readTexts source limit node = some texts) :
    Within source limit node.Sized (textNodes texts) :=
  within_list (fun _ _ _ _ found => within_text found) isRead

/-- A set of ids has no more ids than the list that is read. -/
theorem within_idSet {node : Node} {ids : IdSet} (isRead : readIdSet source limit node = some ids) :
    List.Pairwise (· < ·) ids ∧ Within source limit node.Sized (textNodes ids) := by
  obtain ⟨texts, areTexts, rfl⟩ := Option.map_eq_some_iff.mp isRead
  have within := within_textNodes areTexts
  refine ⟨IdSet.ascending_ofList texts, fun isSized => ?_, fun notPacked => ?_⟩
  · have fits := within.fits isSized
    refine fits_list_of ?_ fun id member => fits_list fits id (IdSet.mem_ofList.mp member)
    have few : texts.length < Node.lengthBound := by simpa [textNodes] using fits.1
    exact Nat.lt_of_le_of_lt (IdSet.length_ofList_le texts) few
  · have legible := within.legible notPacked
    cases limit with
    | zero => cases legible
    | succ inner => exact legible_list_of fun _ _ => rfl

theorem datumNodes_eq (items : List Datum) : datumNodes items = items.map datumNode := by
  induction items with
  | nil => rfl
  | cons item rest inductionHypothesis => rw [datumNodes, inductionHypothesis, List.map_cons]

theorem regularItems_iff {floats : Prop} {items : List Datum} :
    Value.RegularItems floats items ↔ ∀ item ∈ items, item.Regular floats := by
  induction items with
  | nil => simp [Value.RegularItems]
  | cons item rest inductionHypothesis => simp [Value.RegularItems, inductionHypothesis]

theorem regularEntries_iff {floats : Prop} {entries : List (String × Datum)} :
    Value.RegularEntries floats entries ↔ ∀ entry ∈ entries, entry.2.Regular floats := by
  induction entries with
  | nil => simp [Value.RegularEntries]
  | cons entry rest inductionHypothesis =>
      obtain ⟨key, value⟩ := entry
      simp [Value.RegularEntries, inductionHypothesis]

theorem fits_tableNode {table : Table Datum} (few : table.length < Node.lengthBound)
    (fit : ∀ entry ∈ table, (bytesOfText entry.1).length < Node.lengthBound ∧
      (datumNode entry.2).Fits) : (tableNode table).Fits := by
  refine ⟨?_, ?_⟩
  · have same : (datumEntries table).length = table.length := by
      clear few fit
      induction table with
      | nil => rfl
      | cons entry rest inductionHypothesis =>
          obtain ⟨key, value⟩ := entry
          rw [datumEntries, List.length_cons, inductionHypothesis, List.length_cons]
    rw [same]
    exact few
  · clear few
    induction table with
    | nil => exact trivial
    | cons entry rest inductionHypothesis =>
        obtain ⟨key, value⟩ := entry
        have first := fit (key, value) (by simp)
        exact ⟨first.1, first.2, inductionHypothesis fun other member => fit other (by simp [member])⟩

theorem legible_tableNode {table : Table Datum}
    (legible : ∀ entry ∈ table, (datumNode entry.2).legible limit = true) :
    (tableNode table).legible (limit + 1) = true := by
  change Node.legibleEntries limit (datumEntries table) = true
  induction table with
  | nil => rfl
  | cons entry rest inductionHypothesis =>
      obtain ⟨key, value⟩ := entry
      rw [datumEntries, Node.legibleEntries, Bool.and_eq_true, Bool.and_eq_true]
      exact ⟨⟨rfl, legible (key, value) (by simp)⟩,
        inductionHypothesis fun other member => legible other (by simp [member])⟩

/-- Of a table that is read, the keys ascend, and the values are among those that were read. -/
theorem within_table {read : Nat → Node → Option Datum} {node : Node} {table : Table Datum}
    (each : ∀ inner part value, limit = inner + 1 → read inner part = some value →
      value.Regular True ∧ Within source inner part.Sized (datumNode value))
    (isRead : readTable read limit node = some table) :
    Value.RegularTable True table ∧ Within source limit node.Sized (tableNode table) := by
  unfold readTable at isRead
  split at isRead
  · rename_i inner entries
    simp only [Option.bind_eq_bind, Option.bind_eq_some_iff] at isRead
    obtain ⟨pairs, isMapped, isTable⟩ := isRead
    cases isTable
    have ordered : Table.Ordered (Table.ofEntries pairs) :=
      @Table.Ordered.insertAll _ [] List.Pairwise.nil pairs
    have among : ∀ entry ∈ Table.ofEntries pairs, entry ∈ pairs := fun entry member =>
      (@Table.mem_insertAll _ [] _ _ member).resolve_right (List.not_mem_nil)
    have few : (Table.ofEntries pairs).length ≤ entries.length := by
      have bound := @Table.length_insertAll_le Datum [] pairs
      rw [length_of_mapM isMapped, List.length_nil, Nat.zero_add] at bound
      exact bound
    have parts : ∀ (part : Node × Node) (result : String × Datum), (do
        let key ← readText part.1
        let value ← read inner part.2
        some (key, value)) = some result →
          readText part.1 = some result.1 ∧ read inner part.2 = some result.2 := by
      intro part result found
      simp only [Option.bind_eq_bind, Option.bind_eq_some_iff] at found
      obtain ⟨key, isKey, value, isValue, isResult⟩ := found
      cases isResult
      exact ⟨isKey, isValue⟩
    refine ⟨⟨ordered, regularEntries_iff.mpr fun entry member => ?_⟩, fun isSized => ?_,
      fun notPacked => legible_tableNode fun entry member => ?_⟩
    · have allRegular : ∀ result ∈ pairs, result.2.Regular True :=
        forall_results_of_mapM (fun part result isResult =>
          (each inner _ _ rfl (parts part result isResult).2).1) isMapped
      exact allRegular entry (among entry member)
    · have allFit : ∀ result ∈ pairs,
          (bytesOfText result.1).length < Node.lengthBound ∧ (datumNode result.2).Fits :=
        forall_of_mapM (fun part result partSized isResult =>
          ⟨readText_fits (parts part result isResult).1 partSized.1,
            (each inner _ _ rfl (parts part result isResult).2).2.fits partSized.2⟩)
          (Node.sizedEntries_iff.mp isSized.2) isMapped
      exact fits_tableNode (Nat.lt_of_le_of_lt few isSized.1) fun entry member =>
        allFit entry (among entry member)
    · have allLegible : ∀ result ∈ pairs, (datumNode result.2).legible inner = true :=
        forall_results_of_mapM (fun part result isResult =>
          (each inner _ _ rfl (parts part result isResult).2).2.legible notPacked) isMapped
      exact allLegible entry (among entry member)
  · cases isRead

/-! ## Fields -/

/-- What every step of a fold keeps, the whole fold keeps. -/
theorem foldlM_keeps {State Item : Type} {step : State → Item → Option State}
    {holds : State → Prop} {items : List Item} {start result : State} (starts : holds start)
    (keeps : ∀ item ∈ items, ∀ before after, step before item = some after → holds before →
      holds after) (isRun : items.foldlM step start = some result) : holds result := by
  induction items generalizing start with
  | nil =>
      cases isRun
      exact starts
  | cons item rest inductionHypothesis =>
      rw [List.foldlM_cons, Option.bind_eq_bind, Option.bind_eq_some_iff] at isRun
      obtain ⟨next, isNext, isRun⟩ := isRun
      exact inductionHypothesis (keeps item List.mem_cons_self start next isNext starts)
        (fun other member => keeps other (List.mem_cons_of_mem _ member)) isRun

/-- The fields that are found stand in the tree. -/
theorem readFields_sized {names : List String} {node : Node} {found : List (Option Node)}
    (isRead : readFields source names limit node = some found) (isSized : node.Sized) :
    ∀ part, some part ∈ found → part.Sized := by
  unfold readFields at isRead
  split at isRead
  · split at isRead
    · cases isRead
      intro part member
      rcases List.mem_append.mp member with isItem | isMissing
      · obtain ⟨item, isMember, same⟩ := List.mem_map.mp isItem
        cases same
        exact Node.sizedItems_iff.mp isSized.2 _ isMember
      · cases List.eq_of_mem_replicate isMissing
    · cases isRead
  · rename_i entries
    refine @foldlM_keeps _ _ _ (fun found => ∀ part, some part ∈ found → part.Sized) _ _ _
      (fun part member => ?_) (fun entry isEntry before after isNext beforeSized part member => ?_)
      isRead
    · cases List.eq_of_mem_replicate member
    -- an entry is passed over, or its value is put into a place that was open
    · simp only [Option.bind_eq_bind, Option.bind_eq_some_iff] at isNext
      obtain ⟨index?, -, isNext⟩ := isNext
      split at isNext
      · split at isNext
        · cases isNext
          exact beforeSized part member
        · cases isNext
      · split at isNext
        · cases isNext
          rcases List.mem_or_eq_of_mem_set member with old | new
          · exact beforeSized part old
          · cases new
            exact (Node.sizedEntries_iff.mp isSized.2 entry isEntry).2
        · cases isNext
  · cases isRead

section Fields

variable {α : Type} {field : Option Node} (fieldSized : sized → ∀ part, field = some part → part.Sized)

theorem required_eq_some {read : Node → Option α} {result : α}
    (isRead : required read field = some result) :
    ∃ part, field = some part ∧ read part = some result := by
  cases field with
  | none => cases isRead
  | some part => exact ⟨part, rfl, isRead⟩

theorem orElse_eq_some {default : α} {read : Node → Option α} {result : α}
    (isRead : orElse default read field = some result) :
    (field = none ∧ result = default) ∨ ∃ part, field = some part ∧ read part = some result := by
  cases field with
  | none => exact Or.inl ⟨rfl, (Option.some.inj isRead).symm⟩
  | some part => exact Or.inr ⟨part, rfl, isRead⟩

theorem nullable_eq_some {read : Node → Option α} {result : α}
    (isRead : nullable read field = some (some result)) :
    ∃ part, field = some part ∧ read part = some result := by
  unfold nullable at isRead
  split at isRead
  · cases isRead
  · cases isRead
  · rename_i part _
    obtain ⟨found, isFound, same⟩ := Option.map_eq_some_iff.mp isRead
    cases same
    exact ⟨part, rfl, isFound⟩

include fieldSized

theorem within_required {content : String} (isRead : required readText field = some content) :
    Within source limit sized (.text content) := by
  obtain ⟨part, isField, isText⟩ := required_eq_some isRead
  exact (within_text isText).imp fun isSized => fieldSized isSized part isField

theorem within_nullable {content : Option String}
    (isRead : nullable readText field = some content) :
    ∀ written, content.map Node.text = some written → Within source limit sized written := by
  intro written isWritten
  obtain ⟨text, rfl, rfl⟩ := Option.map_eq_some_iff.mp isWritten
  obtain ⟨part, isField, isText⟩ := nullable_eq_some isRead
  exact (within_text isText).imp fun isSized => fieldSized isSized part isField

/-- A list that is missing is written as an empty one, for which a container must be left. -/
theorem within_texts {texts : List String}
    (isRead : orElse [] (readTexts source (limit + 1)) field = some texts) :
    Within source (limit + 1) sized (textNodes texts) := by
  rcases orElse_eq_some isRead with ⟨-, rfl⟩ | ⟨part, isField, areTexts⟩
  · exact ⟨fun _ => fits_list_of (show 0 < Node.lengthBound by decide) (by simp), fun _ => rfl⟩
  · exact (within_textNodes areTexts).imp fun isSized => fieldSized isSized part isField

theorem within_ids {ids : IdSet}
    (isRead : orElse [] (readIdSet source (limit + 1)) field = some ids) :
    List.Pairwise (· < ·) ids ∧ Within source (limit + 1) sized (textNodes ids) := by
  rcases orElse_eq_some isRead with ⟨-, rfl⟩ | ⟨part, isField, areIds⟩
  · exact ⟨List.Pairwise.nil,
      fun _ => fits_list_of (show 0 < Node.lengthBound by decide) (by simp), fun _ => rfl⟩
  · obtain ⟨ascending, within⟩ := within_idSet areIds
    exact ⟨ascending, within.imp fun isSized => fieldSized isSized part isField⟩

end Fields

/-- A record is within the limits one container further out than its fields. -/
theorem within_record {node : Node} {fields : List (String × Option Node)}
    (isRecord : node = .record (presentFields fields)) (names : List String)
    (named : fields.map Prod.fst = names)
    (short : names.length < Node.lengthBound ∧
      ∀ name ∈ names, (bytesOfText name).length < Node.lengthBound)
    (contents : ∀ name content, (name, some content) ∈ fields → Within source limit sized content) :
    Within source (limit + 1) sized node := by
  subst isRecord named
  have present : ∀ field ∈ presentFields fields, (field.1, some field.2) ∈ fields := by
    intro field member
    obtain ⟨⟨name, content?⟩, isField, isPresent⟩ := List.mem_filterMap.mp member
    obtain ⟨content, rfl, rfl⟩ := Option.map_eq_some_iff.mp isPresent
    exact isField
  refine ⟨fun isSized => fits_record_of ?_ fun field member => ⟨?_, ?_⟩, fun notPacked =>
    legible_record_of fun field member => ?_⟩
  · refine Nat.lt_of_le_of_lt (List.length_filterMap_le _ _) ?_
    simpa using short.1
  · exact short.2 field.1 (List.mem_map_of_mem (f := Prod.fst) (present field member))
  · exact (contents field.1 field.2 (present field member)).fits isSized
  · exact (contents field.1 field.2 (present field member)).legible notPacked

/-! ## Values -/

theorem within_reference {node : Node} {reference : Reference}
    (isRead : readReference source limit node = some reference) :
    Within source limit node.Sized (referenceNode reference) := by
  cases limit with
  | zero => cases isRead
  | succ inner =>
      simp only [readReference, Option.bind_eq_bind, Option.bind_eq_some_iff] at isRead
      obtain ⟨fields, areFields, isRead⟩ := isRead
      split at isRead
      · rename_i id expectedType
        simp only [Option.bind_eq_some_iff] at isRead
        obtain ⟨idText, isId, expected, isExpected, isResult⟩ := isRead
        cases isResult
        have partSized := fun isSized => readFields_sized areFields isSized
        refine within_record (referenceNode_eq _) ["id", "expectedType"] rfl (by decide)
          fun name content member => ?_
        simp only [List.mem_cons, Prod.mk.injEq, List.not_mem_nil, or_false] at member
        rcases member with ⟨-, same⟩ | ⟨-, same⟩
        · cases same
          exact within_required (fun isSized part isField => partSized isSized part
            (by simp [isField])) isId
        · exact within_nullable (fun isSized part isField => partSized isSized part
            (by simp [isField])) isExpected content same.symm
      · cases isRead

/-- A value that is written with its type name takes one container more than its content. -/
theorem within_tagged {content : Node} (typeName : String)
    (short : (bytesOfText typeName).length < Node.lengthBound)
    (within : Within source limit sized content) :
    Within source (limit + 1) sized (tagged typeName content) := by
  have isRecord : tagged typeName content = .record (presentFields
      [("type", some (.text typeName)), ("value", some content)]) := rfl
  refine within_record isRecord ["type", "value"] rfl (by decide) fun name part member => ?_
  simp only [List.mem_cons, Prod.mk.injEq, Option.some.injEq, List.not_mem_nil, or_false] at member
  rcases member with ⟨-, rfl⟩ | ⟨-, rfl⟩
  · exact ⟨fun _ => short, fun _ => rfl⟩
  · exact within

/-- A value is regular and within the limits. -/
abbrev WithinValue (source : Source) (limit : Nat) (sized : Prop) (value : Datum) : Prop :=
  value.Regular True ∧ Within source limit sized (datumNode value)

theorem withinValue_null : WithinValue source (limit + 1) sized .null :=
  ⟨trivial, within_record
    (show datumNode .null = .record (presentFields [("type", some (.text "null"))]) from rfl)
    ["type"] rfl (by decide)
    fun name part member => by
      simp only [List.mem_cons, Prod.mk.injEq, Option.some.injEq, List.not_mem_nil, or_false]
        at member
      rw [member.2]
      exact ⟨fun _ => show (bytesOfText "null").length < Node.lengthBound by decide, fun _ => rfl⟩⟩

/-- The content of a value is within the limits when the values inside it are. -/
theorem withinValue_of_readContent {readInner : Node → Option Datum}
    (inner : ∀ depth part value, limit = depth + 1 → readInner part = some value →
      WithinValue source depth part.Sized value) {typeIndex : Nat} {content : Node} {value : Datum}
    (isRead : readContent source limit readInner typeIndex content = some value) :
    WithinValue source (limit + 1) content.Sized value := by
  have leaf : ∀ node : Node, node.Fits → node.legible limit = true →
      Within source limit content.Sized node := fun _ fits legible => ⟨fun _ => fits, fun _ => legible⟩
  unfold readContent at isRead
  split at isRead
  · split at isRead
    · cases isRead
      exact withinValue_null
    · cases isRead
  · obtain ⟨flag, -, rfl⟩ := Option.map_eq_some_iff.mp isRead
    exact ⟨trivial, within_tagged "boolean" (by decide) (leaf _ trivial rfl)⟩
  · obtain ⟨number, -, rfl⟩ := Option.map_eq_some_iff.mp isRead
    exact ⟨trivial, within_tagged "integer" (by decide) (leaf _ trivial rfl)⟩
  · obtain ⟨number, -, rfl⟩ := Option.map_eq_some_iff.mp isRead
    exact ⟨trivial, within_tagged "float" (by decide) (leaf _ trivial rfl)⟩
  · obtain ⟨text, isText, rfl⟩ := Option.map_eq_some_iff.mp isRead
    exact ⟨trivial, within_tagged "text" (by decide) (within_text isText)⟩
  · obtain ⟨items, areItems, rfl⟩ := Option.map_eq_some_iff.mp isRead
    refine ⟨regularItems_iff.mpr ?_, within_tagged "list" (by decide) ?_⟩
    · exact forall_of_readList (fun depth part item isLimit found =>
        (inner depth part item isLimit found).1) areItems
    · rw [datumNodes_eq]
      exact within_list (fun depth part item isLimit found =>
        (inner depth part item isLimit found).2) areItems
  · obtain ⟨entries, areEntries, rfl⟩ := Option.map_eq_some_iff.mp isRead
    obtain ⟨regular, within⟩ := within_table inner areEntries
    exact ⟨regular, within_tagged "map" (by decide) within⟩
  · obtain ⟨target, isTarget, rfl⟩ := Option.map_eq_some_iff.mp isRead
    exact ⟨trivial, within_tagged "entityRef" (by decide) (within_reference isTarget)⟩
  · obtain ⟨target, isTarget, rfl⟩ := Option.map_eq_some_iff.mp isRead
    exact ⟨trivial, within_tagged "locationRef" (by decide) (within_reference isTarget)⟩

/-- A packed value is a number, and stands in MessagePack alone. -/
theorem withinValue_of_readPacked {node : Node} {value : Datum}
    (isRead : readPacked source node = some value) : WithinValue source limit node.Sized value := by
  unfold readPacked at isRead
  split at isRead
  · split at isRead
    · rename_i typeIndex content _ isPacked
      obtain ⟨regular, within⟩ := @withinValue_of_readContent source 0 (fun _ => none)
        (fun _ _ _ isLimit _ => absurd isLimit (by omega)) _ _ _ isRead
      exact ⟨regular, fun _ => within.fits trivial, fun notPacked => absurd isPacked notPacked⟩
    · cases isRead
  · cases isRead

theorem mem_of_valueParts {entries : List (Node × Node)} {parts : List (ValuePart × Node)}
    (areParts : valueParts source limit entries = some parts) :
    ∀ part ∈ parts, ∃ key, (key, part.2) ∈ entries := by
  induction entries generalizing parts with
  | nil =>
      cases areParts
      simp
  | cons entry rest inductionHypothesis =>
      obtain ⟨key, node⟩ := entry
      simp only [valueParts, Option.bind_eq_bind, Option.bind_eq_some_iff] at areParts
      obtain ⟨index?, -, others, areOthers, isResult⟩ := areParts
      have later : ∀ part ∈ others, ∃ key', (key', part.2) ∈ (key, node) :: rest :=
        fun part member => (inductionHypothesis areOthers part member).imp fun _ found => by
          simp [found]
      have first : ∀ name : ValuePart, ∀ part ∈ (name, node) :: others,
          ∃ key', (key', part.2) ∈ (key, node) :: rest := fun name part member => by
        rcases List.mem_cons.mp member with rfl | isOther
        · exact ⟨key, by simp⟩
        · exact later part isOther
      split at isResult
      · cases isResult
        exact first _
      · cases isResult
        exact first _
      · split at isResult
        · cases isResult
          exact later
        · cases isResult

theorem withinValue_of_readParts {readInner : Source → Node → Option Datum}
    (inner : ∀ source depth part value, limit = depth + 1 → readInner source part = some value →
      WithinValue source depth part.Sized value) {parts : List (ValuePart × Node)} {value : Datum}
    (isRead : readParts source limit readInner parts = some value) :
    WithinValue source (limit + 1) (∀ part ∈ parts, part.2.Sized) value := by
  unfold readParts at isRead
  split at isRead
  · simp only [Option.bind_eq_bind, Option.bind_eq_some_iff] at isRead
    obtain ⟨index, -, isResult⟩ := isRead
    split at isResult
    · cases isResult
      exact withinValue_null
    · cases isResult
  · rename_i name content
    simp only [Option.bind_eq_bind, Option.bind_eq_some_iff] at isRead
    obtain ⟨index, -, isContent⟩ := isRead
    obtain ⟨regular, within⟩ := withinValue_of_readContent (inner source) isContent
    exact ⟨regular, within.imp fun isSized => isSized (.content, content) (by simp)⟩
  · rename_i content name
    obtain ⟨-, -, isHeld⟩ := Option.bind_eq_some_iff.mp isRead
    obtain ⟨index, -, isContent⟩ := Option.bind_eq_some_iff.mp isHeld
    obtain ⟨regular, within⟩ := withinValue_of_readContent (inner .held) isContent
    exact ⟨regular, within.ofHeld.imp fun isSized => isSized (.content, content) (by simp)⟩
  · cases isRead

theorem readValue_succ (limit : Nat) (source : Source) (node : Node) :
    readValue (limit + 1) source node =
      match node with
      | .map entries => do
          readParts source limit (readInside limit) (← valueParts source limit entries)
      | .list [name, content] => readPair source limit (readInside limit) name content
      | _ => readPacked source node := by
  cases limit <;> rfl

/-- Every value that is read is within the limits of the reader. -/
theorem withinValue_of_readValue {node : Node} {value : Datum}
    (isRead : readValue limit source node = some value) :
    WithinValue source limit node.Sized value := by
  induction limit using Nat.strongRecOn generalizing source node value with
  | ind limit inductionHypothesis =>
      cases limit with
      | zero => exact withinValue_of_readPacked isRead
      | succ limit =>
          have inner : ∀ source depth part value, limit = depth + 1 →
              readInside limit source part = some value →
              WithinValue source depth part.Sized value := by
            rintro source depth part value rfl found
            exact inductionHypothesis depth (by omega) found
          rw [readValue_succ] at isRead
          split at isRead
          · rename_i entries
            rw [Option.bind_eq_bind, Option.bind_eq_some_iff] at isRead
            obtain ⟨parts, areParts, isValue⟩ := isRead
            obtain ⟨regular, within⟩ := withinValue_of_readParts inner isValue
            refine ⟨regular, within.imp fun isSized part member => ?_⟩
            obtain ⟨key, isEntry⟩ := mem_of_valueParts areParts part member
            exact (Node.sizedEntries_iff.mp isSized.2 _ isEntry).2
          · rename_i name content
            simp only [readPair, Option.bind_eq_bind, Option.bind_eq_some_iff] at isRead
            obtain ⟨index, -, isContent⟩ := isRead
            obtain ⟨regular, within⟩ := withinValue_of_readContent (inner source) isContent
            exact ⟨regular, within.imp fun isSized => isSized.2.2.1⟩
          · exact withinValue_of_readPacked isRead

/-! ## Records

A record has containers inside it for which nothing need have been read, since what is missing is
written as empty. So the reader must be deep enough for them. -/

section Records

variable {format : Format} {node : Node}

theorem within_tableField {field : Option Node} {table : Table Datum}
    (fieldSized : sized → ∀ part, field = some part → part.Sized)
    (isRead : orElse [] (readTable (readDatum format) (limit + 1)) field = some table) :
    Value.RegularTable True table ∧
      Within (.encoded format) (limit + 1) sized (tableNode table) := by
  rcases orElse_eq_some isRead with ⟨-, rfl⟩ | ⟨part, isField, isTable⟩
  · exact ⟨⟨List.Pairwise.nil, trivial⟩,
      fun _ => fits_tableNode (show 0 < Node.lengthBound by decide) (by simp), fun _ => rfl⟩
  · obtain ⟨regular, within⟩ :=
      within_table (fun _ _ _ _ found => withinValue_of_readValue found) isTable
    exact ⟨regular, within.imp fun isSized => fieldSized isSized part isField⟩

theorem within_of_readCommon {common : Common Datum}
    (isRead : readCommon format (limit + 2) node = some common) :
    common.Regular True ∧ Within (.encoded format) (limit + 2) node.Sized (commonNode common) := by
  simp only [readCommon, Option.bind_eq_bind, Option.bind_eq_some_iff] at isRead
  obtain ⟨fields, areFields, isRead⟩ := isRead
  split at isRead
  · rename_i id typeName displayName config attributes tags
    simp only [Option.bind_eq_some_iff] at isRead
    obtain ⟨idText, isId, typeText, isType, display, isDisplay, configTable, isConfig,
      attributeTable, isAttributes, tagSet, areTags, isResult⟩ := isRead
    cases isResult
    have sizedIn : ∀ field ∈ [id, typeName, displayName, config, attributes, tags],
        node.Sized → ∀ part, field = some part → part.Sized :=
      fun field member isSized part isField =>
        readFields_sized areFields isSized part (isField ▸ member)
    obtain ⟨configRegular, configWithin⟩ := within_tableField (sizedIn config (by simp)) isConfig
    obtain ⟨attributesRegular, attributesWithin⟩ :=
      within_tableField (sizedIn attributes (by simp)) isAttributes
    obtain ⟨tagsAscending, tagsWithin⟩ := within_ids (sizedIn tags (by simp)) areTags
    refine ⟨⟨configRegular, attributesRegular, tagsAscending⟩,
      within_record (commonNode_eq _) ["id", "type", "displayName", "config", "attributes", "tags"]
        rfl (by decide) fun name content member => ?_⟩
    simp only [List.mem_cons, Prod.mk.injEq, Option.some.injEq, List.not_mem_nil, or_false]
      at member
    rcases member with ⟨-, rfl⟩ | ⟨-, rfl⟩ | ⟨-, same⟩ | ⟨-, rfl⟩ | ⟨-, rfl⟩ | ⟨-, rfl⟩
    · exact within_required (sizedIn id (by simp)) isId
    · exact within_required (sizedIn typeName (by simp)) isType
    · exact within_nullable (sizedIn displayName (by simp)) isDisplay content same.symm
    · exact configWithin
    · exact attributesWithin
    · exact tagsWithin
  · cases isRead

theorem within_of_readEntity {memento : EntityMemento Datum}
    (isRead : readEntity format (limit + 3) node = some memento) :
    memento.Regular True ∧
      Within (.encoded format) (limit + 3) node.Sized (entityNode memento) := by
  simp only [readEntity, Option.bind_eq_bind, Option.bind_eq_some_iff] at isRead
  obtain ⟨fields, areFields, isRead⟩ := isRead
  split at isRead
  · rename_i base parent children locations policies enrichers application
    simp only [Option.bind_eq_some_iff] at isRead
    obtain ⟨common, isCommon, parentId, isParent, childIds, areChildren, locationIds, areLocations,
      policyIds, arePolicies, enricherIds, areEnrichers, applicationId, isApplication,
      isResult⟩ := isRead
    cases isResult
    have sizedIn : ∀ field ∈ [base, parent, children, locations, policies, enrichers, application],
        node.Sized → ∀ part, field = some part → part.Sized :=
      fun field member isSized part isField =>
        readFields_sized areFields isSized part (isField ▸ member)
    obtain ⟨part, isBase, commonRead⟩ := required_eq_some isCommon
    obtain ⟨regular, commonWithin⟩ := within_of_readCommon commonRead
    refine ⟨regular, within_record (entityNode_eq _) ["base", "parentId", "childrenIds",
      "locationIds", "policyIds", "enricherIds", "applicationId"] rfl (by decide)
      fun name content member => ?_⟩
    simp only [List.mem_cons, Prod.mk.injEq, Option.some.injEq, List.not_mem_nil, or_false]
      at member
    rcases member with ⟨-, rfl⟩ | ⟨-, same⟩ | ⟨-, rfl⟩ | ⟨-, rfl⟩ | ⟨-, rfl⟩ | ⟨-, rfl⟩ | ⟨-, same⟩
    · exact commonWithin.imp fun isSized => sizedIn base (by simp) isSized part isBase
    · exact within_nullable (sizedIn parent (by simp)) isParent content same.symm
    · exact within_texts (sizedIn children (by simp)) areChildren
    · exact within_texts (sizedIn locations (by simp)) areLocations
    · exact within_texts (sizedIn policies (by simp)) arePolicies
    · exact within_texts (sizedIn enrichers (by simp)) areEnrichers
    · exact within_nullable (sizedIn application (by simp)) isApplication content same.symm
  · cases isRead

theorem within_of_readLocation {memento : LocationMemento Datum}
    (isRead : readLocation format (limit + 3) node = some memento) :
    memento.Regular True ∧
      Within (.encoded format) (limit + 3) node.Sized (locationNode memento) := by
  simp only [readLocation, Option.bind_eq_bind, Option.bind_eq_some_iff] at isRead
  obtain ⟨fields, areFields, isRead⟩ := isRead
  split at isRead
  · rename_i base parent children
    simp only [Option.bind_eq_some_iff] at isRead
    obtain ⟨common, isCommon, parentId, isParent, childIds, areChildren, isResult⟩ := isRead
    cases isResult
    have sizedIn : ∀ field ∈ [base, parent, children],
        node.Sized → ∀ part, field = some part → part.Sized :=
      fun field member isSized part isField =>
        readFields_sized areFields isSized part (isField ▸ member)
    obtain ⟨part, isBase, commonRead⟩ := required_eq_some isCommon
    obtain ⟨regular, commonWithin⟩ := within_of_readCommon commonRead
    refine ⟨regular, within_record (locationNode_eq _) ["base", "parentId", "childrenIds"] rfl
      (by decide) fun name content member => ?_⟩
    simp only [List.mem_cons, Prod.mk.injEq, Option.some.injEq, List.not_mem_nil, or_false]
      at member
    rcases member with ⟨-, rfl⟩ | ⟨-, same⟩ | ⟨-, rfl⟩
    · exact commonWithin.imp fun isSized => sizedIn base (by simp) isSized part isBase
    · exact within_nullable (sizedIn parent (by simp)) isParent content same.symm
    · exact within_texts (sizedIn children (by simp)) areChildren
  · cases isRead

theorem within_of_readPolicy {memento : PolicyMemento Datum}
    (isRead : readPolicy format (limit + 3) node = some memento) :
    memento.Regular True ∧
      Within (.encoded format) (limit + 3) node.Sized (policyNode memento) := by
  simp only [readPolicy, Option.bind_eq_bind, Option.bind_eq_some_iff] at isRead
  obtain ⟨fields, areFields, isRead⟩ := isRead
  split at isRead
  · rename_i base flags
    simp only [Option.bind_eq_some_iff] at isRead
    obtain ⟨common, isCommon, flagTable, areFlags, isResult⟩ := isRead
    cases isResult
    have sizedIn : ∀ field ∈ [base, flags],
        node.Sized → ∀ part, field = some part → part.Sized :=
      fun field member isSized part isField =>
        readFields_sized areFields isSized part (isField ▸ member)
    obtain ⟨part, isBase, commonRead⟩ := required_eq_some isCommon
    obtain ⟨commonRegular, commonWithin⟩ := within_of_readCommon commonRead
    obtain ⟨flagsRegular, flagsWithin⟩ := within_tableField (sizedIn flags (by simp)) areFlags
    refine ⟨⟨commonRegular, flagsRegular⟩, within_record (policyNode_eq _) ["base", "flags"] rfl
      (by decide) fun name content member => ?_⟩
    simp only [List.mem_cons, Prod.mk.injEq, Option.some.injEq, List.not_mem_nil, or_false]
      at member
    rcases member with ⟨-, rfl⟩ | ⟨-, rfl⟩
    · exact commonWithin.imp fun isSized => sizedIn base (by simp) isSized part isBase
    · exact flagsWithin
  · cases isRead

/-- The records of a document that was read. -/
structure WithinRecords (source : Source) (limit : Nat) (sized : Prop) (content : Delta Datum) :
    Prop where
  regular : content.Regular True
  fits : sized → FittingRecords content
  legible : source ≠ .encoded .messagePack → LegibleRecords limit content

/-- Every record of a list that is read, or that stands for a missing one. -/
private theorem records_of_readList {α : Type} {read : Nat → Node → Option α} {print : α → Node}
    {regular : α → Prop} {field : Option Node} {records : List α}
    (each : ∀ part record, read limit part = some record →
      regular record ∧ Within source limit part.Sized (print record))
    (fieldSized : sized → ∀ part, field = some part → part.Sized)
    (areRecords : orElse [] (readList source read (limit + 1)) field = some records) :
    (∀ record ∈ records, regular record) ∧ (sized → ∀ record ∈ records, (print record).Fits) ∧
      (source ≠ .encoded .messagePack → ∀ record ∈ records, (print record).legible limit = true) := by
  rcases orElse_eq_some areRecords with ⟨-, rfl⟩ | ⟨part, isField, areRead⟩
  · simp
  · have within : Within source (limit + 1) part.Sized (.list (records.map print)) :=
      within_list (fun inner item record isLimit found => by
        cases isLimit
        exact (each item record found).2) areRead
    refine ⟨forall_of_readList (fun inner item record isLimit found => by
      cases isLimit
      exact (each item record found).1) areRead, fun isSized => ?_, fun notPacked => ?_⟩
    · exact fits_list (within.fits (fieldSized isSized part isField))
    · exact legible_list (within.legible notPacked)

/-- The records of a document that is read are regular and within the limits of the reader. -/
theorem withinRecords_of_ofNode? {document : Document}
    (isRead : ofNode? format (limit + 5) node = some document) :
    WithinRecords (.encoded format) (limit + 3) node.Sized document.content := by
  simp only [ofNode?, Option.bind_eq_bind, Option.bind_eq_some_iff] at isRead
  obtain ⟨fields, areFields, isRead⟩ := isRead
  split at isRead
  · rename_i version kind createdAt entities locations policies removedEntities removedLocations
      removedPolicies
    simp only [Option.bind_eq_some_iff] at isRead
    obtain ⟨_, -, _, -, _, -, entityList, areEntities, locationList, areLocations, policyList,
      arePolicies, entityIds, areEntityIds, locationIds, areLocationIds, policyIds, arePolicyIds,
      isResult⟩ := isRead
    cases isResult
    have sizedIn : ∀ field ∈ [version, kind, createdAt, entities, locations, policies,
        removedEntities, removedLocations, removedPolicies],
        node.Sized → ∀ part, field = some part → part.Sized :=
      fun field member isSized part isField =>
        readFields_sized areFields isSized part (isField ▸ member)
    obtain ⟨entitiesRegular, entitiesFit, entitiesLegible⟩ := records_of_readList
      (fun _ _ => within_of_readEntity) (sizedIn entities (by simp)) areEntities
    obtain ⟨locationsRegular, locationsFit, locationsLegible⟩ := records_of_readList
      (fun _ _ => within_of_readLocation) (sizedIn locations (by simp)) areLocations
    obtain ⟨policiesRegular, policiesFit, policiesLegible⟩ := records_of_readList
      (fun _ _ => within_of_readPolicy) (sizedIn policies (by simp)) arePolicies
    exact {
      regular := {
        entities := entitiesRegular
        locations := locationsRegular
        policies := policiesRegular
        removedEntities := (within_ids (sizedIn removedEntities (by simp)) areEntityIds).1
        removedLocations := (within_ids (sizedIn removedLocations (by simp)) areLocationIds).1
        removedPolicies := (within_ids (sizedIn removedPolicies (by simp)) arePolicyIds).1 }
      fits := fun isSized => ⟨entitiesFit isSized, locationsFit isSized, policiesFit isSized⟩
      legible := fun notPacked =>
        ⟨entitiesLegible notPacked, locationsLegible notPacked, policiesLegible notPacked⟩ }
  · cases isRead

end Records

end GraphCheckpoint.Document
