import GraphCheckpoint.Proofs.Document.RoundTrip

/-!
Contract: which documents are read at all where they have been written.

Owns:
- for values, records and documents: a reader finds something in the written tree, with other leaves
  in place of its floats, exactly where the tree is legible and every such leaf is a number.

Does not own: what an encoding makes of a float.

Both conditions are put into one, by marks in place of the floats.
-/

namespace GraphCheckpoint.Document

open GraphCheckpoint.Encoding

variable {replace : Binary64 → Node} {limit : Nat} {format : Format} {source : Source}

/-- Something is read where a float was. -/
def floatRead (replace : Binary64 → Node) (number : Binary64) : Bool :=
  (readFloat (replace number)).isSome

/-- The tree with marks at the floats that are not read. -/
abbrev marked (replace : Binary64 → Node) (node : Node) : Node :=
  node.withFloats (Node.mark (floatRead replace))

/-- Whether a result is found in two steps, where this does not depend on what the first finds. -/
theorem isSome_bind {α β : Type} {first : Option α} {next : α → Option β} {found : Bool}
    (second : ∀ result, (next result).isSome = found) :
    (first.bind next).isSome = (first.isSome && found) := by
  cases first with
  | none => rfl
  | some result => exact (second result).trans (Bool.true_and _).symm

/-- The last step puts together what has been found. -/
theorem isSome_bind_some {α β : Type} {first : Option α} {combine : α → β} :
    (first.bind fun result => some (combine result)).isSome = first.isSome := by
  cases first <;> rfl

/-! ## Records and lists -/

theorem withFloats_record (fields : List (String × Option Node)) :
    (Node.record (presentFields fields)).withFloats replace =
      .record (presentFields (fields.map fun field =>
        (field.1, field.2.map (Node.withFloats replace)))) := by
  have entries : Node.withFloatsEntries replace
      ((presentFields fields).map fun entry => (Node.text entry.1, entry.2)) =
        (presentFields (fields.map fun field =>
          (field.1, field.2.map (Node.withFloats replace)))).map fun entry =>
            (Node.text entry.1, entry.2) := by
    induction fields with
    | nil => rfl
    | cons field rest inductionHypothesis =>
        obtain ⟨name, content?⟩ := field
        cases content? with
        | none => exact inductionHypothesis
        | some content => exact congrArg _ inductionHypothesis
  exact congrArg Node.map entries

/-- A record is legible where the fields that are there are, one container deeper. -/
theorem legible_presentFields (fields : List (String × Option Node)) :
    (Node.record (presentFields fields)).legible (limit + 1) =
      fields.all fun field => field.2.all (Node.legible limit) := by
  change Node.legibleEntries limit _ = _
  induction fields with
  | nil => rfl
  | cons field rest inductionHypothesis =>
      obtain ⟨name, content?⟩ := field
      cases content? with
      | none => exact inductionHypothesis
      | some content =>
          rw [presentFields_some, List.map_cons, Node.legibleEntries, inductionHypothesis]
          rfl

theorem isSome_readList {α : Type} {read : Nat → Node → Option α} {print : α → Node}
    {items : List α}
    (each : ∀ item ∈ items, ∀ limit, (read limit ((print item).withFloats replace)).isSome =
      (marked replace (print item)).legible limit) :
    (readList source read limit ((Node.list (items.map print)).withFloats replace)).isSome =
      (marked replace (.list (items.map print))).legible limit := by
  cases limit with
  | zero => rfl
  | succ inner =>
      change ((Node.withFloatsItems replace (items.map print)).mapM (read inner)).isSome =
        Node.legibleItems inner (Node.withFloatsItems (Node.mark (floatRead replace)) (items.map print))
      induction items with
      | nil => rfl
      | cons item rest inductionHypothesis =>
          have others := inductionHypothesis fun other member => each other (by simp [member])
          rw [List.map_cons, Node.withFloatsItems, List.mapM_cons, Node.withFloatsItems,
            Node.legibleItems, ← others, ← each item (by simp) inner]
          exact isSome_bind fun _ => isSome_bind_some

theorem isSome_readTexts (texts : List String) :
    (readTexts source limit ((textNodes texts).withFloats replace)).isSome =
      (marked replace (textNodes texts)).legible limit :=
  isSome_readList fun _ _ _ => rfl

theorem isSome_readIdSet (ids : List String) :
    (readIdSet source limit ((textNodes ids).withFloats replace)).isSome =
      (marked replace (textNodes ids)).legible limit := by
  rw [readIdSet, Option.isSome_map, isSome_readTexts]

/-! ## Values -/

theorem legible_tagged_succ (typeName : String) (content : Node) :
    (tagged typeName content).legible (limit + 1) = content.legible limit := by
  simp [tagged, Node.record, Node.legible, Node.legibleEntries]

/-- Something is read where a tagged content was written, exactly where it is in the content. -/
private theorem isSome_tagged (typeIndex : Nat) {typeName : String} {content : Node}
    (isIndex : valueTypes.idxOf? typeName = some typeIndex)
    (isSome : ∀ inner, (readContent (.encoded format) inner (readInside inner (.encoded format))
      typeIndex (content.withFloats replace)).isSome = (marked replace content).legible inner) :
    (readValue limit (.encoded format) ((tagged typeName content).withFloats replace)).isSome =
      (marked replace (tagged typeName content)).legible limit := by
  cases limit with
  | zero => rfl
  | succ inner =>
      change (readValue (inner + 1) _ (tagged typeName (content.withFloats replace))).isSome =
        (tagged typeName (marked replace content)).legible (inner + 1)
      rw [readValue_tagged, isIndex, Option.bind_some, isSome, legible_tagged_succ]

theorem isSome_readReference (inner : Nat) (reference : Reference) :
    (readReference source inner ((referenceNode reference).withFloats replace)).isSome =
      (marked replace (referenceNode reference)).legible inner := by
  have same : ∀ other : Binary64 → Node,
      (referenceNode reference).withFloats other = referenceNode reference := by
    intro other
    rw [referenceNode_eq, withFloats_record]
    cases reference.expectedType <;> rfl
  rw [marked, same, same]
  cases inner with
  | zero => rfl
  | succ depth =>
      rw [readReference_referenceNode, referenceNode_eq, legible_presentFields]
      cases reference.expectedType <;> rfl

mutual

theorem isSome_readValue (value : Datum) (limit : Nat) :
    (readValue limit (.encoded format) ((datumNode value).withFloats replace)).isSome =
      (marked replace (datumNode value)).legible limit := by
  match value with
  | .null =>
      match limit with
      | 0 => rfl
      | 1 => rfl
      | _ + 2 => rfl
  | .boolean flag => exact isSome_tagged 1 rfl fun _ => rfl
  | .integer number =>
      refine isSome_tagged 2 rfl fun inner => ?_
      change ((readInt64 (.ofInt number.toInt)).map Value.integer).isSome = true
      rw [readInt64_ofInt]
      rfl
  | .float number =>
      refine isSome_tagged 3 rfl fun inner => ?_
      change ((readFloat (replace number)).map Value.float).isSome =
        (Node.mark (floatRead replace) number).legible inner
      rw [Option.isSome_map, Node.mark, floatRead]
      split
      · assumption
      · rename_i notRead
        exact Bool.eq_false_iff.mpr notRead
  | .text content => exact isSome_tagged 4 rfl fun _ => rfl
  | .list items =>
      refine isSome_tagged 5 rfl fun inner => ?_
      match inner with
      | 0 => rfl
      | depth + 1 =>
          change (((Node.withFloatsItems replace (datumNodes items)).mapM
            (readValue depth (.encoded format))).map Value.list).isSome = _
          rw [Option.isSome_map]
          exact isSome_mapM_datumNodes items depth
  | .map entries =>
      refine isSome_tagged 6 rfl fun inner => ?_
      match inner with
      | 0 => rfl
      | depth + 1 =>
          refine (Option.isSome_map).trans ?_
          exact isSome_bind_some.trans (isSome_mapM_datumEntries entries depth)
  | .entity target =>
      refine isSome_tagged 7 rfl fun inner => ?_
      exact Option.isSome_map.trans (isSome_readReference inner target)
  | .location target =>
      refine isSome_tagged 8 rfl fun inner => ?_
      exact Option.isSome_map.trans (isSome_readReference inner target)

theorem isSome_mapM_datumNodes (items : List Datum) (limit : Nat) :
    ((Node.withFloatsItems replace (datumNodes items)).mapM
        (readValue limit (.encoded format))).isSome =
      Node.legibleItems limit
        (Node.withFloatsItems (Node.mark (floatRead replace)) (datumNodes items)) := by
  match items with
  | [] => rfl
  | item :: rest =>
      rw [datumNodes, Node.withFloatsItems, List.mapM_cons, Node.withFloatsItems,
        Node.legibleItems, ← isSome_mapM_datumNodes rest limit, ← isSome_readValue item limit]
      exact isSome_bind fun _ => isSome_bind_some

theorem isSome_mapM_datumEntries (entries : List (String × Datum)) (limit : Nat) :
    ((Node.withFloatsEntries replace (datumEntries entries)).mapM (fun (key, value) => do
        return (← readText key, ← readValue limit (.encoded format) value))).isSome =
      Node.legibleEntries limit
        (Node.withFloatsEntries (Node.mark (floatRead replace)) (datumEntries entries)) := by
  match entries with
  | [] => rfl
  | (key, value) :: rest =>
      rw [datumEntries, Node.withFloatsEntries, List.mapM_cons, Node.withFloatsEntries,
        Node.legibleEntries, ← isSome_mapM_datumEntries rest limit, ← isSome_readValue value limit]
      refine (isSome_bind fun _ => isSome_bind_some).trans ?_
      exact congrArg (· && _) isSome_bind_some

end

theorem isSome_readTable (table : Table Datum) :
    (readTable (readDatum format) limit ((tableNode table).withFloats replace)).isSome =
      (marked replace (tableNode table)).legible limit := by
  match limit with
  | 0 => rfl
  | inner + 1 => exact isSome_bind_some.trans (isSome_mapM_datumEntries table inner)

/-! ## Records -/

theorem isSome_nullable (content : Option String) :
    (nullable readText ((content.map Node.text).map (Node.withFloats replace))).isSome = true := by
  cases content <;> rfl

theorem legible_optional (content : Option String) (other : Binary64 → Node) :
    ((content.map Node.text).map (Node.withFloats other)).all (Node.legible limit) = true := by
  cases content <;> rfl

theorem isSome_removed (ids : IdSet) :
    (orElse [] (readIdSet source limit)
        ((removedNode? ids).map (Node.withFloats replace))).isSome =
      ((removedNode? ids).map (marked replace)).all (Node.legible limit) := by
  cases ids with
  | nil => rfl
  | cons id rest => exact isSome_readIdSet (id :: rest)

/-- The fields of a record with other leaves for its floats. -/
theorem readFields_withFloats (source : Source) (replace : Binary64 → Node) (limit : Nat)
    (names : List String) {node : Node}
    {fields : List (String × Option Node)} (isRecord : node = .record (presentFields fields))
    (named : fields.map Prod.fst = names) (unique : names.Nodup) :
    readFields source names limit (node.withFloats replace) =
      some (fields.map fun field => field.2.map (Node.withFloats replace)) := by
  rw [isRecord, withFloats_record]
  refine (readFields_record source limit names rfl ?_ unique).trans ?_
  · rw [List.map_map, ← named]
    rfl
  · rw [List.map_map]
    rfl

theorem legible_marked_record {node : Node} {fields : List (String × Option Node)}
    (isRecord : node = .record (presentFields fields)) :
    (marked replace node).legible (limit + 1) =
      fields.all fun field => (field.2.map (marked replace)).all (Node.legible limit) := by
  rw [isRecord, marked, withFloats_record, legible_presentFields, List.all_map]
  rfl

theorem isSome_readCommon (common : Common Datum) :
    (readCommon format limit ((commonNode common).withFloats replace)).isSome =
      (marked replace (commonNode common)).legible limit := by
  match limit with
  | 0 =>
      rw [commonNode_eq]
      rfl
  | inner + 1 =>
      have read := readFields_withFloats (.encoded format) replace inner
        ["id", "type", "displayName", "config", "attributes", "tags"] (commonNode_eq common) rfl
        (by decide)
      rw [legible_marked_record (commonNode_eq common)]
      simp only [List.map_cons, List.map_nil] at read
      simp only [readCommon, read, Option.bind_eq_bind, Option.bind_some]
      refine (isSome_bind fun _ => isSome_bind fun _ => isSome_bind fun _ => isSome_bind fun _ =>
        isSome_bind fun _ => isSome_bind_some).trans ?_
      simp only [Option.map_some, Node.withFloats, required, readText, Option.isSome_some,
        isSome_nullable, orElse, isSome_readTable, isSome_readIdSet, List.all_cons, List.all_nil,
        legible_optional, Option.all_some, Node.legible, Bool.true_and, Bool.and_true]

theorem isSome_readEntity (memento : EntityMemento Datum) :
    (readEntity format limit ((entityNode memento).withFloats replace)).isSome =
      (marked replace (entityNode memento)).legible limit := by
  match limit with
  | 0 =>
      rw [entityNode_eq]
      rfl
  | inner + 1 =>
      have read := readFields_withFloats (.encoded format) replace inner
        ["base", "parentId", "childrenIds", "locationIds", "policyIds", "enricherIds",
          "applicationId"] (entityNode_eq memento) rfl (by decide)
      rw [legible_marked_record (entityNode_eq memento)]
      simp only [List.map_cons, List.map_nil] at read
      simp only [readEntity, read, Option.bind_eq_bind, Option.bind_some]
      refine (isSome_bind fun _ => isSome_bind fun _ => isSome_bind fun _ => isSome_bind fun _ =>
        isSome_bind fun _ => isSome_bind fun _ => isSome_bind_some).trans ?_
      simp only [Option.map_some, required, isSome_nullable, orElse, isSome_readCommon,
        isSome_readTexts, List.all_cons, List.all_nil, legible_optional, Option.all_some,
        Bool.true_and, Bool.and_true]

theorem isSome_readLocation (memento : LocationMemento Datum) :
    (readLocation format limit ((locationNode memento).withFloats replace)).isSome =
      (marked replace (locationNode memento)).legible limit := by
  match limit with
  | 0 =>
      rw [locationNode_eq]
      rfl
  | inner + 1 =>
      have read := readFields_withFloats (.encoded format) replace inner
        ["base", "parentId", "childrenIds"] (locationNode_eq memento) rfl (by decide)
      rw [legible_marked_record (locationNode_eq memento)]
      simp only [List.map_cons, List.map_nil] at read
      simp only [readLocation, read, Option.bind_eq_bind, Option.bind_some]
      refine (isSome_bind fun _ => isSome_bind fun _ => isSome_bind_some).trans ?_
      simp only [Option.map_some, required, isSome_nullable, orElse, isSome_readCommon,
        isSome_readTexts, List.all_cons, List.all_nil, legible_optional, Option.all_some,
        Bool.true_and, Bool.and_true]

theorem isSome_readPolicy (memento : PolicyMemento Datum) :
    (readPolicy format limit ((policyNode memento).withFloats replace)).isSome =
      (marked replace (policyNode memento)).legible limit := by
  match limit with
  | 0 => rfl
  | inner + 1 =>
      have read := readFields_withFloats (.encoded format) replace inner
        ["base", "flags"] (policyNode_eq memento) rfl (by decide)
      rw [legible_marked_record (policyNode_eq memento)]
      simp only [List.map_cons, List.map_nil] at read
      simp only [readPolicy, read, Option.bind_eq_bind, Option.bind_some]
      refine (isSome_bind fun _ => isSome_bind_some).trans ?_
      simp only [Option.map_some, required, orElse, isSome_readCommon, isSome_readTable,
        List.all_cons, List.all_nil, Option.all_some, Bool.and_true]

/-! ## Documents -/

/-- Of a known version, a document is read where its tree with marks is legible. -/
theorem isSome_ofNode? {document : Document} (known : document.formatVersion ≤ newestVersion) :
    (ofNode? format limit (document.toNode.withFloats replace)).isSome =
      (marked replace document.toNode).legible limit := by
  match limit with
  | 0 =>
      rw [toNode_eq]
      rfl
  | inner + 1 =>
      have read := readFields_withFloats (.encoded format) replace inner
        fieldNames (toNode_eq document) rfl (by decide)
      have version : readInteger 0 65535 (.ofInt document.formatVersion) =
          some (document.formatVersion : Int) := by
        have small : document.formatVersion ≤ 1 := known
        rw [Node.ofInt, readInteger, if_pos (by omega)]
      have leaf : ∀ (number : Int) (other : Binary64 → Node),
          (Node.ofInt number).withFloats other = .ofInt number := fun _ _ => rfl
      rw [legible_marked_record (toNode_eq document)]
      simp only [List.map_cons, List.map_nil] at read
      simp only [ofNode?, read, Option.bind_eq_bind, Option.bind_some]
      refine (isSome_bind fun _ => isSome_bind fun _ => isSome_bind fun _ => isSome_bind fun _ =>
        isSome_bind fun _ => isSome_bind fun _ => isSome_bind fun _ => isSome_bind fun _ =>
          isSome_bind_some).trans ?_
      have entities : (readList (.encoded format) (readEntity format) inner ((Node.list
          (document.content.entities.map entityNode)).withFloats replace)).isSome =
          (marked replace (.list (document.content.entities.map entityNode))).legible inner :=
        isSome_readList fun memento _ _ => isSome_readEntity memento
      have locations : (readList (.encoded format) (readLocation format) inner ((Node.list
          (document.content.locations.map locationNode)).withFloats replace)).isSome =
          (marked replace (.list (document.content.locations.map locationNode))).legible inner :=
        isSome_readList fun memento _ _ => isSome_readLocation memento
      have policies : (readList (.encoded format) (readPolicy format) inner ((Node.list
          (document.content.policies.map policyNode)).withFloats replace)).isSome =
          (marked replace (.list (document.content.policies.map policyNode))).legible inner :=
        isSome_readList fun memento _ _ => isSome_readPolicy memento
      have kind : (readKind format inner ((Node.text (kindName document.kind)).withFloats
          replace)).isSome = true := by
        cases document.kind <;> rfl
      rw [isSome_removed, isSome_removed, isSome_removed]
      simp only [Option.map_some, required, leaf, version, kind, readInt64_ofInt,
        Option.isSome_some, orElse, entities, locations, policies, List.all_cons, List.all_nil,
        Option.all_some, Bool.true_and, Bool.and_true]
      rfl

end GraphCheckpoint.Document
