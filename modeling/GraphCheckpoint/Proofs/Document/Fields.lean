import GraphCheckpoint.Document.Printer
import GraphCheckpoint.Document.Reader
import GraphCheckpoint.Proofs.Table

/-!
Contract: the fields of a record, read back from the tree in which they are written.

Owns:
- `presentFields`, the fields of a record that are written;
- that reading the fields of a record finds each one, and those that were left out missing;
- texts, sets of ids and optional texts, read back from their fields.

Does not own: which records there are.
-/

namespace GraphCheckpoint.Document

open GraphCheckpoint.Encoding

/-! ## Fields by position -/

/-- The fields that are written, of all fields of a record in order. -/
def presentFields (fields : List (String × Option Node)) : List (String × Node) :=
  fields.filterMap fun field => field.2.map fun node => (field.1, node)

theorem presentFields_some (name : String) (node : Node) (rest : List (String × Option Node)) :
    presentFields ((name, some node) :: rest) = (name, node) :: presentFields rest := rfl

theorem presentFields_none (name : String) (rest : List (String × Option Node)) :
    presentFields ((name, none) :: rest) = presentFields rest := rfl

theorem presentFields_optional (name : String) (content : Option String)
    (rest : List (String × Option Node)) :
    presentFields ((name, content.map Node.text) :: rest) =
      optionalField name content ++ presentFields rest := by
  cases content <;> rfl

/-- A set of removed ids is left out where it is empty. -/
def removedNode? (ids : IdSet) : Option Node := if ids.isEmpty then none else some (textNodes ids)

theorem presentFields_removed (name : String) (ids : IdSet)
    (rest : List (String × Option Node)) :
    presentFields ((name, removedNode? ids) :: rest) =
      removedField name ids ++ presentFields rest := by
  cases ids <;> rfl

private theorem idxOf?_append_cons {before : List String} {name : String} (after : List String)
    (fresh : name ∉ before) : (before ++ name :: after).idxOf? name = some before.length := by
  induction before with
  | nil => simp [List.idxOf?, List.findIdx?_cons]
  | cons first rest inductionHypothesis =>
      have differs : first ≠ name := fun same => fresh (by simp [same])
      have later := inductionHypothesis fun member => fresh (by simp [member])
      rw [List.cons_append, List.idxOf?_cons, if_neg (by simpa using differs), later]
      rfl

/-- Reading from the middle of a record: the fields before have been found, those behind are still
open. -/
private theorem foldlM_presentFields (source : Source) (limit : Nat)
    (before after : List (String × Option Node))
    (unique : ((before ++ after).map Prod.fst).Nodup) :
    ((presentFields after).map fun entry => (Node.text entry.1, entry.2)).foldlM
        (fun found (key, value) => do
          match ← nameIndex? source ((before ++ after).map Prod.fst) key with
          | none => if source.passesOver limit value then some found else none
          | some index =>
              match found[index]? with
              | some none => some (found.set index (some value))
              | _ => none)
        (before.map Prod.snd ++ List.replicate after.length none) =
      some ((before ++ after).map Prod.snd) := by
  induction after generalizing before with
  | nil => simp [presentFields]
  | cons field rest inductionHypothesis =>
      obtain ⟨name, node?⟩ := field
      have regrouped : before ++ (name, node?) :: rest = (before ++ [(name, node?)]) ++ rest := by
        simp
      have later := inductionHypothesis (before ++ [(name, node?)]) (regrouped ▸ unique)
      cases node? with
      | none =>
          rw [presentFields_none, regrouped]
          simpa [List.replicate_succ] using later
      | some node =>
          have fresh : name ∉ before.map Prod.fst := by
            rw [List.map_append, List.map_cons] at unique
            have apart := (List.nodup_append.mp unique).2.2
            exact fun member => apart name member name (by simp) rfl
          have position := idxOf?_append_cons (rest.map Prod.fst) fresh
          rw [List.length_map] at position
          rw [presentFields_some, List.map_cons, List.foldlM_cons]
          have found : nameIndex? source ((before ++ (name, some node) :: rest).map Prod.fst)
              (.text name) = some (some before.length) := by
            rw [nameIndex?, List.map_append, List.map_cons, position]
          have isOpen : (before.map Prod.snd ++
              List.replicate ((name, some node) :: rest).length (none : Option Node))[before.length]? =
                some none := by
            simp
          have filled : (before.map Prod.snd ++
              List.replicate ((name, some node) :: rest).length (none : Option Node)).set
                before.length (some node) =
              (before ++ [(name, some node)]).map Prod.snd ++ List.replicate rest.length none := by
            simp [List.replicate_succ]
          simp only [found, isOpen, filled, Option.bind_eq_bind, Option.bind_some]
          rw [regrouped]
          exact later

/-- Reading the fields of a record finds each of them under its name, and those that were not
written missing. -/
theorem readFields_record (source : Source) (limit : Nat) (names : List String) {node : Node}
    {fields : List (String × Option Node)} (isRecord : node = .record (presentFields fields))
    (named : fields.map Prod.fst = names) (unique : names.Nodup) :
    readFields source names limit node = some (fields.map Prod.snd) := by
  subst isRecord named
  have read := foldlM_presentFields source limit [] fields unique
  rw [Node.record, readFields, List.length_map]
  exact read

/-- The contents of the fields of a legible record are legible one container deeper. -/
theorem legible_record {limit : Nat} {node : Node} {fields : List (String × Option Node)}
    (isRecord : node = .record (presentFields fields)) (legible : node.legible limit = true) :
    ∃ inner, limit = inner + 1 ∧
      ∀ name content, (name, some content) ∈ fields → content.legible inner = true := by
  subst isRecord
  cases limit with
  | zero => cases legible
  | succ inner =>
      refine ⟨inner, rfl, ?_⟩
      change Node.legibleEntries inner _ = true at legible
      induction fields with
      | nil => simp
      | cons field rest inductionHypothesis =>
          obtain ⟨first, node?⟩ := field
          intro name content member
          cases node? with
          | none =>
              rw [presentFields_none] at legible
              exact inductionHypothesis legible name content (by simpa using member)
          | some node =>
              rw [presentFields_some, List.map_cons] at legible
              simp only [Node.legibleEntries, Bool.and_eq_true] at legible
              rcases List.mem_cons.mp member with isFirst | later
              · cases isFirst
                exact legible.1.2
              · exact inductionHypothesis legible.2 name content later

/-! ## Contents of fields -/

theorem readList_map {α : Type} (source : Source) {read : Nat → Node → Option α} {limit : Nat}
    {print : α → Node} {items : List α} (legible : (Node.list (items.map print)).legible limit = true)
    (isRead : ∀ item ∈ items, ∀ inner, (print item).legible inner = true →
      read inner (print item) = some item) :
    readList source read limit (.list (items.map print)) = some items := by
  cases limit with
  | zero => cases legible
  | succ inner =>
      change Node.legibleItems inner (items.map print) = true at legible
      rw [readList]
      induction items with
      | nil => rfl
      | cons item rest inductionHypothesis =>
          simp only [List.map_cons, Node.legibleItems, Bool.and_eq_true] at legible
          rw [List.map_cons, List.mapM_cons, isRead item (by simp) inner legible.1,
            inductionHypothesis (fun item member => isRead item (by simp [member])) legible.2]
          rfl

theorem readTexts_textNodes (source : Source) {limit : Nat} {texts : List String}
    (legible : (textNodes texts).legible limit = true) :
    readTexts source limit (textNodes texts) = some texts :=
  readList_map source legible fun _ _ _ _ => rfl

theorem readIdSet_textNodes (source : Source) {limit : Nat} {ids : IdSet}
    (ascending : List.Pairwise (· < ·) ids) (legible : (textNodes ids).legible limit = true) :
    readIdSet source limit (textNodes ids) = some ids := by
  rw [readIdSet, readTexts_textNodes source legible, Option.map_some,
    IdSet.ofList_of_ascending ascending]

theorem orElse_removedNode? (source : Source) {limit : Nat} {ids : IdSet}
    (ascending : List.Pairwise (· < ·) ids)
    (legible : ∀ node, removedNode? ids = some node → node.legible limit = true) :
    orElse [] (readIdSet source limit) (removedNode? ids) = some ids := by
  cases ids with
  | nil => rfl
  | cons id rest => exact readIdSet_textNodes source ascending (legible _ rfl)

theorem nullable_text (content : Option String) :
    nullable readText (content.map Node.text) = some content := by
  cases content <;> rfl

end GraphCheckpoint.Document
