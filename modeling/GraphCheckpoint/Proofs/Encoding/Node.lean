import GraphCheckpoint.Encoding.Settings
import GraphCheckpoint.Encoding.Node

/-!
Contract: the trees that an encoding keeps.

Owns:
- `Node.Plain`, the trees that documents have, and `Node.Fits`, those whose lengths have a form;
- `Node.Sized`, the trees of which nothing too long can be read;
- `Node.withFloats`, a tree with other leaves in place of its floats, and `Node.mark`, the leaves
  that show which floats are read;
- bytes of texts, which are texts again;
- that a tree stays legible where deeper nesting is allowed.

Does not own: the bytes of trees, or how deep readers go; for the latter there is `Node.legible`.
-/

namespace GraphCheckpoint.Encoding

theorem textOfBytes?_bytesOfText (content : String) :
    textOfBytes? (bytesOfText content) = some content := by
  rw [textOfBytes?, bytesOfText, String.toUTF8_eq_toByteArray, Array.toArray_toList,
    String.fromUTF8?, dif_pos content.isValidUTF8]
  rfl

theorem bytesOfText_ofList (letters : List Char) :
    bytesOfText (String.ofList letters) = letters.flatMap String.utf8EncodeChar := by
  rw [bytesOfText, String.toUTF8_eq_toByteArray, String.toByteArray_ofList, List.utf8Encode,
    List.toList_data_toByteArray]

/-- A text of bytes has these bytes. -/
theorem bytesOfText_of_textOfBytes? {bytes : Bytes} {content : String}
    (isText : textOfBytes? bytes = some content) : bytesOfText content = bytes := by
  unfold textOfBytes? String.fromUTF8? at isText
  split at isText
  · cases isText
    rfl
  · cases isText

theorem IntegerForm.shortest_natural (number : Nat) :
    IntegerForm.shortest number =
      if number < 0x100 then .unsigned 1
      else if number < 0x10000 then .unsigned 2
      else if number < 0x100000000 then .unsigned 4
      else .unsigned 8 := by
  have notNegative : ¬ (number : Int) < 0 := by omega
  rw [shortest, if_neg notNegative]
  have same : ∀ bound : Nat, ((number : Int) < (bound : Int)) = (number < bound) := fun bound =>
    propext Int.ofNat_lt
  exact ite_congr (same 0x100) (fun _ => rfl) fun _ =>
    ite_congr (same 0x10000) (fun _ => rfl) fun _ =>
      ite_congr (same 0x100000000) (fun _ => rfl) fun _ => rfl

namespace Node

mutual

/-- Tree as documents have them: integers in their shortest form and within 64 bits, texts for keys,
and neither byte strings nor anything that only a lenient reader accepts. JSON, which writes floats
as decimals, has none of them. -/
def Plain (format : Format) : Node → Prop
  | .null | .boolean _ | .text _ => True
  | .integer form number =>
      form = .shortest number ∧ -0x8000000000000000 ≤ number ∧ number < 0x10000000000000000
  | .float _ => format = .messagePack
  | .bytes _ | .extension | .brokenText | .illegible => False
  | .list items => PlainItems format items
  | .map entries => PlainEntries format entries

def PlainItems (format : Format) : List Node → Prop
  | [] => True
  | item :: rest => item.Plain format ∧ PlainItems format rest

def PlainEntries (format : Format) : List (Node × Node) → Prop
  | [] => True
  | (key, value) :: rest =>
      (∃ content, key = .text content) ∧ value.Plain format ∧ PlainEntries format rest

end

mutual

/-- The tree with other leaves in place of its floats. -/
def withFloats (replace : Binary64 → Node) : Node → Node
  | .null => .null
  | .boolean flag => .boolean flag
  | .integer form number => .integer form number
  | .float number => replace number
  | .text content => .text content
  | .bytes content => .bytes content
  | .list items => .list (withFloatsItems replace items)
  | .map entries => .map (withFloatsEntries replace entries)
  | .extension => .extension
  | .brokenText => .brokenText
  | .illegible => .illegible

def withFloatsItems (replace : Binary64 → Node) : List Node → List Node
  | [] => []
  | item :: rest => item.withFloats replace :: withFloatsItems replace rest

def withFloatsEntries (replace : Binary64 → Node) : List (Node × Node) → List (Node × Node)
  | [] => []
  | (key, value) :: rest =>
      (key.withFloats replace, value.withFloats replace) :: withFloatsEntries replace rest

end

mutual

/-- The floats in the tree. -/
def floats : Node → List Binary64
  | .float number => [number]
  | .list items => floatsOfItems items
  | .map entries => floatsOfEntries entries
  | _ => []

def floatsOfItems : List Node → List Binary64
  | [] => []
  | item :: rest => item.floats ++ floatsOfItems rest

def floatsOfEntries : List (Node × Node) → List Binary64
  | [] => []
  | (key, value) :: rest => key.floats ++ (value.floats ++ floatsOfEntries rest)

end

mutual

/-- A tree stays as it is where each of its floats is put in its own place. -/
theorem withFloats_of_floats {replace : Binary64 → Node} (node : Node)
    (agree : ∀ number ∈ node.floats, replace number = .float number) :
    node.withFloats replace = node := by
  match node with
  | .null | .boolean _ | .integer _ _ | .text _ | .bytes _ | .extension | .brokenText
  | .illegible => rfl
  | .float number => exact agree number List.mem_cons_self
  | .list items => exact congrArg Node.list (withFloatsItems_of_floats items agree)
  | .map entries => exact congrArg Node.map (withFloatsEntries_of_floats entries agree)

theorem withFloatsItems_of_floats {replace : Binary64 → Node} (items : List Node)
    (agree : ∀ number ∈ floatsOfItems items, replace number = .float number) :
    withFloatsItems replace items = items := by
  match items with
  | [] => rfl
  | item :: rest =>
      rw [floatsOfItems, List.forall_mem_append] at agree
      rw [withFloatsItems, withFloats_of_floats item agree.1,
        withFloatsItems_of_floats rest agree.2]

theorem withFloatsEntries_of_floats {replace : Binary64 → Node} (entries : List (Node × Node))
    (agree : ∀ number ∈ floatsOfEntries entries, replace number = .float number) :
    withFloatsEntries replace entries = entries := by
  match entries with
  | [] => rfl
  | (key, value) :: rest =>
      rw [floatsOfEntries, List.forall_mem_append, List.forall_mem_append] at agree
      rw [withFloatsEntries, withFloats_of_floats key agree.1, withFloats_of_floats value agree.2.1,
        withFloatsEntries_of_floats rest agree.2.2]

end

mutual

/-- In JSON a plain tree has no floats. -/
theorem floats_of_plain (node : Node) (plain : node.Plain .json) : node.floats = [] := by
  match node with
  | .null | .boolean _ | .integer _ _ | .text _ => rfl
  | .float _ => cases plain
  | .list items => exact floatsOfItems_of_plain items plain
  | .map entries => exact floatsOfEntries_of_plain entries plain
  | .bytes _ | .extension | .brokenText | .illegible => rfl

theorem floatsOfItems_of_plain (items : List Node) (plain : PlainItems .json items) :
    floatsOfItems items = [] := by
  match items with
  | [] => rfl
  | item :: rest =>
      rw [floatsOfItems, floats_of_plain item plain.1, floatsOfItems_of_plain rest plain.2]
      rfl

theorem floatsOfEntries_of_plain (entries : List (Node × Node))
    (plain : PlainEntries .json entries) : floatsOfEntries entries = [] := by
  match entries with
  | [] => rfl
  | (key, value) :: rest =>
      obtain ⟨⟨content, rfl⟩, valuePlain, restPlain⟩ := plain
      rw [floatsOfEntries, floats_of_plain value valuePlain, floatsOfEntries_of_plain rest restPlain]
      rfl

end

/-- What stands for a float in the tree that shows which floats are read: nothing of note where it
is, and what nobody reads where it is not. -/
def mark (isRead : Binary64 → Bool) (number : Binary64) : Node :=
  if isRead number then .null else .illegible

section Marked

variable {isRead : Binary64 → Bool}

mutual

/-- A tree with marks is legible where the tree is and all its floats are read. -/
theorem legible_withFloats_mark (node : Node) (limit : Nat) :
    (node.withFloats (mark isRead)).legible limit = true ↔
      node.legible limit = true ∧ ∀ number ∈ node.floats, isRead number = true := by
  match node with
  | .null | .boolean _ | .integer _ _ | .text _ | .bytes _ | .extension | .brokenText
  | .illegible => simp [withFloats, floats, legible]
  | .float number =>
      by_cases read : isRead number = true <;> simp [withFloats, floats, mark, legible, read]
  | .list items =>
      have inside := legibleItems_withFloats_mark items
      cases limit with
      | zero => simp [withFloats, legible]
      | succ inner => simpa [withFloats, legible, floats] using inside inner
  | .map entries =>
      have inside := legibleEntries_withFloats_mark entries
      cases limit with
      | zero => simp [withFloats, legible]
      | succ inner => simpa [withFloats, legible, floats] using inside inner

theorem legibleItems_withFloats_mark (items : List Node) (limit : Nat) :
    legibleItems limit (withFloatsItems (mark isRead) items) = true ↔
      legibleItems limit items = true ∧ ∀ number ∈ floatsOfItems items, isRead number = true := by
  match items with
  | [] => simp [withFloatsItems, floatsOfItems, legibleItems]
  | item :: rest =>
      simp only [withFloatsItems, legibleItems, floatsOfItems, Bool.and_eq_true,
        legible_withFloats_mark item, legibleItems_withFloats_mark rest, List.forall_mem_append]
      exact and_and_and_comm

theorem legibleEntries_withFloats_mark (entries : List (Node × Node)) (limit : Nat) :
    legibleEntries limit (withFloatsEntries (mark isRead) entries) = true ↔
      legibleEntries limit entries = true ∧
        ∀ number ∈ floatsOfEntries entries, isRead number = true := by
  match entries with
  | [] => simp [withFloatsEntries, floatsOfEntries, legibleEntries]
  | (key, value) :: rest =>
      simp only [withFloatsEntries, legibleEntries, floatsOfEntries, Bool.and_eq_true,
        legible_withFloats_mark key, legible_withFloats_mark value,
        legibleEntries_withFloats_mark rest, List.forall_mem_append]
      constructor
      · rintro ⟨⟨⟨keyLegible, keyRead⟩, valueLegible, valueRead⟩, restLegible, restRead⟩
        exact ⟨⟨⟨keyLegible, valueLegible⟩, restLegible⟩, keyRead, valueRead, restRead⟩
      · rintro ⟨⟨⟨keyLegible, valueLegible⟩, restLegible⟩, keyRead, valueRead, restRead⟩
        exact ⟨⟨⟨keyLegible, keyRead⟩, valueLegible, valueRead⟩, restLegible, restRead⟩

end

end Marked

/-- The longest text, list or map that MessagePack has a form for is one shorter. -/
def lengthBound : Nat := 0x100000000

mutual

/-- MessagePack has a form for all lengths in the tree. -/
def Fits : Node → Prop
  | .text content => (bytesOfText content).length < lengthBound
  | .list items => items.length < lengthBound ∧ FitsItems items
  | .map entries => entries.length < lengthBound ∧ FitsEntries entries
  | _ => True

def FitsItems : List Node → Prop
  | [] => True
  | item :: rest => item.Fits ∧ FitsItems rest

def FitsEntries : List (Node × Node) → Prop
  | [] => True
  | (key, value) :: rest => key.Fits ∧ value.Fits ∧ FitsEntries rest

end

mutual

/-- Tree that MessagePack has a form for: integers in their shortest form and within 64 bits, lengths
in four bytes, and nothing that only a reader comes upon. -/
def Exact : Node → Prop
  | .null | .boolean _ | .float _ => True
  | .integer form number =>
      form = .shortest number ∧ -0x8000000000000000 ≤ number ∧ number < 0x10000000000000000
  | .text content => (bytesOfText content).length < lengthBound
  | .bytes content => content.length < lengthBound
  | .extension | .brokenText | .illegible => False
  | .list items => items.length < lengthBound ∧ ExactItems items
  | .map entries => entries.length < lengthBound ∧ ExactEntries entries

def ExactItems : List Node → Prop
  | [] => True
  | item :: rest => item.Exact ∧ ExactItems rest

def ExactEntries : List (Node × Node) → Prop
  | [] => True
  | (key, value) :: rest => key.Exact ∧ value.Exact ∧ ExactEntries rest

end

mutual

theorem exact_of_plain (node : Node) (plain : node.Plain .messagePack) (fits : node.Fits) :
    node.Exact := by
  match node with
  | .null | .boolean _ | .float _ => exact trivial
  | .integer _ _ => exact plain
  | .text _ => exact fits
  | .list items => exact ⟨fits.1, exactItems_of_plain items plain fits.2⟩
  | .map entries => exact ⟨fits.1, exactEntries_of_plain entries plain fits.2⟩
  | .bytes _ | .extension | .brokenText | .illegible => exact plain.elim

theorem exactItems_of_plain (items : List Node) (plain : PlainItems .messagePack items)
    (fits : FitsItems items) : ExactItems items := by
  match items with
  | [] => exact trivial
  | item :: rest =>
      exact ⟨exact_of_plain item plain.1 fits.1, exactItems_of_plain rest plain.2 fits.2⟩

theorem exactEntries_of_plain (entries : List (Node × Node))
    (plain : PlainEntries .messagePack entries) (fits : FitsEntries entries) :
    ExactEntries entries := by
  match entries with
  | [] => exact trivial
  | (key, value) :: rest =>
      obtain ⟨⟨content, rfl⟩, valuePlain, restPlain⟩ := plain
      exact ⟨fits.1, exact_of_plain value valuePlain fits.2.1,
        exactEntries_of_plain rest restPlain fits.2.2⟩

end

mutual

/-- All lengths in the tree are small enough for MessagePack to have a form for what is read off
it. -/
def Sized : Node → Prop
  | .text content => (bytesOfText content).length < lengthBound
  | .bytes content => content.length < lengthBound
  | .list items => items.length < lengthBound ∧ SizedItems items
  | .map entries => entries.length < lengthBound ∧ SizedEntries entries
  | _ => True

def SizedItems : List Node → Prop
  | [] => True
  | item :: rest => item.Sized ∧ SizedItems rest

def SizedEntries : List (Node × Node) → Prop
  | [] => True
  | (key, value) :: rest => key.Sized ∧ value.Sized ∧ SizedEntries rest

end

theorem sizedItems_iff {items : List Node} : SizedItems items ↔ ∀ item ∈ items, item.Sized := by
  induction items with
  | nil => simp [SizedItems]
  | cons item rest inductionHypothesis => simp [SizedItems, inductionHypothesis]

theorem sizedEntries_iff {entries : List (Node × Node)} :
    SizedEntries entries ↔ ∀ entry ∈ entries, entry.1.Sized ∧ entry.2.Sized := by
  induction entries with
  | nil => simp [SizedEntries]
  | cons entry rest inductionHypothesis =>
      obtain ⟨key, value⟩ := entry
      simp [SizedEntries, inductionHypothesis, and_assoc]

mutual

theorem legible_succ (node : Node) (limit : Nat) (legible : node.legible limit = true) :
    node.legible (limit + 1) = true := by
  match node, limit with
  | .null, _ | .boolean _, _ | .integer _ _, _ | .float _, _ | .text _, _ | .bytes _, _
  | .brokenText, _ => rfl
  | .extension, _ => rfl
  | .list items, inner + 1 => exact legibleItems_succ items inner legible
  | .map entries, inner + 1 => exact legibleEntries_succ entries inner legible

theorem legibleItems_succ (items : List Node) (limit : Nat)
    (legible : legibleItems limit items = true) : legibleItems (limit + 1) items = true := by
  match items with
  | [] => rfl
  | item :: rest =>
      rw [legibleItems, Bool.and_eq_true] at legible ⊢
      exact ⟨legible_succ item limit legible.1, legibleItems_succ rest limit legible.2⟩

theorem legibleEntries_succ (entries : List (Node × Node)) (limit : Nat)
    (legible : legibleEntries limit entries = true) :
    legibleEntries (limit + 1) entries = true := by
  match entries with
  | [] => rfl
  | (key, value) :: rest =>
      rw [legibleEntries, Bool.and_eq_true, Bool.and_eq_true] at legible ⊢
      exact ⟨⟨legible_succ key limit legible.1.1, legible_succ value limit legible.1.2⟩,
        legibleEntries_succ rest limit legible.2⟩

end

end Node

end GraphCheckpoint.Encoding
