import GraphCheckpoint.Proofs.Store.File

/-!
Contract: texts whose length four bytes cannot count.

Owns:
- that a document in MessagePack is too long where a display name in it is;
- that a store in MessagePack lists no id that is too long;
- `longText`, a text of 2^32 bytes;
- a delta and a graph that carry any text, and what is known of their documents.

Does not own: what becomes of requests.

A frame of the journal counts its bytes in four, and so does MessagePack those of a text. The journal
refuses what it cannot count, and a writer of documents does not ask.
-/

namespace GraphCheckpoint

open GraphCheckpoint.Encoding

namespace Encoding.Settings

variable {settings : Settings} {document : Document}

/-- A display name that four bytes cannot count makes its document as long. -/
theorem le_length_encodeDocument (isFormat : settings.format = .messagePack)
    {memento : EntityMemento Datum} (member : memento ∈ document.content.entities) {name : String}
    (isName : memento.common.displayName = some name)
    (long : Node.lengthBound ≤ (bytesOfText name).length) :
    Node.lengthBound ≤ (settings.encodeDocument document).length := by
  by_contra short
  have fits := fits_of_length_encodeDocument (Nat.not_le.mp short) isFormat
  have entityFits := (Document.fittingRecords_of_toNode fits).entities memento member
  have shortName := (Document.short_of_fits (Document.fits_commonNode entityFits)).2 name isName
  exact absurd long (Nat.not_le.mpr shortName)

end Encoding.Settings

namespace Store

/-- A store in MessagePack lists no id whose length four bytes cannot count, whatever its files
hold. -/
theorem FileStore.short_of_storedIds {store : FileStore} {disk : Disk}
    (isFormat : store.settings.format = .messagePack)
    {entities locations policies : List String}
    (lists : store.storedIds disk = .ok (entities, locations, policies)) :
    ∀ id ∈ entities ++ locations ++ policies, (bytesOfText id).length < Node.lengthBound := by
  unfold storedIds at lists
  cases folds : store.fold disk with
  | error failure =>
      rw [folds] at lists
      cases lists
  | ok graph =>
      rw [folds] at lists
      cases lists
      exact (decoded_fold folds).short_keys isFormat

/-! ## A long text -/

theorem length_bytesOfText_replicate (count : Nat) :
    (bytesOfText (String.ofList (List.replicate count 'a'))).length = count := by
  have oneByte : (String.utf8EncodeChar 'a').length = 1 := rfl
  rw [bytesOfText_ofList, List.length_flatMap, List.map_replicate, oneByte, List.sum_replicate_nat,
    Nat.mul_one]

/-- A text that is too long by one byte. -/
def longText : String := String.ofList (List.replicate frameBound 'a')

theorem length_longText : (bytesOfText longText).length = frameBound :=
  length_bytesOfText_replicate frameBound

/-! ## Requests that carry a text -/

/-- A store in MessagePack that never folds its journal by itself. -/
def longOptions : StoreOptions := ⟨.sync, 0, ⟨.messagePack, .empty⟩⟩

section

variable {V : Type}

/-- Brings an entity under a display name, and removes some. -/
def naming (name : String) (removed : IdSet) : Delta V :=
  ⟨[EntityMemento.mapCommon (fun common => { common with displayName := some name })
    (EntityMemento.blank "a" "App")], [], [], removed, [], []⟩

/-- One entity under an id. -/
def single (id : String) : Graph V := ⟨[(id, EntityMemento.blank id "App")], [], []⟩

end

theorem ids_naming {V : Type} (name : String) :
    (Graph.empty.apply (naming name [] : Delta V)).ids = (["a"], [], []) := rfl

variable {floats : Prop}

theorem regular_naming (name : String) {removed : IdSet} (ordered : List.Pairwise (· < ·) removed) :
    (naming name removed : Delta LiveValue).Regular floats := by
  refine ⟨?_, nofun, nofun, ordered, .nil, .nil⟩
  intro memento member
  rw [List.mem_singleton.mp member]
  exact ⟨⟨.nil, trivial⟩, ⟨.nil, trivial⟩, .nil⟩

theorem regular_single (id : String) : (single id : Graph LiveValue).Regular floats := by
  refine ⟨?_, nofun, nofun, List.pairwise_singleton _ _, .nil, .nil⟩
  intro entry member
  rw [List.mem_singleton.mp member]
  exact ⟨rfl, ⟨.nil, trivial⟩, ⟨.nil, trivial⟩, .nil⟩

theorem nested_single (id : String) (document : Document)
    (isDocument : longOptions.settings.checkpointDocument .empty 0 (single id) = .ok document) :
    document.toNode.legible 1023 = true := by
  cases isDocument
  rfl

/-- The document of a delta with the long name has no frame. -/
theorem long_naming (removed : IdSet) :
    frameBound ≤ (longOptions.settings.encodeDocument
      (longOptions.settings.documentOfDelta 0 (naming longText removed))).length :=
  Settings.le_length_encodeDocument rfl (List.mem_singleton.mpr rfl) rfl
    (Nat.le_of_eq length_longText.symm)

end Store

end GraphCheckpoint
