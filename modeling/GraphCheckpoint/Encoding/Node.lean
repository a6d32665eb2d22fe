import GraphCheckpoint.Binary64

/-!
Contract: documents as trees, whatever their bytes look like.

Owns:
- `Node`, what either encoding can say, and the forms in which it writes integers;
- the parts of a tree that only a lenient reader accepts, and the count of nested containers.

Does not own: bytes, or what a document means.
-/

namespace GraphCheckpoint.Encoding

/-- Bytes of a document. -/
abbrev Bytes := List UInt8

/-- The text of bytes that are valid UTF-8. -/
def textOfBytes? (bytes : Bytes) : Option String :=
  String.fromUTF8? (ByteArray.mk bytes.toArray)

/-- The UTF-8 bytes of a text. -/
def bytesOfText (text : String) : Bytes := text.toUTF8.data.toList

/-- How an integer is written: without a sign in a number of bytes, or with a sign. -/
inductive IntegerForm where
  | unsigned (width : Nat)
  | signed
deriving DecidableEq, Repr, Inhabited

/-- The shortest form of an integer, with a sign only where it is negative. -/
def IntegerForm.shortest (number : Int) : IntegerForm :=
  if number < 0 then .signed
  else if number < 0x100 then .unsigned 1
  else if number < 0x10000 then .unsigned 2
  else if number < 0x100000000 then .unsigned 4
  else .unsigned 8

/-- A document, or a part of one. Keys of a map need not be texts, or different. -/
inductive Node where
  | null
  | boolean (flag : Bool)
  | integer (form : IntegerForm) (number : Int)
  | float (number : Binary64)
  | text (content : String)
  | bytes (content : Bytes)
  | list (items : List Node)
  | map (entries : List (Node × Node))
  /-- Data of an application's own sort, which no document uses. -/
  | extension
  /-- A text whose bytes are not UTF-8, in an encoding that gives its length beforehand. -/
  | brokenText
  /-- A text or number in the right form without a value: broken UTF-8, or a size out of range. -/
  | illegible
deriving Inhabited

namespace Node

/-- An integer in its shortest form, which is also that of every integer of a JSON text. -/
def ofInt (number : Int) : Node := .integer (.shortest number) number

/-- A map with texts for keys. -/
def record (entries : List (String × Node)) : Node :=
  .map (entries.map fun entry => (.text entry.1, entry.2))

mutual

/-- Nothing in the tree is illegible, and no more than the given number of containers nest. Data of
an application's own sort counts as a container. -/
def legible : Nat → Node → Bool
  | limit, .list items =>
      match limit with
      | 0 => false
      | inner + 1 => legibleItems inner items
  | limit, .map entries =>
      match limit with
      | 0 => false
      | inner + 1 => legibleEntries inner entries
  | limit, .extension => limit ≠ 0
  | _, .illegible => false
  | _, _ => true

def legibleItems : Nat → List Node → Bool
  | _, [] => true
  | limit, item :: rest => item.legible limit && legibleItems limit rest

def legibleEntries : Nat → List (Node × Node) → Bool
  | _, [] => true
  | limit, (key, value) :: rest =>
      key.legible limit && value.legible limit && legibleEntries limit rest

end

end Node

end GraphCheckpoint.Encoding
