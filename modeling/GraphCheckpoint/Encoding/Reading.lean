import GraphCheckpoint.Encoding.Node
import GraphCheckpoint.Encoding.Settings

/-!
Contract: how records, choices, texts and tables are read from trees.

Owns:
- records as maps by field name, or as lists in the order of their fields;
- choices by name, and in the long form of a map from the name to null;
- the sources of trees, and what each admits in place of a name;
- texts, lists, sets and tables.

Does not own: which records there are.

Every reader of a container takes the number of containers that may still be opened. A field that
is not known is passed over; a field that occurs twice is refused. A reader answers `none` for a
refusal.
-/

namespace GraphCheckpoint.Encoding

/-- Where a tree comes from. -/
inductive Source where
  /-- From bytes, as they are read. -/
  | encoded (format : Format)
  /-- It was held back, since what it means was not yet known when its bytes were read. -/
  | held
deriving DecidableEq, Repr, Inhabited

namespace Source

/-- An integer of this form may stand for a name. -/
def admitsNumber : Source → IntegerForm → Bool
  | .encoded .messagePack, .unsigned _ => true
  | .held, .unsigned width => width == 1 || width == 8
  | _, _ => false

/-- A part that nobody looks at may be passed over. JSON sets no limit on it, and what was held back
has been measured before. -/
def passesOver (source : Source) (limit : Nat) (node : Node) : Bool :=
  match source with
  | .encoded .messagePack => node.legible limit
  | _ => true

end Source

/-- Position of a name among the known ones; the inner `none` is an unknown name, the outer one
something that is no name. -/
def nameIndex? (source : Source) (names : List String) : Node → Option (Option Nat)
  | .text content => some (names.idxOf? content)
  | .bytes content => some ((textOfBytes? content).bind names.idxOf?)
  | .brokenText => some none
  | .integer form number =>
      if source.admitsNumber form then
        some (if number.toNat < names.length then some number.toNat else none)
      else none
  | _ => none

/-- The fields of a record, by position of their names; missing ones are `none`. -/
def readFields (source : Source) (names : List String) (limit : Nat) :
    Node → Option (List (Option Node))
  | .list items =>
      if items.length ≤ names.length then
        some (items.map some ++ List.replicate (names.length - items.length) none)
      else none
  | .map entries =>
      entries.foldlM
        (fun found (key, value) => do
          match ← nameIndex? source names key with
          | none => if source.passesOver limit value then some found else none
          | some index =>
              match found[index]? with
              | some none => some (found.set index (some value))
              | _ => none)
        (List.replicate names.length none)
  | _ => none

/-- A field that must be there. -/
def required {α : Type} (read : Node → Option α) : Option Node → Option α
  | some node => read node
  | none => none

/-- A field that stands for a given value when it is missing. -/
def orElse {α : Type} (default : α) (read : Node → Option α) : Option Node → Option α
  | some node => read node
  | none => some default

/-- A field that may be missing or null. -/
def nullable {α : Type} (read : Node → Option α) : Option Node → Option (Option α)
  | none | some .null => some none
  | some node => (read node).map some

def readText : Node → Option String
  | .text content => some content
  | .bytes content => textOfBytes? content
  | _ => none

def readBoolean : Node → Option Bool
  | .boolean flag => some flag
  | _ => none

/-- An integer between two bounds, both included. -/
def readInteger (least greatest : Int) : Node → Option Int
  | .integer _ number => if least ≤ number ∧ number ≤ greatest then some number else none
  | _ => none

def readInt64 (node : Node) : Option Int64 :=
  (readInteger (-0x8000000000000000) 0x7fffffffffffffff node).map Int64.ofInt

def readUInt64 (node : Node) : Option UInt64 :=
  (readInteger 0 0xffffffffffffffff node).map fun number => number.toNat.toUInt64

/-- Any number, as a float. -/
def readFloat : Node → Option Binary64
  | .float number => some number
  | .integer _ number => some (Binary64.ofInt number)
  | _ => none

/-- The items of a list. MessagePack admits an empty byte string as an empty list. -/
def readList {α : Type} (source : Source) (read : Nat → Node → Option α) :
    Nat → Node → Option (List α)
  | limit + 1, .list items => items.mapM (read limit)
  | _, .bytes [] => if source = .encoded .messagePack then some [] else none
  | _, _ => none

def readTexts (source : Source) (limit : Nat) (node : Node) : Option (List String) :=
  readList source (fun _ => readText) limit node

def readIdSet (source : Source) (limit : Nat) (node : Node) : Option IdSet :=
  (readTexts source limit node).map IdSet.ofList

/-- The entries of a map with texts for keys; the last entry of a repeated key counts. -/
def readTable {α : Type} (read : Nat → Node → Option α) : Nat → Node → Option (Table α)
  | limit + 1, .map entries => do
      let read ← entries.mapM fun (key, value) => do
        return (← readText key, ← read limit value)
      return Table.ofEntries read
  | _, _ => none

/-- A choice by its name, which MessagePack may write in any form of a name. In the long form the
name leads to null; what was held back may have an empty map there. Only JSON counts the long form
as a container. -/
def readChoice (source : Source) (names : List String) (limit : Nat) : Node → Option Nat
  | .text content => names.idxOf? content
  | .map [(key, payload)] =>
      match source, payload with
      | .encoded .json, .null => if limit = 0 then none else (nameIndex? source names key).join
      | .encoded .messagePack, .null | .held, .null | .held, .map [] =>
          (nameIndex? source names key).join
      | _, _ => none
  | node =>
      if source = .encoded .messagePack then (nameIndex? source names node).join else none

end GraphCheckpoint.Encoding
