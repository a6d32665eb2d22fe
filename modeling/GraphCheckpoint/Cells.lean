import GraphCheckpoint.Value
import GraphCheckpoint.Handle

/-!
Contract: values that are computed while the graph lives, kept in shared cells.

Owns:
- `Cells`, the heap of computed values, each settled at most once;
- shown text, equality and settled form of a live value.

Does not own: which object a reference leads to.

A cell may be settled with a value that holds any cell, itself included, so following cells need not
end. Following stops once it has gone through more cells than there are, and then answers `none`:
a path that long has come back to a cell that it already went through.
-/

namespace GraphCheckpoint

/-- Number of a cell in the heap. -/
structure CellId where
  index : Nat
deriving DecidableEq, Repr, Inhabited

/-- A value of the live graph. -/
abbrev LiveValue := Value Handle CellId

/-- A value all of whose computed parts have been replaced or left out. -/
abbrev SettledValue := Value Handle Empty

/-- What has become of a computed value. -/
inductive Cell where
  | pending
  | failed (reason : String)
  | resolved (value : LiveValue)
deriving Inhabited

/-- All computed values, by cell. -/
structure Cells where
  states : Array Cell
deriving Inhabited

namespace Cells

def empty : Cells := ⟨#[]⟩

def size (cells : Cells) : Nat := cells.states.size

def state (cells : Cells) (cell : CellId) : Cell :=
  cells.states.getD cell.index .pending

/-- A new cell in the given state. -/
def allocate (state : Cell) (cells : Cells) : CellId × Cells :=
  (⟨cells.size⟩, ⟨cells.states.push state⟩)

def isDone (cells : Cells) (cell : CellId) : Bool :=
  match cells.state cell with
  | .pending => false
  | _ => true

/-- The value of a cell, once it has been resolved. -/
def value? (cells : Cells) (cell : CellId) : Option LiveValue :=
  match cells.state cell with
  | .resolved value => some value
  | _ => none

/-- The reason for which a computation failed. -/
def error? (cells : Cells) (cell : CellId) : Option String :=
  match cells.state cell with
  | .failed reason => some reason
  | _ => none

/-- Settles a pending cell. A cell settled before stays as it is, which the answer tells. -/
def settle (cell : CellId) (state : Cell) (cells : Cells) : Bool × Cells :=
  if cells.isDone cell then (false, cells)
  else (true, ⟨cells.states.setIfInBounds cell.index state⟩)

/-! ## Following cells -/

/-- What a cell has become, through at most the given number of cells. -/
def becomeWithin (cells : Cells) : Nat → CellId → Option (Option SettledValue)
  | budget, cell =>
      match cells.state cell with
      | .resolved value =>
          match budget with
          | 0 => none
          | remaining + 1 => value.settleWith (becomeWithin cells remaining)
      | _ => some none

/-- The settled form of a live value: `some none` for a value that is not there yet, `none` for one
whose cells have no end. -/
def settled? (cells : Cells) (value : LiveValue) : Option (Option SettledValue) :=
  value.settleWith (cells.becomeWithin cells.size)

/-- The settled form of a table: what is not there yet is left out. -/
def settledTable? (cells : Cells) (table : List (String × LiveValue)) :
    Option (List (String × SettledValue)) :=
  Value.settleEntriesWith (cells.becomeWithin cells.size) table

/-- Shown text of a cell, through at most the given number of cells. -/
def showWithin (cells : Cells) : Nat → CellId → Option String
  | budget, cell =>
      match cells.state cell with
      | .resolved value =>
          match budget with
          | 0 => none
          | remaining + 1 => value.showWith Handle.id (showWithin cells remaining)
      | _ => some "<pending>"

/-- The shown text of a live value, if it ends. -/
def show? (cells : Cells) (value : LiveValue) : Option String :=
  value.showWith Handle.id (cells.showWithin cells.size)

/-- Ids of the referenced entities and of the referenced locations, through resolved cells. -/
def referencedIds? (cells : Cells) (value : LiveValue) :
    Option (List String × List String) := do
  match ← cells.settled? value with
  | none => return ([], [])
  | some settled =>
      let idsOf := fun kind =>
        settled.references.filterMap fun (found, handle) =>
          if found = kind then some handle.id else none
      return (idsOf .entity, idsOf .location)

/-- What the values of a table refer to, in order, through resolved cells. -/
def referencedKeys (cells : Cells) (table : List (String × LiveValue)) : List ObjectKey :=
  (Value.referencesOfEntries ((cells.settledTable? table).getD [])).map fun (kind, handle) =>
    ⟨kind, handle.id⟩

/-- Equality of two cells, through at most the given number of pairs: one cell, or equal contents.
Contents whose comparison has no end count as different. -/
def sameWithin (cells : Cells) : Nat → CellId → CellId → Bool
  | budget, left, right =>
      left == right ||
        match cells.state left, cells.state right with
        | .pending, .pending => true
        | .failed leftReason, .failed rightReason => leftReason == rightReason
        | .resolved leftValue, .resolved rightValue =>
            match budget with
            | 0 => false
            | remaining + 1 =>
                leftValue.sameWith (fun one other => one.id == other.id)
                  (sameWithin cells remaining) rightValue
        | _, _ => false

/-- Equality of live values; references are equal when their ids are. -/
def same (cells : Cells) (left right : LiveValue) : Bool :=
  left.sameWith (fun one other => one.id == other.id)
    (cells.sameWithin (cells.size * cells.size)) right

/-- Equality of tables of live values. -/
def sameTable (cells : Cells) (left right : List (String × LiveValue)) : Bool :=
  Value.sameEntriesWith (fun one other => one.id == other.id)
    (cells.sameWithin (cells.size * cells.size)) left right

end Cells

end GraphCheckpoint
