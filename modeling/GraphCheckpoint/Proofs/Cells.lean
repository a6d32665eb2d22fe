import GraphCheckpoint.Cells
import GraphCheckpoint.Proofs.Graph

/-!
Contract: the settled forms of live values and records.

Owns:
- `Cells.settling`, the conversion that settles records;
- that regular cells settle regular records to regular ones.

Does not own: when a cell settles, or what the settled records are written as.
-/

namespace GraphCheckpoint.Cells

variable {floats : Prop}

/-- Every value that a cell has been resolved with is regular. -/
def Regular (floats : Prop) (cells : Cells) : Prop :=
  ∀ cell value, cells.state cell = .resolved value → value.Regular floats

theorem regular_empty : empty.Regular floats := by
  intro cell value resolved
  simp [state, empty] at resolved

/-- From live records to settled ones. -/
def settling (cells : Cells) : Conversion Option LiveValue SettledValue where
  typeName := id
  table := cells.settledTable?

theorem Regular.becomeWithin {cells : Cells} (regular : cells.Regular floats) (budget : Nat)
    (cell : CellId) (settled : SettledValue)
    (isSettled : cells.becomeWithin budget cell = some (some settled)) :
    settled.Regular floats := by
  induction budget generalizing cell settled with
  | zero =>
      unfold Cells.becomeWithin at isSettled
      split at isSettled <;> cases isSettled
  | succ remaining inductionHypothesis =>
      unfold Cells.becomeWithin at isSettled
      split at isSettled
      · rename_i value resolved
        exact Value.Regular.settleWith inductionHypothesis value (regular cell value resolved)
          isSettled
      · cases isSettled

theorem Regular.settledTable? {cells : Cells} (regular : cells.Regular floats)
    {table : Table LiveValue} {settled : Table SettledValue}
    (tableRegular : Value.RegularTable floats table)
    (isSettled : cells.settledTable? table = some settled) :
    Value.RegularTable floats settled :=
  Value.RegularTable.settleEntriesWith (regular.becomeWithin cells.size) tableRegular isSettled

/-- A regular delta over regular cells settles to a regular one. -/
theorem Regular.settleDelta {cells : Cells} (regular : cells.Regular floats)
    {delta : Delta LiveValue} {settled : Delta SettledValue} (deltaRegular : delta.Regular floats)
    (isSettled : delta.convert cells.settling = some settled) : settled.Regular floats :=
  Delta.Regular.convert (fun _ _ => regular.settledTable?) deltaRegular isSettled

theorem Regular.settleGraph {cells : Cells} (regular : cells.Regular floats)
    {graph : Graph LiveValue} {settled : Graph SettledValue} (graphRegular : graph.Regular floats)
    (isSettled : graph.convert cells.settling = some settled) : settled.Regular floats :=
  Graph.Regular.convert (fun _ _ => regular.settledTable?) graphRegular isSettled

end GraphCheckpoint.Cells
